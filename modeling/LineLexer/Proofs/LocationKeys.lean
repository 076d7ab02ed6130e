import LineLexer.Location
import Mathlib

/-!
# Locations as keys

What is looked up by its key is found only where equal locations have one key. Locations are equal
just when their keys are, as long as both names lead somewhere or neither does. Where one leads
somewhere and the other nowhere they can still be equal by their normal paths: their keys then
differ, a set holds both, and a third location can be equal to one of them alone.
-/

namespace LineLexer

namespace FileSystem

def node? (fs : FileSystem) (name : Text) : Option Node := (fs.status name).toOption

def leads (fs : FileSystem) (name : Text) : Bool := (fs.node? name).isSome

/-- Two names are the same file by the nodes they lead to or, if either leads nowhere, by their
normal paths. -/
inductive Same (fs : FileSystem) (a b : Text) : Prop
  | node {n : Node} (ha : fs.node? a = some n) (hb : fs.node? b = some n)
  | path (hnowhere : fs.node? a = none ∨ fs.node? b = none)
      (h : normalPath fs.workingDirectory a = normalPath fs.workingDirectory b)

section Names

variable {fs : FileSystem} {a b c : Text}

theorem status_of_named (fs : FileSystem) (ha : '\x00' ∉ a) :
    (∃ n, fs.status a = .ok n ∧ fs.node? a = some n) ∨
      ∃ fault, fs.status a = .error (.system fault a) ∧ fs.node? a = none := by
  have hends : ∀ x : Except Input.SystemFault Node, fs.status a = x.mapError (Input.Fault.system · a) →
      (∃ n, fs.status a = .ok n ∧ fs.node? a = some n) ∨
        ∃ fault, fs.status a = .error (.system fault a) ∧ fs.node? a = none := by
    intro x hx
    cases x with
    | ok n => exact .inl ⟨n, hx, by rw [node?, hx]; rfl⟩
    | error fault => exact .inr ⟨fault, hx, by rw [node?, hx]; rfl⟩
  by_cases hnil : a = []
  · exact hends (.error .missing) (by rw [status, if_neg ha, if_pos hnil]; rfl)
  · exact hends _ (by rw [status, if_neg ha, if_neg hnil])

theorem Same.refl (fs : FileSystem) (a : Text) : fs.Same a a := by
  cases h : fs.node? a with
  | some n => exact .node h h
  | none => exact .path (.inl h) rfl

theorem Same.symm (h : fs.Same a b) : fs.Same b a := by
  cases h with
  | node ha hb => exact .node hb ha
  | path hnowhere h => exact .path hnowhere.symm h.symm

theorem Same.trans (h : fs.Same a b) (h' : fs.Same b c) :
    fs.Same a c ∨ [a, b, c].countP fs.leads = 2 := by
  cases h with
  | node ha hb =>
    cases h' with
    | node hb' hc =>
      obtain rfl := Option.some.inj (hb.symm.trans hb')
      exact .inl (.node ha hc)
    | path hnowhere h' =>
      have hc : fs.node? c = none := by simpa [hb] using hnowhere
      exact .inr (by simp [leads, ha, hb, hc])
  | path hnowhere h =>
    cases h' with
    | node hb hc =>
      have ha : fs.node? a = none := by simpa [hb] using hnowhere
      exact .inr (by simp [leads, ha, hb, hc])
    | path hnowhere' h' =>
      cases ha : fs.node? a with
      | none => exact .inl (.path (.inl ha) (h.trans h'))
      | some n =>
        cases hc : fs.node? c with
        | none => exact .inl (.path (.inr hc) (h.trans h'))
        | some m =>
          have hb : fs.node? b = none := by simpa [ha] using hnowhere
          exact .inr (by simp [leads, ha, hb, hc])

theorem sameFile_of_named (fs : FileSystem) (ha : '\x00' ∉ a) (hb : '\x00' ∉ b) :
    ∃ v, fs.sameFile a b = .ok v ∧ (v = true ↔ fs.Same a b) := by
  by_cases hab : a = b
  · subst hab
    exact ⟨true, by simp [sameFile], by simp [Same.refl]⟩
  have hpath (hnowhere : fs.node? a = none ∨ fs.node? b = none) :
      decide (normalPath fs.workingDirectory a = normalPath fs.workingDirectory b) = true ↔
        fs.Same a b := by
    rw [decide_eq_true_eq]
    refine ⟨.path hnowhere, fun h => ?_⟩
    cases h with
    | node ha hb => simp [ha, hb] at hnowhere
    | path _ h => exact h
  obtain ⟨n, hstatus, hnode⟩ | ⟨fault, hstatus, hnode⟩ := fs.status_of_named ha
  · obtain ⟨m, hstatus', hnode'⟩ | ⟨fault, hstatus', hnode'⟩ := fs.status_of_named hb
    · refine ⟨decide (n = m), by simp [sameFile, hab, hstatus, hstatus'], ?_⟩
      rw [decide_eq_true_eq]
      refine ⟨fun h => .node hnode (h ▸ hnode'), fun h => ?_⟩
      cases h with
      | node ha hb =>
        exact Option.some.inj (hnode.symm.trans (ha.trans (hb.symm.trans hnode')))
      | path hnowhere _ => simp [hnode, hnode'] at hnowhere
    · exact ⟨_, by simp [sameFile, hab, hstatus, hstatus'], hpath (.inr hnode')⟩
  · exact ⟨_, by simp [sameFile, hab, hstatus], hpath (.inl hnode)⟩

theorem identity_of_named (fs : FileSystem) (ha : '\x00' ∉ a) :
    fs.identity a = .ok ((fs.node? a).elim (.path (normalPath fs.workingDirectory a)) .node) := by
  obtain ⟨n, hstatus, hnode⟩ | ⟨fault, hstatus, hnode⟩ := fs.status_of_named ha
  · rw [identity, hstatus, hnode]
    rfl
  · rw [identity, hstatus, hnode]
    rfl

theorem identity_eq_iff (ha : '\x00' ∉ a) (hb : '\x00' ∉ b) :
    fs.identity a = fs.identity b ↔ fs.Same a b ∧ fs.leads a = fs.leads b := by
  rw [fs.identity_of_named ha, fs.identity_of_named hb, Except.ok.injEq]
  constructor
  · intro h
    cases hnode : fs.node? a with
    | some n =>
      cases hnode' : fs.node? b with
      | some m =>
        obtain rfl : n = m := by simpa [hnode, hnode'] using h
        exact ⟨.node hnode hnode', by simp [leads, hnode, hnode']⟩
      | none => simp [hnode, hnode'] at h
    | none =>
      cases hnode' : fs.node? b with
      | some m => simp [hnode, hnode'] at h
      | none =>
        refine ⟨.path (.inl hnode) ?_, by simp [leads, hnode, hnode']⟩
        simpa [hnode, hnode'] using h
  · rintro ⟨h, hleads⟩
    cases h with
    | node ha hb =>
      rw [ha, hb]
      rfl
    | path hnowhere h =>
      have hboth : fs.node? a = none ∧ fs.node? b = none := by
        rcases hnowhere with hnode | hnode
        · exact ⟨hnode, by simpa [leads, hnode] using hleads.symm⟩
        · exact ⟨by simpa [leads, hnode] using hleads, hnode⟩
      rw [hboth.1, hboth.2, h]

end Names

end FileSystem

namespace Location

section Sets

variable {fs : FileSystem} {a b c l : Location} {ls : List Location}

def Found (fs : FileSystem) (a b : Location) : Prop :=
  a.key fs = b.key fs ∧ a.equals fs b = .ok true

instance (fs : FileSystem) (a b : Location) : Decidable (Found fs a b) :=
  inferInstanceAs (Decidable (_ ∧ _))

def put (fs : FileSystem) (members : List Location) (l : Location) : List Location :=
  if ∃ m ∈ members, Found fs m l then members else members ++ [l]

def members (fs : FileSystem) (ls : List Location) : List Location := ls.foldl (put fs) []

theorem key_of_named (fs : FileSystem) (ha : '\x00' ∉ a.file) : ∃ k, a.key fs = .ok k := by
  rw [key, fs.identity_of_named ha]
  exact ⟨_, rfl⟩

theorem key_eq_iff (ha : '\x00' ∉ a.file) (hb : '\x00' ∉ b.file) :
    a.key fs = b.key fs ↔
      (a.line = b.line ∧ a.column = b.column) ∧ fs.identity a.file = fs.identity b.file := by
  have hkey (l : Location) (hl : '\x00' ∉ l.file) : ∃ i, fs.identity l.file = .ok i ∧
      l.key fs = .ok ⟨i, l.line, l.column⟩ := by
    rw [key, fs.identity_of_named hl]
    exact ⟨_, rfl, rfl⟩
  obtain ⟨i, hi, hk⟩ := hkey a ha
  obtain ⟨j, hj, hk'⟩ := hkey b hb
  rw [hi, hj, hk, hk', Except.ok.injEq, Except.ok.injEq, Key.mk.injEq]
  tauto

theorem equals_of_named (fs : FileSystem) (ha : '\x00' ∉ a.file) (hb : '\x00' ∉ b.file) :
    ∃ v, a.equals fs b = .ok v ∧
      (v = true ↔ (a.line = b.line ∧ a.column = b.column) ∧ fs.Same a.file b.file) := by
  by_cases hplace : a.line = b.line ∧ a.column = b.column
  · obtain ⟨v, hv, hsame⟩ := fs.sameFile_of_named ha hb
    exact ⟨v, by rw [equals, if_pos hplace, hv], by rw [hsame]; tauto⟩
  · exact ⟨false, by rw [equals, if_neg hplace], by simp [hplace]⟩

theorem equals_eq_true_iff (ha : '\x00' ∉ a.file) (hb : '\x00' ∉ b.file) :
    a.equals fs b = .ok true ↔
      (a.line = b.line ∧ a.column = b.column) ∧ fs.Same a.file b.file := by
  obtain ⟨v, hv, hsame⟩ := equals_of_named fs ha hb
  rw [hv, Except.ok.injEq, hsame]

theorem found_iff (ha : '\x00' ∉ a.file) (hb : '\x00' ∉ b.file) :
    Found fs a b ↔ a.equals fs b = .ok true ∧ fs.leads a.file = fs.leads b.file := by
  rw [Found, key_eq_iff ha hb, fs.identity_eq_iff ha hb, equals_eq_true_iff ha hb]
  tauto

theorem Found.refl (ha : '\x00' ∉ a.file) : Found fs a a :=
  (found_iff ha ha).2 ⟨(equals_eq_true_iff ha ha).2 ⟨⟨rfl, rfl⟩, .refl fs _⟩, rfl⟩

theorem members_concat (fs : FileSystem) (ls : List Location) (l : Location) :
    members fs (ls ++ [l]) = put fs (members fs ls) l := by
  rw [members, List.foldl_append]
  rfl

theorem subset_put (fs : FileSystem) (ls : List Location) (l : Location) : ls ⊆ put fs ls l := by
  unfold put
  split
  · exact List.Subset.refl ls
  · exact List.subset_append_left ls [l]

theorem put_subset (fs : FileSystem) (ls : List Location) (l : Location) :
    put fs ls l ⊆ ls ++ [l] := by
  unfold put
  split
  · exact List.subset_append_left ls [l]
  · exact List.Subset.refl _

theorem members_subset (fs : FileSystem) (ls : List Location) : members fs ls ⊆ ls := by
  induction ls using List.reverseRecOn with
  | nil => exact List.Subset.refl []
  | append_singleton ls l ih =>
    rw [members_concat]
    intro m hm
    rcases List.mem_append.1 (put_subset fs _ l hm) with hbefore | hlast
    · exact List.mem_append_left _ (ih hbefore)
    · exact List.mem_append_right _ hlast

theorem exists_found (hls : ∀ l ∈ ls, '\x00' ∉ l.file) (hl : l ∈ ls) :
    ∃ m ∈ members fs ls, Found fs m l := by
  induction ls using List.reverseRecOn with
  | nil => cases hl
  | append_singleton ls last ih =>
    rw [members_concat]
    rcases List.mem_append.1 hl with hbefore | hlast
    · obtain ⟨m, hm, hfound⟩ := ih (fun l hl => hls l (List.mem_append_left _ hl)) hbefore
      exact ⟨m, subset_put fs _ last hm, hfound⟩
    · obtain rfl := List.mem_singleton.1 hlast
      unfold put
      split
      · assumption
      · exact ⟨l, by simp, .refl (hls l hl)⟩

theorem pairwise_members (hls : ∀ l ∈ ls, '\x00' ∉ l.file)
    (hfound : ∀ a ∈ ls, ∀ b ∈ ls, a.equals fs b = .ok true → Found fs a b) :
    (members fs ls).Pairwise fun a b => a.equals fs b = .ok false := by
  induction ls using List.reverseRecOn with
  | nil => exact .nil
  | append_singleton ls last ih =>
    have hbefore : ls ⊆ ls ++ [last] := List.subset_append_left ls [last]
    replace ih := ih (fun l hl => hls l (hbefore hl))
      fun a ha b hb => hfound a (hbefore ha) b (hbefore hb)
    rw [members_concat]
    unfold put
    split
    · exact ih
    · rename_i hnone
      rw [List.pairwise_append]
      refine ⟨ih, List.pairwise_singleton _ _, fun m hm l hl => ?_⟩
      obtain rfl := List.mem_singleton.1 hl
      have hmem : m ∈ ls ++ [l] := hbefore (members_subset fs ls hm)
      have hlast : l ∈ ls ++ [l] := List.mem_append_right _ hl
      obtain ⟨v, hv, -⟩ := equals_of_named fs (hls m hmem) (hls l hlast)
      cases v with
      | false => exact hv
      | true => exact absurd ⟨m, hm, hfound m hmem l hlast hv⟩ hnone

theorem distinct_eq (ha : '\x00' ∉ a.file) (hb : '\x00' ∉ b.file) :
    a.distinct fs b = .ok (members fs [a, b]).length := by
  obtain ⟨k, hk⟩ := key_of_named fs ha
  obtain ⟨k', hk'⟩ := key_of_named fs hb
  obtain ⟨v, hv, -⟩ := equals_of_named fs ha hb
  have hmembers : members fs [a, b] = if Found fs a b then [a] else [a, b] := by
    simp [members, put]
  have hdistinct : a.distinct fs b =
      if k = k' then do return if ← equals fs a b then 1 else 2 else return 2 := by
    rw [distinct, hk, hk']
    rfl
  have hfound : Found fs a b ↔ k = k' ∧ v = true := by simp [Found, hk, hk', hv]
  rw [hmembers, hdistinct, hv]
  by_cases hkeys : k = k'
  · cases v with
    | true => simp [hfound, hkeys, bind, Except.bind, pure, Except.pure]
    | false => simp [hfound, hkeys, bind, Except.bind, pure, Except.pure]
  · simp [hfound, hkeys, pure, Except.pure]

end Sets

/-- What holds of any three locations. Equal ones have one key just when both names lead somewhere
or neither does, and only where two of the three names lead somewhere does equality not carry over. -/
structure Keyed (fs : FileSystem) (a b c : Location) : Prop where
  key : ∃ k, a.key fs = .ok k
  equals : ∃ v, a.equals fs b = .ok v
  refl : a.equals fs a = .ok true
  symm : a.equals fs b = b.equals fs a
  trans : a.equals fs b = .ok true → b.equals fs c = .ok true →
    a.equals fs c = .ok true ∨ [a, b, c].countP (fun l => fs.leads l.file) = 2
  equals_of_key : a.key fs = b.key fs → a.equals fs b = .ok true
  key_iff : a.equals fs b = .ok true →
    (a.key fs = b.key fs ↔ fs.leads a.file = fs.leads b.file)
  distinct : a.distinct fs b = .ok (members fs [a, b]).length

theorem keyed {fs : FileSystem} {a b c : Location} (ha : '\x00' ∉ a.file) (hb : '\x00' ∉ b.file)
    (hc : '\x00' ∉ c.file) : Keyed fs a b c where
  key := key_of_named fs ha
  equals := by
    obtain ⟨v, hv, -⟩ := equals_of_named fs ha hb
    exact ⟨v, hv⟩
  refl := (Found.refl ha).2
  symm := by
    obtain ⟨v, hv, hsame⟩ := equals_of_named fs ha hb
    obtain ⟨w, hw, hsame'⟩ := equals_of_named fs hb ha
    have hflip : fs.Same a.file b.file ↔ fs.Same b.file a.file := ⟨.symm, .symm⟩
    rw [hv, hw, Except.ok.injEq, Bool.eq_iff_iff, hsame, hsame', hflip, eq_comm (a := a.line),
      eq_comm (a := a.column)]
  trans := by
    rw [equals_eq_true_iff ha hb, equals_eq_true_iff hb hc, equals_eq_true_iff ha hc]
    rintro ⟨⟨hline, hcolumn⟩, hsame⟩ ⟨⟨hline', hcolumn'⟩, hsame'⟩
    rcases hsame.trans hsame' with hthrough | htwo
    · exact .inl ⟨⟨hline.trans hline', hcolumn.trans hcolumn'⟩, hthrough⟩
    · exact .inr (by simpa [List.countP_cons] using htwo)
  equals_of_key := by
    rw [key_eq_iff ha hb, fs.identity_eq_iff ha hb, equals_eq_true_iff ha hb]
    exact fun h => ⟨h.1, h.2.1⟩
  key_iff heq := by
    have hfound : Found fs a b ↔ _ := found_iff ha hb
    unfold Found at hfound
    tauto
  distinct := distinct_eq ha hb

/-- Locations are keys by the nodes and the paths of their files. Every location that has been put
into a set is found there, and no two members are equal unless of two equal locations one was put
there by a name that leads somewhere and the other by one that does not. -/
theorem keys_of_named {fs : FileSystem} {ls : List Location} (hls : ∀ l ∈ ls, '\x00' ∉ l.file) :
    (∀ a ∈ ls, ∀ b ∈ ls, ∀ c ∈ ls, Keyed fs a b c) ∧
    (∀ l ∈ ls, ∃ m ∈ members fs ls, m.key fs = l.key fs ∧ m.equals fs l = .ok true) ∧
    ((∀ a ∈ ls, ∀ b ∈ ls, a.equals fs b = .ok true → fs.leads a.file = fs.leads b.file) →
      (members fs ls).Pairwise fun a b => a.equals fs b = .ok false) := by
  refine ⟨fun a ha b hb c hc => keyed (hls a ha) (hls b hb) (hls c hc),
    fun l hl => exists_found hls hl, fun hleads => pairwise_members hls fun a ha b hb heq => ?_⟩
  exact (found_iff (hls a ha) (hls b hb)).2 ⟨heq, hleads a ha b hb heq⟩

def first (file : Text) : Location := ⟨file, 1, 1⟩

def oneFileTwoNames : FileSystem := (({} : FileSystem).addFile ['x'] []).addName ['h'] ['x']

theorem keys_of_named_linked :
    members oneFileTwoNames [first ['x'], first ['h'], first ['g']] = [first ['x'], first ['g']] ∧
      (members oneFileTwoNames [first ['x'], first ['h'], first ['g']]).Pairwise
        fun a b => a.equals oneFileTwoNames b = .ok false := by
  have hnamed : ∀ l ∈ [first ['x'], first ['h'], first ['g']], '\x00' ∉ l.file := by decide
  have hleads : oneFileTwoNames.leads ['x'] = true ∧ oneFileTwoNames.leads ['h'] = true ∧
      oneFileTwoNames.leads ['g'] = false := ⟨by cbv, by cbv, by cbv⟩
  refine ⟨by cbv, (keys_of_named hnamed).2.2 ?_⟩
  have hfar : ∀ name ∈ [['x'], ['h']],
      (first name).equals oneFileTwoNames (first ['g']) = .ok false ∧
        (first ['g']).equals oneFileTwoNames (first name) = .ok false := by
    intro name hname
    simp only [List.mem_cons, List.not_mem_nil, or_false] at hname
    rcases hname with rfl | rfl
    · exact ⟨by cbv, by cbv⟩
    · exact ⟨by cbv, by cbv⟩
  intro a ha b hb heq
  simp only [List.mem_cons, List.not_mem_nil, or_false] at ha hb
  rcases ha with rfl | rfl | rfl <;> rcases hb with rfl | rfl | rfl <;> simp_all [first]

/-- A way through a directory that is missing leads nowhere, and yet it is the same file as one that
is there. A set holds both, and another name of that file is not the same as the way. -/
theorem key_ne_of_missing :
    (first ['x']).equals oneFileTwoNames (first "m/../x".toList) = .ok true ∧
      (first ['x']).key oneFileTwoNames ≠ (first "m/../x".toList).key oneFileTwoNames ∧
      members oneFileTwoNames [first ['x'], first "m/../x".toList] =
        [first ['x'], first "m/../x".toList] ∧
      (first ['h']).equals oneFileTwoNames (first ['x']) = .ok true ∧
      (first ['h']).equals oneFileTwoNames (first "m/../x".toList) = .ok false := by
  have hthere : (first ['x']).key oneFileTwoNames = .ok ⟨.node (.file 0), 1, 1⟩ := by cbv
  have hthrough : (first "m/../x".toList).key oneFileTwoNames =
      .ok ⟨.path (normalPath oneFileTwoNames.workingDirectory ['x']), 1, 1⟩ := by cbv
  refine ⟨by cbv, ?_, by cbv, by cbv, by cbv⟩
  rw [hthere, hthrough]
  simp

end Location
end LineLexer
