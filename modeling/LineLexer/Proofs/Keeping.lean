import LineLexer.Proofs.Moves
import LineLexer.Proofs.ScanSegmentation
import Mathlib

/-!
# What keeping comments changes

Whether comments are kept is told to a scan, to skipping and to the reading of
each comment, and the same statements collect them and move the cursor. Two
operations that are told differently are therefore followed side by side: at
every step they leave one and the same reader, and only what they have collected
differs.
-/

namespace LineLexer

namespace Op

variable {α β γ δ : Type} {I : Reader → Prop} {V : α → β → Prop} {W : γ → δ → Prop}

inductive EndTogether (V : α → β → Prop) :
    EStateM.Result Fault Reader α → EStateM.Result Fault Reader β → Prop
  | ok {a : α} {b : β} (r : Reader) (h : V a b) : EndTogether V (.ok a r) (.ok b r)
  | error (fault : Fault) (r : Reader) : EndTogether V (.error fault r) (.error fault r)

/-- From any reader of a kind two operations end together, with a reader of that kind. -/
def Together (I : Reader → Prop) (V : α → β → Prop) (x : Op α) (y : Op β) : Prop :=
  ∀ r, I r → EndTogether V (x r) (y r) ∧ I (x.after r)

theorem EndTogether.mono {V' : α → β → Prop} (hV : ∀ a b, V a b → V' a b)
    {x : EStateM.Result Fault Reader α} {y : EStateM.Result Fault Reader β}
    (h : EndTogether V x y) : EndTogether V' x y := by
  cases h with
  | ok r h => exact .ok r (hV _ _ h)
  | error fault r => exact .error fault r

theorem EndTogether.after_eq {x : Op α} {y : Op β} {r : Reader} (h : EndTogether V (x r) (y r)) :
    x.after r = y.after r := by
  unfold after
  generalize x r = ends at h
  generalize y r = ends' at h
  cases h <;> rfl

theorem EndTogether.outcome_map {f : α → β} {x : Op α} {y : Op β} {r : Reader}
    (h : EndTogether (fun a b => b = f a) (x r) (y r)) : y.outcome r = (x.outcome r).map f := by
  unfold outcome
  generalize x r = ends at h
  generalize y r = ends' at h
  cases h with
  | ok s h => exact congrArg Except.ok h
  | error fault s => rfl

theorem Together.mono {V' : α → β → Prop} (hV : ∀ a b, V a b → V' a b) {x : Op α} {y : Op β}
    (h : Together I V x y) : Together I V' x y :=
  fun r hr => ⟨(h r hr).1.mono hV, (h r hr).2⟩

theorem together_pure {a : α} {b : β} (h : V a b) : Together I V (pure a) (pure b) :=
  fun r hr => ⟨.ok r h, hr⟩

theorem Respects.together {x : Op α} (h : Respects (fun r s => r = s ∧ I r) x) :
    Together I Eq x x := by
  intro r hr
  refine ⟨?_, preserves_iff_respects.2 h r hr⟩
  cases x r with
  | ok a s => exact .ok s rfl
  | error fault s => exact .error fault s

theorem Respects.together_of_failing {x : Op α} (h : Respects (fun r s => r = s ∧ I r) x)
    (hx : ∀ r a s, x r ≠ .ok a s) {V : α → α → Prop} : Together I V x x := by
  intro r hr
  refine ⟨?_, preserves_iff_respects.2 h r hr⟩
  cases hrun : x r with
  | ok a s => exact absurd hrun (hx r a s)
  | error fault s => exact .error fault s

theorem together_ofExcept {x : Except Fault α} {y : Except Fault β}
    (h : ∃ a b, x = .ok a ∧ y = .ok b ∧ V a b) : Together I V (ofExcept x) (ofExcept y) := by
  obtain ⟨a, b, rfl, rfl, hV⟩ := h
  exact together_pure hV

theorem Together.bind {x : Op α} {y : Op β} {f : α → Op γ} {g : β → Op δ}
    (hxy : Together I V x y) (hfg : ∀ a b, V a b → Together I W (f a) (g b)) :
    Together I W (x >>= f) (y >>= g) := by
  intro r hr
  obtain ⟨hends, hafter⟩ := hxy r hr
  unfold after at hafter ⊢
  generalize hx : x r = ends at hends hafter
  generalize hy : y r = ends' at hends
  cases hends with
  | ok s h =>
    rw [bind_of_ok hx, bind_of_ok hy]
    exact hfg _ _ h s hafter
  | error fault s =>
    rw [bind_of_error hx, bind_of_error hy]
    exact ⟨.error fault s, hafter⟩

theorem Together.bind_same {x : Op α} {f : α → Op γ} {g : α → Op δ}
    (hx : Respects (fun r s => r = s ∧ I r) x)
    (hfg : ∀ a, Together I W (f a) (g a)) : Together I W (x >>= f) (x >>= g) := by
  apply hx.together.bind
  rintro a _ rfl
  exact hfg a

theorem Together.get_bind {f : Reader → Op γ} {g : Reader → Op δ}
    (hfg : ∀ r, I r → Together I W (f r) (g r)) : Together I W (get >>= f) (get >>= g) :=
  fun r hr => hfg r hr r hr

theorem together_loop {turn : α → Op (α ⊕ γ)} {turn' : β → Op (β ⊕ δ)}
    {shrinks : ∀ a r a' s, turn a r = .ok (.inl a') s → s.unread < r.unread}
    {shrinks' : ∀ b r b' s, turn' b r = .ok (.inl b') s → s.unread < r.unread}
    (hturn : ∀ a b, V a b → Together I (Sum.LiftRel V W) (turn a) (turn' b)) {a : α} {b : β}
    (h : V a b) : Together I W (loop turn shrinks a) (loop turn' shrinks' b) := by
  intro r hr
  induction hn : r.unread using Nat.strongRecOn generalizing a b r with
  | _ n ih =>
    subst hn
    obtain ⟨hends, hafter⟩ := hturn a b h r hr
    unfold after at hafter ⊢
    generalize hx : turn a r = ends at hends hafter
    generalize hy : turn' b r = ends' at hends
    cases hends with
    | error fault s =>
      rw [loop_of_error hx, loop_of_error hy]
      exact ⟨.error fault s, hafter⟩
    | ok s h =>
      cases h with
      | inl h =>
        rw [loop_of_inl hx, loop_of_inl hy]
        exact ih _ (shrinks _ _ _ _ hx) h s hafter rfl
      | inr h =>
        rw [loop_of_inr hx, loop_of_inr hy]
        exact ⟨.ok s h, hafter⟩

theorem Together.reverse {V : List α → List β → Prop} {x : Op (List α)} {y : Op (List β)}
    (h : Together I V x y) (hV : ∀ as bs, V as bs → V as.reverse bs.reverse) :
    Together I V (return (← x).reverse) (return (← y).reverse) :=
  h.bind fun as bs hab => together_pure (hV as bs hab)

end Op

open Op (EndTogether Together Respects)

section Comments

variable {d : Delimiters}

theorem Delimiters.coupling (d : Delimiters) :
    Coupling fun r s => r = s ∧ r.config.Delimits d :=
  (Reader.stable_settings fun _ config => config.Delimits d).coupling

namespace Reader

/-- What is returned of a comment. -/
def Returned (keep : Bool) (kept text : Option Text) : Prop := text = if keep then kept else none

theorem together_keptComment {I : Reader → Prop} (keep : Bool) (delimiter text : Text)
    (misuse : String → Misuse) :
    Together I (Returned keep) (Op.ofExcept (keptComment true (.text delimiter) misuse text))
      (Op.ofExcept (keptComment keep (.text delimiter) misuse text)) := by
  apply Op.together_ofExcept
  cases keep with
  | true => exact ⟨_, _, rfl, rfl, rfl⟩
  | false => exact ⟨_, _, rfl, rfl, rfl⟩

theorem together_blockComment (d : Delimiters) (keep : Bool) :
    Together (fun r => r.config.Delimits d) (Returned keep) (blockComment true) (blockComment keep) := by
  refine .get_bind fun r hr => .bind_same d.coupling.forgetMatch fun _ => ?_
  refine .bind_same (d.coupling.readBlock _ _) fun done => .get_bind fun s _ => ?_
  split
  · exact (d.coupling.failLexically _).together_of_failing fun _ _ _ => failLexically_ne_ok
  · rw [hr.opener]
    exact together_keptComment keep _ _ _

theorem together_lineComment (d : Delimiters) (keep : Bool) :
    Together (fun r => r.config.Delimits d) (Returned keep) (lineComment true) (lineComment keep) := by
  refine .get_bind fun r hr => .bind_same d.coupling.forgetMatch fun _ => ?_
  refine .bind_same d.coupling.cacheRemainder fun text => .bind_same (d.coupling.accept _) fun _ => ?_
  rw [hr.lineComment]
  exact together_keptComment keep _ _ _

end Reader

namespace Trivia

def keeping (t : Trivia) (keep : Bool) : Trivia := { t with keepComments := keep }

def Returned (keep : Bool) (kept comments : List Fragment) : Prop :=
  comments = if keep then kept else []

theorem returned_keep {keep : Bool} {kept comments : List Fragment} {text text' : Option Text}
    (h : Returned keep kept comments) (ht : Reader.Returned keep text text') (start : Location) :
    Returned keep (Trivia.keep kept start text) (Trivia.keep comments start text') := by
  unfold Returned Reader.Returned at *
  subst h ht
  cases keep with
  | true => rfl
  | false => rfl

theorem together_turn (t : Trivia) (d : Delimiters) (keep : Bool) {kept comments : List Fragment}
    (h : Returned keep kept comments) :
    Together (fun r => r.config.Delimits d) (Sum.LiftRel (Returned keep) (Returned keep))
      ((t.keeping true).turn kept) ((t.keeping keep).turn comments) := by
  refine .get_bind fun start _ => ?_
  split
  · exact Op.together_pure (.inr h)
  · refine .bind_same (d.coupling.observe fun _ _ _ _ => rfl) fun c? => ?_
    split
    · exact .bind_same d.coupling.next fun _ => Op.together_pure (.inl h)
    · refine .bind_same (d.coupling.acceptDelimiter _) fun opened => ?_
      split
      · exact (Reader.together_blockComment d keep).bind fun text text' ht =>
          Op.together_pure (.inl (returned_keep h ht _))
      · refine .bind_same (d.coupling.acceptDelimiter _) fun marked => ?_
        split
        · exact (Reader.together_lineComment d keep).bind fun text text' ht =>
            Op.together_pure (.inl (returned_keep h ht _))
        · exact Op.together_pure (.inr h)

theorem together_skip (t : Trivia) (d : Delimiters) (keep : Bool) :
    Together (fun r => r.config.Delimits d) (Returned keep) (t.keeping true).skip
      (t.keeping keep).skip := by
  have hbegin : Returned keep [] [] := by cases keep <;> rfl
  refine (Op.together_loop (fun _ _ h => together_turn t d keep h) hbegin).reverse ?_
  rintro kept _ rfl
  cases keep with
  | true => rfl
  | false => rfl

end Trivia

end Comments

namespace Scan

variable {d : Delimiters} {s : Scan}

def keeping (s : Scan) (keep : Bool) : Scan := { s with keepComments := keep }

structure Marked where
  skipped : Bool
  fragment : Fragment

def reported (keep : Bool) (ms : List Marked) : List Fragment :=
  (ms.filter fun m => keep || !m.skipped).map Marked.fragment

/-- A turn of a scan that keeps comments, and marks them. -/
def markedTurn (s : Scan) (done : List Marked) : Op (List Marked ⊕ List Marked) := do
  let done := (← (s.keeping true).trivia.skip).reverse.map (Marked.mk true) ++ done
  if (← get).ended then return .inr done
  let (found, moved) ← s.matchHere
  let done := found.reverse.map (Marked.mk false) ++ done
  if moved then return .inl done else return .inl ((← takeOne).map (Marked.mk false) ++ done)

theorem reported_append (keep : Bool) (ms ns : List Marked) :
    reported keep (ms ++ ns) = reported keep ms ++ reported keep ns := by
  simp [reported]

theorem reported_reverse (keep : Bool) (ms : List Marked) :
    reported keep ms.reverse = (reported keep ms).reverse := by
  simp [reported]

theorem reported_found (keep : Bool) (found : List Fragment) :
    reported keep (found.map (Marked.mk false)) = found := by
  simp [reported, List.filter_map, Function.comp_def]

theorem reported_skipped (keep : Bool) (comments : List Fragment) :
    reported keep (comments.map (Marked.mk true)) = if keep then comments else [] := by
  cases keep with
  | true => simp [reported, List.filter_map, Function.comp_def]
  | false => simp [reported]

def Reports (keep : Bool) (ms : List Marked) (found : List Fragment) : Prop :=
  found = reported keep ms

variable {I : Reader → Prop}

theorem respects_matchHere (hI : Coupling fun r s => r = s ∧ I r) (s : Scan) :
    Respects (fun r s => r = s ∧ I r) s.matchHere := by
  refine hI.get_bind (fun _ _ _ _ => rfl) fun r => (hI.acceptFirst _ _ _ _).bind fun found => ?_
  refine hI.drainQueue.bind fun queue => hI.get_bind (fun _ _ _ _ => rfl) fun after => ?_
  exact Op.respects_pure _

theorem respects_takeOne (hI : Coupling fun r s => r = s ∧ I r) :
    Respects (fun r s => r = s ∧ I r) takeOne :=
  hI.get_bind (fun _ _ _ _ => rfl) fun _ => hI.next.bind fun _ => Op.respects_pure _

theorem together_turn (hI : Coupling fun r s => r = s ∧ I r) (s : Scan) (keep : Bool)
    (hskip : Together I (Trivia.Returned keep) (s.keeping true).trivia.skip (s.keeping keep).trivia.skip)
    {ms : List Marked} {done : List Fragment} (h : Reports keep ms done) :
    Together I (Sum.LiftRel (Reports keep) (Reports keep)) (s.markedTurn ms)
      ((s.keeping keep).turn done) := by
  refine hskip.bind fun kept comments hcomments => ?_
  have hskipped : Reports keep (kept.reverse.map (Marked.mk true) ++ ms) (comments.reverse ++ done) := by
    unfold Reports
    rw [reported_append, reported_skipped, hcomments, h]
    cases keep with
    | true => rfl
    | false => rfl
  refine .get_bind fun r _ => ?_
  split
  · exact Op.together_pure (.inr hskipped)
  · refine .bind_same (respects_matchHere hI s) fun ⟨found, moved⟩ => ?_
    have hfound : Reports keep
        (found.reverse.map (Marked.mk false) ++ (kept.reverse.map (Marked.mk true) ++ ms))
        (found.reverse ++ (comments.reverse ++ done)) := by
      unfold Reports
      rw [reported_append, reported_found, ← hskipped]
    cases moved with
    | true => exact Op.together_pure (.inl hfound)
    | false =>
      refine .bind_same (respects_takeOne hI) fun one => Op.together_pure (.inl ?_)
      unfold Reports
      rw [reported_append, reported_found, ← hfound]

theorem markedTurn_shrinks (s : Scan) (ms : List Marked) (r : Reader) (more : List Marked) (t : Reader)
    (h : s.markedTurn ms r = .ok (.inl more) t) : t.unread < r.unread := by
  have hI := (Reader.stable_settings fun _ _ => True).coupling
  have hskip : Together _ (Trivia.Returned true) (s.keeping true).trivia.skip _ :=
    (hI.skip _).together.mono fun _ _ heq => heq.symm
  have hms : Reports true ms (reported true ms) := rfl
  obtain ⟨hends, -⟩ := together_turn hI s true hskip hms r trivial
  rw [h] at hends
  generalize hturn : (s.keeping true).turn (reported true ms) r = ends at hends
  cases hends with
  | ok _ hgoesOn =>
    cases hgoesOn with
    | inl => exact turn_shrinks _ _ _ _ _ hturn

def marked (s : Scan) : Op (List Marked) := do
  return (← Op.loop s.markedTurn s.markedTurn_shrinks []).reverse

def runMarked (s : Scan) (fs : FileSystem) (file : Text) : Except Fault (List Marked) :=
  match Reader.ofFile fs file s.config with
  | .error failure => .error failure.fault
  | .ok r => s.marked.outcome r

theorem together_fragments (s : Scan) (d : Delimiters) (keep : Bool) :
    Together (fun r => r.config.Delimits d) (Reports keep) s.marked (s.keeping keep).fragments := by
  have hskip := (s.keeping true).trivia.together_skip d keep
  have hbegin : Reports keep [] [] := rfl
  refine (Op.together_loop (fun _ _ h => together_turn d.coupling s keep hskip h) hbegin).reverse ?_
  rintro ms _ rfl
  exact (reported_reverse keep ms).symm

theorem run_of_ofFile {fs : FileSystem} {file : Text} {r : Reader}
    (hopen : Reader.ofFile fs file s.config = .ok r) :
    s.run fs file = ⟨s.fragments.outcome r, (s.fragments.after r).close.notes⟩ := by
  unfold run Op.outcome Op.after
  rw [hopen]
  cases hrun : s.fragments r with
  | ok found t => simp [hrun]
  | error fault t => simp [hrun]

theorem run_keeping (hd : s.config.Delimits d) (keep : Bool) (fs : FileSystem) (file : Text) :
    ((s.keeping keep).run fs file).result = (s.runMarked fs file).map (reported keep) := by
  cases hopen : Reader.ofFile fs file s.config with
  | error failure => simp [run, runMarked, keeping, hopen, Except.map]
  | ok r =>
    have hr : r.config.Delimits d := by rwa [(Reader.keeps_ofFile hopen).config]
    have hends := (together_fragments s d keep r hr).1
    rw [run_of_ofFile (s := s.keeping keep) hopen, runMarked, hopen]
    exact hends.outcome_map

theorem notes_keeping (hd : s.config.Delimits d) (keep : Bool) (fs : FileSystem) (file : Text) :
    ((s.keeping keep).run fs file).notes = ((s.keeping true).run fs file).notes := by
  cases hopen : Reader.ofFile fs file s.config with
  | error failure => simp [run, keeping, hopen]
  | ok r =>
    have hr : r.config.Delimits d := by rwa [(Reader.keeps_ofFile hopen).config]
    have hends := (together_fragments s d keep r hr).1
    have hkept := (together_fragments s d true r hr).1
    rw [run_of_ofFile (s := s.keeping keep) hopen, run_of_ofFile (s := s.keeping true) hopen]
    show ((s.keeping keep).fragments.after r).close.notes = _
    rw [← hends.after_eq, hkept.after_eq]

end Scan

structure Reader.KeepsAlike (r : Reader) : Prop where
  skip : ∀ t : Trivia,
    EndTogether (fun _ comments => comments = []) ((t.keeping true).skip r) ((t.keeping false).skip r)
  blockComment :
    EndTogether (fun _ text => text = none) (Reader.blockComment true r) (Reader.blockComment false r)
  lineComment :
    EndTogether (fun _ text => text = none) (Reader.lineComment true r) (Reader.lineComment false r)

theorem Reader.keepsAlike {r : Reader} {d : Delimiters} (hr : r.config.Delimits d) : r.KeepsAlike where
  skip t := (t.together_skip d false r hr).1
  blockComment := (together_blockComment d false r hr).1
  lineComment := (together_lineComment d false r hr).1

/-- Whether comments are kept changes nothing about what is scanned. A scan that keeps none fails as
the scan that keeps them, or returns the same without what came from skipping; and in every state of
a session skipping and comments do the same to the reader. -/
theorem keeping_ofDelimits {s : Scan} {d : Delimiters} (hd : s.config.Delimits d) (fs : FileSystem)
    (file : Text) :
    ((s.keeping true).run fs file).result =
      (s.runMarked fs file).map (fun ms => ms.map Scan.Marked.fragment) ∧
    ((s.keeping false).run fs file).result =
      (s.runMarked fs file).map (fun ms => (ms.filter fun m => !m.skipped).map Scan.Marked.fragment) ∧
    ((s.keeping false).run fs file).notes = ((s.keeping true).run fs file).notes ∧
    ∀ start, Reader.ofFile fs file s.config = .ok start →
      ∀ ds, (Demand.after ds start).KeepsAlike := by
  refine ⟨?_, Scan.run_keeping hd false fs file, Scan.notes_keeping hd false fs file, ?_⟩
  · have hall : Scan.reported true = fun ms => ms.map Scan.Marked.fragment := by
      funext ms
      exact congrArg (List.map _) (List.filter_eq_self.2 fun _ _ => rfl)
    rw [Scan.run_keeping hd true, hall]
  · intro start hopen ds
    have hstart : start.config.Delimits d := by rwa [(Reader.keeps_ofFile hopen).config]
    exact Reader.keepsAlike (by rwa [(Demand.settings_after ds start).2])

theorem keeping_ofDelimits_comment :
    ∃ ms, Scan.runMarked { config := {}, patterns := [.written "(\\w+)".toList] }
        (({} : FileSystem).addFile ['f'] [0x61, 0x2F, 0x2A, 0x2A, 0x2F, 0x62]) ['f'] = .ok ms ∧
      ms.map Scan.Marked.fragment =
        [⟨⟨['f'], 1, 1⟩, ['a']⟩, ⟨⟨['f'], 1, 2⟩, "/**/".toList⟩, ⟨⟨['f'], 1, 6⟩, ['b']⟩] ∧
      (ms.filter fun m => !m.skipped).map Scan.Marked.fragment =
        [⟨⟨['f'], 1, 1⟩, ['a']⟩, ⟨⟨['f'], 1, 6⟩, ['b']⟩] := by
  let s : Scan := { config := {}, patterns := [.written "(\\w+)".toList] }
  have hd : s.config.Delimits .usual := Delimiters.delimits_usual
  have hdecodes : DecodesTo (({} : FileSystem).addFile ['f']
      [0x61, 0x2F, 0x2A, 0x2A, 0x2F, 0x62]) ['f'] s.config "a/**/b".toList :=
    decodesTo_of_chunk "a/**/b".toList [.openingPlain ['f'] 8192] (by cbv) (by cbv)
  have hkept : Chain ((s.keeping true).cut .usual) (Input.withFinalNewline "a/**/b".toList)
      [⟨['a'], [(0, ['a'])]⟩, ⟨"/**/".toList, [(0, "/**/".toList)]⟩, ⟨['b'], [(0, ['b'])]⟩,
        ⟨['\n'], []⟩] [] :=
    .cons rfl (.cons rfl (.cons rfl (.cons rfl (.nil []))))
  have hleft : Chain ((s.keeping false).cut .usual) (Input.withFinalNewline "a/**/b".toList)
      [⟨['a'], [(0, ['a'])]⟩, ⟨"/**/".toList, []⟩, ⟨['b'], [(0, ['b'])]⟩, ⟨['\n'], []⟩] [] :=
    .cons rfl (.cons rfl (.cons rfl (.cons rfl (.nil []))))
  have hwith : ((s.keeping true).run _ ['f']).result = .ok
      [⟨⟨['f'], 1, 1⟩, ['a']⟩, ⟨⟨['f'], 1, 2⟩, "/**/".toList⟩, ⟨⟨['f'], 1, 6⟩, ['b']⟩] :=
    Scan.run_of_chain (s := s.keeping true) hdecodes hd hkept trivial
  have hwithout : ((s.keeping false).run _ ['f']).result = .ok
      [⟨⟨['f'], 1, 1⟩, ['a']⟩, ⟨⟨['f'], 1, 6⟩, ['b']⟩] :=
    Scan.run_of_chain (s := s.keeping false) hdecodes hd hleft trivial
  obtain ⟨htrue, hfalse, -⟩ := keeping_ofDelimits hd
    (({} : FileSystem).addFile ['f'] [0x61, 0x2F, 0x2A, 0x2A, 0x2F, 0x62]) ['f']
  rw [hwith] at htrue
  rw [hwithout] at hfalse
  cases hrun : s.runMarked _ ['f'] with
  | error fault =>
    rw [hrun] at htrue
    cases htrue
  | ok ms =>
    rw [hrun] at htrue hfalse
    exact ⟨ms, rfl, (Except.ok.inj htrue).symm, (Except.ok.inj hfalse).symm⟩

end LineLexer
