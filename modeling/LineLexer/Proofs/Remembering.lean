import LineLexer.Proofs.Moves
import Mathlib

/-!
# The remembered remainder is the present one

A reader remembers the rest of its line until it moves or the line is edited, so
what is remembered is never out of date. A session cannot tell whether a reader
remembers anything, nor whether somebody has looked at it before.
-/

namespace LineLexer

open Op (SameEnd Respects)

namespace Reader

def remembering (cachedRemainder : Option Text) (r : Reader) : Reader := { r with cachedRemainder }

def Fresh (r : Reader) : Prop := ∀ t, r.cachedRemainder = some t → t = r.restOfLine

theorem fresh_of_none {r : Reader} (h : r.cachedRemainder = none) : r.Fresh := by
  intro t ht
  rw [h] at ht
  cases ht

/-- Readers that may remember or not, though nothing wrong. -/
structure Alike (r s : Reader) : Prop where
  left : r.Fresh
  right : s.Fresh
  eq : ∃ cachedRemainder, s = r.remembering cachedRemainder

theorem Fresh.alike {r : Reader} (h : r.Fresh) : Alike r r := ⟨h, h, r.cachedRemainder, rfl⟩

theorem Fresh.alike_none {r : Reader} (h : r.Fresh) : Alike r (r.remembering none) :=
  ⟨h, fresh_of_none rfl, none, rfl⟩

theorem Fresh.alike_some {r : Reader} (h : r.Fresh) :
    Alike r (r.remembering (some r.restOfLine)) :=
  ⟨h, fun _ ht => (Option.some.inj ht).symm, _, rfl⟩

theorem Alike.symm {r s : Reader} (h : Alike r s) : Alike s r := by
  obtain ⟨hr, hs, c, rfl⟩ := h
  exact ⟨hs, hr, r.cachedRemainder, rfl⟩

theorem Alike.trans {r s t : Reader} (h : Alike r s) (h' : Alike s t) : Alike r t := by
  obtain ⟨hr, -, c, rfl⟩ := h
  obtain ⟨-, ht, d, rfl⟩ := h'
  exact ⟨hr, ht, d, rfl⟩

theorem Alike.restOfLine {r s : Reader} (h : Alike r s) : s.restOfLine = r.restOfLine := by
  obtain ⟨-, -, c, rfl⟩ := h
  rfl

theorem substring_line (r : Reader) : r.substring r.line.length = .ok r.restOfLine := by
  have hlength : r.restOfLine.length ≤ r.line.length := by
    rw [Reader.restOfLine, line, List.length_append]
    split
    · exact Nat.zero_le _
    · exact Nat.le_add_left_of_le (by simp)
  rw [substring_eq, List.take_of_length_le hlength]

theorem remainder_of_fresh {r : Reader} (h : r.Fresh) :
    remainder r = .ok r.restOfLine (r.remembering (some r.restOfLine)) := by
  cases hcache : r.cachedRemainder with
  | none => simp [remainder, hcache, cacheRemainder, remembering]
  | some t =>
    have hsame : r.remembering (some r.restOfLine) = r := by rw [remembering, ← h t hcache, ← hcache]
    rw [hsame]
    simp [remainder, hcache, h t hcache]

section Moves

variable {r : Reader}

theorem carried_none : Carried fun r => r.cachedRemainder = none where
  inLine _ _ _ _ _ := rfl
  onward := by
    intro r hended _ _
    have hends := readsOn_nextLine (r := r.behindLine) hended
    unfold Op.after
    generalize nextLine r.behindLine = x at hends
    cases hends with
    | line => rfl
    | stop => exact cachedRemainder_endInput _
    | failed => rfl

theorem next_remembering (hended : r.ended = false) (hrest : r.rest ≠ []) (c : Option Text) :
    next (r.remembering c) = next r := by
  match hr : r.rest with
  | [] => exact absurd hr hrest
  | [d] => rw [next_of_last hended hr, next_of_last (r := r.remembering c) hended hr]; rfl
  | d :: e :: rest =>
    rw [next_of_inner hended hr, next_of_inner (r := r.remembering c) hended hr]; rfl

theorem accept_remembering {n : Int} (hended : r.ended = false) (hpos : 0 < n) (hline : r.line ≠ [])
    (c : Option Text) : accept n (r.remembering c) = accept n r := by
  by_cases hlt : n.toNat < r.rest.length
  · rw [accept_of_lt hended hpos hlt, accept_of_lt (r := r.remembering c) hended hpos hlt]; rfl
  · have hge : r.rest.length ≤ n.toNat := Nat.le_of_not_lt hlt
    rw [accept_of_beyond hended hpos hge hline,
      accept_of_beyond (r := r.remembering c) hended hpos hge hline]
    rfl

theorem SameEnd.refl_of_fresh {α : Type} {x : Op α} (h : (x.after r).Fresh) :
    SameEnd Alike (x r) (x r) := by
  unfold Op.after at h
  cases hrun : x r with
  | ok a s =>
    rw [hrun] at h
    exact .ok a h.alike
  | error fault s =>
    rw [hrun] at h
    exact .error fault h.alike

theorem Alike.sameEnd_of_forgetful {α : Type} {x : Op α} {s : Reader} (h : Alike r s)
    (hsame : ∀ c, x (r.remembering c) = x r)
    (hforgets : Op.Preserves (fun r => r.cachedRemainder = none) x) : SameEnd Alike (x r) (x s) := by
  obtain ⟨-, -, c, rfl⟩ := h
  rw [hsame c, ← hsame none]
  exact SameEnd.refl_of_fresh (fresh_of_none (hforgets _ rfl))

theorem Alike.sameEnd_of_ok {α : Type} {x : Op α} {a : α} {s : Reader} (h : Alike r s)
    (hstays : ∀ c, x (r.remembering c) = .ok a (r.remembering c)) : SameEnd Alike (x r) (x s) := by
  have hleft : x r = .ok a r := hstays r.cachedRemainder
  obtain ⟨-, -, c, rfl⟩ := id h
  rw [hleft, hstays c]
  exact .ok a h

theorem Alike.sameEnd_of_error {α : Type} {x : Op α} {s : Reader} (h : Alike r s) (fault : Fault)
    (hstays : ∀ c, x (r.remembering c) = .error fault (r.remembering c)) :
    SameEnd Alike (x r) (x s) := by
  have hleft : x r = .error fault r := hstays r.cachedRemainder
  obtain ⟨-, -, c, rfl⟩ := id h
  rw [hleft, hstays c]
  exact .error fault h

theorem respects_alike_next : Respects Alike next := by
  intro r s h
  cases hended : r.ended with
  | true => exact h.sameEnd_of_ok fun _ => next_of_ended hended
  | false =>
    by_cases hrest : r.rest = []
    · exact h.sameEnd_of_error (.breach (.beyondLine 0 r.lineNumber)) fun _ => next_of_nil hended hrest
    · exact h.sameEnd_of_forgetful (next_remembering hended hrest) carried_none.preserves_next

theorem respects_alike_accept (n : Int) : Respects Alike (accept n) := by
  intro r s h
  by_cases hstop : r.ended = true ∨ n ≤ 0
  · exact h.sameEnd_of_ok fun _ => accept_of_stop hstop
  · obtain ⟨hended, hpos⟩ : r.ended = false ∧ 0 < n := by simpa using hstop
    by_cases hline : r.line = []
    · exact h.sameEnd_of_error (.breach (.beyondLine 0 r.lineNumber)) fun _ =>
        accept_of_noLine hended hpos hline
    · exact h.sameEnd_of_forgetful (accept_remembering hended hpos hline)
        (carried_none.preserves_accept n)

end Moves

theorem respects_alike_cacheRemainder : Respects Alike cacheRemainder := by
  intro r s h
  obtain ⟨hr, -, c, rfl⟩ := h
  exact .ok r.restOfLine (hr.alike_some.right.alike)

theorem coupling_alike : Coupling Alike where
  eq_with := by
    rintro r s ⟨-, -, c, rfl⟩
    exact ⟨c, r.stream, r.notes, rfl⟩
  next := respects_alike_next
  accept := respects_alike_accept
  cacheRemainder := respects_alike_cacheRemainder
  remainder := by
    intro r s h
    rw [remainder_of_fresh h.left, remainder_of_fresh h.right]
    exact respects_alike_cacheRemainder r s h
  matching := by
    rintro r s m ⟨hr, hs, c, rfl⟩
    exact ⟨hr, hs, c, rfl⟩
  queueing := by
    rintro r s queue ⟨hr, hs, c, rfl⟩
    exact ⟨hr, hs, c, rfl⟩

theorem respects_alike_replace (span : List Int) (text : Text) :
    Respects Alike (replace span text) := by
  intro r s h
  match span with
  | [] | [_] => exact h.sameEnd_of_error .shortSpan fun _ => rfl
  | i :: j :: more =>
    by_cases hinside : 0 ≤ i ∧ i ≤ j ∧ j ≤ r.rest.length
    · obtain ⟨-, -, c, rfl⟩ := h
      rw [replace_of_inside hinside, replace_of_inside (r := r.remembering c) hinside]
      exact .ok () (fresh_of_none (by rw [edit_eq])).alike
    · exact h.sameEnd_of_error (.breach (.outsideLine (i :: j :: more) r.lineNumber)) fun _ =>
        replace_of_outside hinside

theorem close_remembering (r : Reader) (c : Option Text) :
    (r.remembering c).close = r.close.remembering c := by
  cases hopen : r.stream with
  | none => rw [close_of_none hopen, close_of_none (r := r.remembering c) hopen]
  | some s =>
    have hsome : r.stream.isSome = true := by rw [hopen]; rfl
    rw [close_of_isSome hsome, close_of_isSome (r := r.remembering c) hsome]
    rfl

theorem Fresh.close {r : Reader} (h : r.Fresh) : r.close.Fresh := by
  unfold Reader.close
  split
  · exact h
  · exact h

theorem Alike.close {r s : Reader} (h : Alike r s) : Alike r.close s.close := by
  obtain ⟨hr, hs, c, rfl⟩ := h
  exact ⟨hr.close, hs.close, c, close_remembering r c⟩

theorem Alike.breakStream {r s : Reader} (h : Alike r s) (message : Text) :
    Alike (r.breakStream message) (s.breakStream message) := by
  obtain ⟨hr, hs, c, rfl⟩ := h
  exact ⟨hr, hs, c, rfl⟩

end Reader

open Reader (Alike Fresh)

theorem Operation.respects_alike (o : Operation) : Respects Alike o.run := by
  cases o with
  | replace span text => exact (Reader.respects_alike_replace span text).map _
  | close => exact (Op.respects_modify fun r s h => h.close).map _
  | breakStream message => exact (Op.respects_modify fun r s h => h.breakStream message).map _
  | _ => exact Reader.coupling_alike.run trivial

namespace Reader

section Searching

def AlikeBefore (t : Text) (r s : Reader) : Prop := Alike r s ∧ r.restOfLine = t

variable {t : Text} {r s : Reader}

theorem respects_matchPattern_given (p : Pattern.Source) :
    Respects (AlikeBefore t) (matchPattern p (some t)) := by
  refine (Op.respects_pure t).bind fun searched => (Op.respects_ofExcept _).bind fun pattern => ?_
  refine (Op.respects_modify fun r s h => ?_).bind fun _ => Op.respects_pure _
  exact ⟨coupling_alike.matching r s _ h.1, h.2⟩

theorem matchPattern_none (h : r.Fresh) (p : Pattern.Source) :
    matchPattern p none r =
      matchPattern p (some r.restOfLine) (r.remembering (some r.restOfLine)) := by
  have hnone : subject none r = .ok r.restOfLine (r.remembering (some r.restOfLine)) :=
    remainder_of_fresh h
  unfold matchPattern
  rw [Op.bind_of_ok hnone]
  rfl

theorem AlikeBefore.matchPattern (h : AlikeBefore t r s) (p : Pattern.Source) :
    SameEnd (AlikeBefore t) (matchPattern p none r) (matchPattern p (some t) s) := by
  obtain ⟨h, rfl⟩ := h
  rw [matchPattern_none h.left]
  exact respects_matchPattern_given p _ _ ⟨h.left.alike_some.symm.trans h, rfl⟩

theorem AlikeBefore.matchFirst (h : AlikeBefore t r s) (patterns : List Pattern.Source) :
    SameEnd (AlikeBefore t) (matchFirst none patterns r) (matchFirst (some t) patterns s) := by
  induction patterns generalizing r s with
  | nil => exact .ok false h
  | cons p ps ih =>
    refine (h.matchPattern p).bind fun found r s h => ?_
    cases found with
    | true => exact .ok true h
    | false => exact ih h

theorem Alike.acceptFirst (h : Alike r s) (patterns : List Pattern.Source)
    (counts : Option (List Int)) (save : Bool) :
    SameEnd Alike (acceptFirst patterns counts none save r)
      (acceptFirst patterns counts (some r.restOfLine) save s) := by
  have hfirst := (AlikeBefore.matchFirst ⟨h, rfl⟩ patterns).mono fun _ _ h => h.1
  refine hfirst.bind fun found r s h => ?_
  cases found with
  | true => exact (coupling_alike.takeMatch counts save).bind (fun _ => Op.respects_pure true) r s h
  | false => exact .ok false h

theorem Alike.matchPattern (h : Alike r s) (p : Pattern.Source) :
    SameEnd Alike (matchPattern p none r) (matchPattern p (some r.restOfLine) s) :=
  (AlikeBefore.matchPattern ⟨h, rfl⟩ p).mono fun _ _ h => h.1

structure Searched (t : Text) (r : Reader) : Prop where
  remainder : Reader.remainder.outcome r = .ok t
  matchPattern : ∀ p, SameEnd Alike (Reader.matchPattern p none r) (Reader.matchPattern p (some t) r)
  acceptFirst : ∀ patterns counts save, SameEnd Alike (Reader.acceptFirst patterns counts none save r)
    (Reader.acceptFirst patterns counts (some t) save r)

theorem Fresh.searched (h : r.Fresh) : Searched r.restOfLine r where
  remainder := by rw [Op.outcome, remainder_of_fresh h]
  matchPattern := h.alike.matchPattern
  acceptFirst := h.alike.acceptFirst

end Searching

theorem cachedRemainder_loadLine {r s : Reader} (h : loadLine r = .ok () s)
    (hr : r.cachedRemainder = none) : s.cachedRemainder = none := by
  unfold loadLine at h
  split at h
  · cases h
    exact hr
  · split at h
    · cases h
    · split at h
      · cases h
      · cases h
        exact cachedRemainder_endInput _
      · cases h
        rfl

theorem cachedRemainder_ofFile {fs : FileSystem} {file : Text} {config : Config} {start : Reader}
    (h : ofFile fs file config = .ok start) : start.cachedRemainder = none := by
  unfold ofFile at h
  split at h
  · cases h
  · split at h
    · rename_i hload
      cases h
      exact cachedRemainder_loadLine hload rfl
    · cases h

end Reader

namespace Demand

def Observes : Demand → Prop
  | ask _ | act .remainder | act .cacheRemainder => True
  | _ => False

/-- The same demand of a reader that finds out what is left of the line. -/
def afresh (r : Reader) : Demand → Demand
  | act .remainder => act .cacheRemainder
  | act (.matchPattern p none) => act (.matchPattern p (some r.restOfLine))
  | act (.acceptFirst patterns counts none save) =>
    act (.acceptFirst patterns counts (some r.restOfLine) save)
  | d => d

def repliesAfresh : List Demand → Reader → List (Except Fault Reply)
  | [], _ => []
  | d :: ds, r =>
    let forgetful := r.remembering none
    let fresh := (d.afresh forgetful).run
    fresh.outcome forgetful :: repliesAfresh ds (fresh.after forgetful)

def repliesAmid : List (List Demand × Demand) → Reader → List (Except Fault Reply)
  | [], _ => []
  | (others, d) :: rest, r =>
    let s := after others r
    d.run.outcome s :: repliesAmid rest (d.run.after s)

theorem respects_alike (d : Demand) : Respects Alike d.run := by
  cases d with
  | act o => exact o.respects_alike
  | ask q => exact Reader.coupling_alike.observe fun r c stream notes => by cases q <;> rfl

section Runs

variable {r s : Reader}

theorem fresh_after (ds : List Demand) (h : r.Fresh) : (after ds r).Fresh := by
  induction ds generalizing r with
  | nil => exact h
  | cons d ds ih => exact ih (d.respects_alike r r h.alike).after.left

theorem sameEnd_afresh (d : Demand) (h : Alike r s) :
    SameEnd Alike (d.run r) ((d.afresh s).run s) := by
  cases d with
  | ask q => exact (ask q).respects_alike r s h
  | act o =>
    cases o with
    | remainder =>
      have hcaches := Reader.respects_alike_cacheRemainder _ _ h
      refine SameEnd.map ?_ Reply.text
      rw [Reader.remainder_of_fresh h.left]
      exact hcaches
    | matchPattern p text =>
      cases text with
      | some t => exact (act (.matchPattern p (some t))).respects_alike r s h
      | none =>
        have hsame := h.matchPattern p
        rw [← h.restOfLine] at hsame
        exact hsame.map Reply.truth
    | acceptFirst patterns counts text save =>
      cases text with
      | some t => exact (act (.acceptFirst patterns counts (some t) save)).respects_alike r s h
      | none =>
        have hsame := h.acceptFirst patterns counts save
        rw [← h.restOfLine] at hsame
        exact hsame.map Reply.truth
    | _ => exact (act _).respects_alike r s h

/-- That a reader remembers cannot be told from what it replies. -/
theorem replies_eq_repliesAfresh (ds : List Demand) (h : Alike r s) :
    replies ds r = repliesAfresh ds s := by
  induction ds generalizing r s with
  | nil => rfl
  | cons d ds ih =>
    have hsame := d.sameEnd_afresh (h.trans h.right.alike_none)
    rw [replies, repliesAfresh, hsame.outcome_eq, ih hsame.after]

theorem alike_after_of_observes {d : Demand} (hd : d.Observes) (h : r.Fresh) :
    Alike r (d.run.after r) := by
  cases d with
  | ask q =>
    rw [after_ask]
    exact h.alike
  | act o =>
    cases o with
    | remainder =>
      have hafter : Reader.remainder.after r = r.remembering (some r.restOfLine) :=
        Op.after_of_ok (Reader.remainder_of_fresh h)
      show Alike r ((Reply.text <$> Reader.remainder).after r)
      rw [Op.after_map, hafter]
      exact h.alike_some
    | cacheRemainder => exact h.alike_some
    | _ => exact hd.elim

theorem alike_after_observers {ds : List Demand} (hds : ∀ d ∈ ds, d.Observes) (h : Alike r s) :
    Alike r (after ds s) := by
  induction ds generalizing s with
  | nil => exact h
  | cons d ds ih =>
    rw [List.forall_mem_cons] at hds
    exact ih hds.2 (h.trans (alike_after_of_observes hds.1 h.right))

/-- Those who only look, however often and whenever, change no reply to anybody else. -/
theorem repliesAmid_observers {rest : List (List Demand × Demand)}
    (hrest : ∀ x ∈ rest, ∀ d ∈ x.1, d.Observes) (h : Alike r s) :
    repliesAmid rest s = replies (rest.map Prod.snd) r := by
  induction rest generalizing r s with
  | nil => rfl
  | cons x rest ih =>
    rw [List.forall_mem_cons] at hrest
    have hsame := x.2.respects_alike _ _ (alike_after_observers hrest.1 h)
    rw [repliesAmid, List.map_cons, replies, hsame.outcome_eq, ih hrest.2 hsame.after]

end Runs

/-- In every state of a session the remainder and what is searched are what stands from the cursor
to the end of the line, so neither remembering nor looking makes a difference. -/
theorem replies_ofFile {fs : FileSystem} {file : Text} {config : Config} {start : Reader}
    (h : Reader.ofFile fs file config = .ok start) :
    (∀ ds, ∃ t, (after ds start).substring (after ds start).line.length = .ok t ∧
      (after ds start).Searched t) ∧
    (∀ ds, replies ds start = repliesAfresh ds start) ∧
    ∀ rest : List (List Demand × Demand), (∀ x ∈ rest, ∀ d ∈ x.1, d.Observes) →
      repliesAmid rest start = replies (rest.map Prod.snd) start := by
  have hstart := Reader.fresh_of_none (Reader.cachedRemainder_ofFile h)
  refine ⟨fun ds => ?_, fun ds => ?_, fun rest hrest => ?_⟩
  · exact ⟨_, Reader.substring_line _, (fresh_after ds hstart).searched⟩
  · exact replies_eq_repliesAfresh ds hstart.alike
  · exact repliesAmid_observers hrest hstart.alike

theorem replies_ofFile_edited :
    ∃ start, Reader.ofFile (({} : FileSystem).addFile ['f'] [0x61, 0x62, 0x0A, 0x63]) ['f'] {} =
        .ok start ∧
      repliesAmid [([ask .isEndOfLine, act .remainder], act (.replace [0, 1] "xy".toList)),
          ([act .cacheRemainder, act .remainder], act .next), ([], act .remainder)] start =
        [.ok .done, .ok (.char 'x'), .ok (.text "yb".toList)] := by
  have hdecodes : DecodesTo (({} : FileSystem).addFile ['f'] [0x61, 0x62, 0x0A, 0x63]) ['f'] {}
      "ab\nc".toList :=
    decodesTo_of_chunk "ab\nc".toList [.openingPlain ['f'] 8192] (by cbv) (by cbv)
  obtain ⟨start, hopen, hplace, -⟩ := Reader.ofFile_of_decodesTo hdecodes
  obtain ⟨-, hrest, -, -⟩ := hplace.exists_line (List.cons_ne_nil _ _)
  have hended := hplace.ended_eq_false (List.cons_ne_nil _ _)
  have hcache := Reader.cachedRemainder_ofFile hopen
  refine ⟨start, hopen, ?_⟩
  rw [(replies_ofFile hopen).2.2 _ (by simp [Observes])]
  cases start
  obtain rfl := hrest
  obtain rfl := hended
  obtain rfl := hcache
  rfl

end Demand
end LineLexer
