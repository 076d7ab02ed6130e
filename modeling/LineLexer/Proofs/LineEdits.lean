import LineLexer.Proofs.QueueLedger
import LineLexer.Proofs.SingleSteps
import Mathlib

/-!
# What an edit changes

An edit that starts on a line changes what is left of the line and nothing else. Whoever goes on
behind it meets the edited line and then the lines that follow, as without it, and what is found on
the line is told by its place in the edited line. An edit that would reach out of the line is
refused and nothing happens.
-/

namespace LineLexer

open Input (withFinalNewline)

namespace Op

variable {α β : Type} {x : Op α} {f : α → Op β} {r s : Reader}

theorem outcome_bind_of_ok {a : α} (h : x r = .ok a s) : (x >>= f).outcome r = (f a).outcome s := by
  rw [outcome, bind_of_ok h, outcome]

theorem outcome_bind_of_error {fault : Fault} (h : x r = .error fault s) :
    (x >>= f).outcome r = .error fault := by
  rw [outcome, bind_of_error h]

end Op

namespace Reader

section Taking

variable {r s : Reader} {done : Text}

def takeBehind (done : Text) : Op Text := Op.loop takeTurn takeTurn_shrinks ⟨none, done⟩

theorem take_none : take none = takeBehind [] := rfl

theorem takeTurn_of_ended (hended : r.ended = true) :
    takeTurn ⟨none, done⟩ r = .ok (.inr done.reverse) r := by
  rw [takeTurn, Op.get_bind, hended]
  rfl

theorem takeTurn_of_goesOn (hended : r.ended = false) :
    takeTurn ⟨none, done⟩ r = (next >>= fun
      | some c => pure (.inl ⟨none, c :: done⟩)
      | none => pure (.inr done.reverse) : Op (Taken ⊕ Text)) r := by
  rw [takeTurn, Op.get_bind, hended]
  rfl

theorem outcome_takeBehind_of_next {c : Char} (hended : r.ended = false)
    (hnext : next r = .ok (some c) s) :
    (takeBehind done).outcome r = (takeBehind (c :: done)).outcome s := by
  have hturn : takeTurn ⟨none, done⟩ r = .ok (.inl ⟨none, c :: done⟩) s := by
    rw [takeTurn_of_goesOn hended, Op.bind_of_ok hnext]
    rfl
  have hloop : takeBehind done r = takeBehind (c :: done) s := Op.loop_of_inl hturn
  rw [Op.outcome, hloop, Op.outcome]

theorem outcome_takeBehind_of_error {fault : Fault} (hended : r.ended = false)
    (hnext : next r = .error fault s) : (takeBehind done).outcome r = .error fault := by
  have hturn : takeTurn ⟨none, done⟩ r = .error fault s := by
    rw [takeTurn_of_goesOn hended, Op.bind_of_error hnext]
  have hloop : takeBehind done r = .error fault s := Op.loop_of_error hturn
  rw [Op.outcome, hloop]

theorem outcome_takeBehind_of_ended (hended : r.ended = true) :
    (takeBehind done).outcome r = .ok done.reverse := by
  have hloop : takeBehind done r = .ok done.reverse r := Op.loop_of_inr (takeTurn_of_ended hended)
  rw [Op.outcome, hloop]

theorem outcome_takeBehind (done : Text) (r : Reader) :
    (takeBehind done).outcome r = (done.reverse ++ ·) <$> (take none).outcome r := by
  rw [take_none]
  induction hn : r.unread using Nat.strongRecOn generalizing done r with
  | _ n ih =>
    subst hn
    cases hended : r.ended with
    | true =>
      rw [outcome_takeBehind_of_ended hended, outcome_takeBehind_of_ended hended]
      simp
    | false =>
      cases hnext : next r with
      | error fault s =>
        rw [outcome_takeBehind_of_error hended hnext, outcome_takeBehind_of_error hended hnext]
        rfl
      | ok c? s =>
        obtain ⟨c, rfl, -⟩ := unreadText_next hended hnext
        have hlt := unread_next hended hnext
        rw [outcome_takeBehind_of_next hended hnext, outcome_takeBehind_of_next hended hnext,
          ih _ hlt _ _ rfl, ih _ hlt [c] _ rfl, Functor.map_map]
        simp

theorem outcome_take_of_ended (hended : r.ended = true) : (take none).outcome r = .ok [] :=
  outcome_takeBehind_of_ended hended

theorem outcome_take_of_next {c : Char} (hended : r.ended = false) (hnext : next r = .ok (some c) s) :
    (take none).outcome r = (c :: ·) <$> (take none).outcome s := by
  rw [take_none, outcome_takeBehind_of_next hended hnext, outcome_takeBehind]
  rfl

theorem outcome_take_of_error {fault : Fault} (hended : r.ended = false)
    (hnext : next r = .error fault s) : (take none).outcome r = .error fault :=
  outcome_takeBehind_of_error hended hnext

def following (r : Reader) : Except Fault Text :=
  (nextLine >>= fun _ => take none : Op Text).outcome r.behindLine

theorem outcome_take (hended : r.ended = false) (hrest : r.rest ≠ []) :
    (take none).outcome r = (r.rest ++ ·) <$> r.following := by
  induction hline : r.rest generalizing r with
  | nil => exact absurd hline hrest
  | cons c rest ih =>
    cases rest with
    | nil =>
      have hnext := next_of_last hended hline
      cases hload : nextLine r.behindLine with
      | ok _ s =>
        rw [Op.bind_of_ok hload] at hnext
        rw [outcome_take_of_next hended hnext, following, Op.outcome_bind_of_ok hload]
        rfl
      | error fault s =>
        rw [Op.bind_of_error hload] at hnext
        rw [outcome_take_of_error hended hnext, following, Op.outcome_bind_of_error hload]
        rfl
    | cons d rest =>
      have hleft : (r.advance 1).rest = d :: rest := by simp [advance, hline]
      have hbehind : (r.advance 1).following = r.following := by
        rw [following, following, behindLine_advance (by simp [hline])]
      rw [outcome_take_of_next hended (next_of_inner hended hline),
        ih (r := r.advance 1) hended (by simp [hleft]) hleft, hbehind, Functor.map_map]
      rfl

theorem outcome_nextLine_take (hended : r.ended = false) :
    (nextLine >>= fun _ => take none : Op Text).outcome r = match r.stream with
      | none => .error .closedReader
      | some stream => match stream.readLine with
        | (.error cause, _) =>
          .error (if cause.isReported then .fatal r.file r.lineNumber cause else .input cause)
        | (.ok [], _) => .ok []
        | (.ok (c :: line), stream) =>
          (take none).outcome ({ r with stream := some stream }.startLine (c :: line)) := by
  cases hstream : r.stream with
  | none =>
    have hfails : nextLine r = .error .closedReader r := by
      simp [nextLine, loadLine, report, hended, hstream]
    rw [Op.outcome_bind_of_error hfails]
  | some stream =>
    cases hread : stream.readLine with
    | mk line more =>
      have hload := nextLine_of_readLine hended hstream hread
      cases line with
      | error cause =>
        simp only [report] at hload
        by_cases hreported : cause.isReported = true
        · simp only [if_pos hreported] at hload
          simp only [hread, if_pos hreported, Op.outcome_bind_of_error hload]
        · simp only [if_neg hreported] at hload
          simp only [hread, if_neg hreported, Op.outcome_bind_of_error hload]
      | ok line =>
        cases line with
        | nil =>
          simp only [hread, Op.outcome_bind_of_ok hload]
          exact outcome_take_of_ended (ended_endInput _)
        | cons c line => simp only [hread, Op.outcome_bind_of_ok hload]

theorem following_eq {passed rest : Text} {cachedRemainder : Option Text} (hended : r.ended = false) :
    following { r with passed, rest, cachedRemainder } = r.following := by
  rw [following, following, outcome_nextLine_take (by exact hended), outcome_nextLine_take (by exact hended)]
  rfl

end Taking

/-- At the end of input, or on a line behind which reading never fails. -/
def Flows (r : Reader) : Prop :=
  r.ended = true ∨ r.rest ≠ [] ∧ ∃ stream, r.stream = some stream ∧ stream.Clean

section Flowing

variable {r : Reader}

theorem moving_flows : Moving Flows fun _ _ => False where
  inLine r n hended hn h := by
    have hflows := h.resolve_left (by simp [hended])
    exact .inr ⟨by simpa [advance] using hn, hflows.2⟩
  onward r hended _ h := by
    obtain ⟨-, stream, hstream, hclean⟩ := h.resolve_left (by simp [hended])
    obtain ⟨t, hload, -, -, hends, -, hgoesOn⟩ :=
      loadLine_of_clean (r := r.behindLine) hended r.rest_behindLine hstream hclean
    have hline : nextLine r.behindLine = .ok () t := by rw [nextLine, hload]
    rw [hline]
    by_cases hnil : stream.text = []
    · exact .ok () (.inl (by simp [hends, hnil]))
    · obtain ⟨-, ⟨body, hrest, -⟩, hstream'⟩ := hgoesOn hnil
      exact .ok () (.inr ⟨by simp [hrest], hstream'⟩)
  nowhere r hended hrest h := by
    obtain ⟨hne, -⟩ := h.resolve_left (by simp [hended])
    exact hne hrest

theorem outcome_take_of_flows (h : r.Flows) : (take none).outcome r = .ok r.unreadText := by
  induction hn : r.unread using Nat.strongRecOn generalizing r with
  | _ n ih =>
    subst hn
    cases hended : r.ended with
    | true => rw [outcome_take_of_ended hended, unreadText_of_ended hended]
    | false =>
      have hends := moving_flows.ends_next r h
      generalize hnext : next r = x at hends
      cases hends with
      | error fault hfalse => exact hfalse.elim
      | ok c? hflows =>
        obtain ⟨c, rfl, htext⟩ := unreadText_next hended hnext
        rw [outcome_take_of_next hended hnext, ih _ (unread_next hended hnext) hflows rfl, htext]
        rfl

end Flowing

end Reader

structure Capture.StandsOn (file : Text) (lineNumber : Nat) (line : Text) (c : Capture) : Prop where
  file : c.location.file = file
  lineNumber : c.location.line = lineNumber
  found : ∃ (k : Nat) (t : Text), c.location.column = (k + 1 : Nat) ∧ c.text = some t ∧ t <+: line.drop k

namespace Reader

section Matching

variable {r : Reader}

theorem standsOn_of_captures (hended : r.ended = false) {patterns : List Pattern.Source} {c : Capture}
    (hc : c ∈ r.captures patterns none) : c.StandsOn r.file r.lineNumber r.line := by
  unfold captures at hc
  split at hc
  · rename_i m hfirst
    obtain ⟨span, -, rfl⟩ := List.mem_map.1 hc
    obtain ⟨_, -, _, -, hmatch⟩ := firstMatch_eq_some hfirst
    have htext : m.text = r.rest.dropLast := by
      rw [(Pattern.within_of_match? hmatch).text_eq]
      exact if_neg (by simp [hended])
    have hline : r.line.drop (r.cursor + span.start) = r.rest.drop span.start := by
      rw [line, cursor, ← List.length_reverse, List.drop_length_add_append]
    refine ⟨rfl, rfl, r.cursor + span.start, span.of m.text, ?_, rfl, ?_⟩
    · simp only [groupCapture, location, column]
      omega
    · rw [hline]
      refine (span.of_prefix m.text).trans ?_
      rw [htext]
      exact (List.dropLast_prefix r.rest).drop span.start
  · cases hc

theorem queue_acceptFirst (h : r.Fresh) {patterns : List Pattern.Source} {counts : Option (List Int)}
    {save : Bool} {c : Capture} (hc : c ∈ ((acceptFirst patterns counts none save).after r).queue) :
    c ∈ r.queue ∨ c ∈ r.captures patterns none := by
  have hsettles := settles_acceptFirst h patterns counts none save
  have hqueued : c ∈ (r.queue ++ if save then r.captures patterns none else []) →
      c ∈ r.queue ∨ c ∈ r.captures patterns none := by
    intro hmem
    rcases List.mem_append.1 hmem with hqueued | hfound
    · exact .inl hqueued
    · cases save with
      | true => exact .inr hfound
      | false => cases hfound
  unfold Op.after at hc
  generalize acceptFirst patterns counts none save r = x at hsettles hc
  cases hsettles with
  | ok a hqueue => exact hqueued (hqueue ▸ hc)
  | error fault hleaves =>
    by_cases hlexical : fault.IsLexical
    · rw [hleaves.lexical hlexical] at hc
      cases hc
    · exact hqueued (hleaves.other hlexical ▸ hc)

end Matching

structure Holds (lineNumber : Nat) (line : Text) (r : Reader) : Prop where
  behind : lineNumber ≤ r.lineNumber
  reads : r.ended = false → r.lineNumber = lineNumber → r.line = line

section Holding

variable {lineNumber : Nat} {line : Text} {r : Reader}

theorem carried_holds (lineNumber : Nat) (line : Text) : Carried (Holds lineNumber line) where
  inLine r n _ _ h := ⟨h.behind, by rw [line_advance]; exact h.reads⟩
  onward r hended _ h := by
    have hends := readsOn_nextLine (r := r.behindLine) hended
    have hle : lineNumber ≤ r.behindLine.lineNumber := h.behind
    unfold Op.after
    generalize nextLine r.behindLine = x at hends
    cases hends with
    | line stream hopen hline hbody =>
      refine ⟨Nat.le_succ_of_le hle, fun _ hsame => ?_⟩
      have hnext : r.behindLine.lineNumber + 1 = lineNumber := hsame
      omega
    | stop stream hopen =>
      rw [endInput_eq (r := { r.behindLine with stream := some stream }) rfl]
      exact ⟨Nat.le_trans hle (Nat.le_max_left _ _), fun hfalse => Bool.noConfusion hfalse⟩
    | failed fault hopen hfailures =>
      refine ⟨hle, fun hended hsame => ?_⟩
      have hline := h.reads hended hsame
      rwa [← line_behindLine] at hline

theorem stable_holds (lineNumber : Nat) (line : Text) : Stable (Holds lineNumber line) where
  next := (carried_holds lineNumber line).preserves_next
  accept := (carried_holds lineNumber line).preserves_accept
  remembering _ h := ⟨h.behind, h.reads⟩
  matching _ _ h := ⟨h.behind, h.reads⟩
  queueing _ _ h := ⟨h.behind, h.reads⟩

theorem Holds.after {ds : List Demand} (h : r.Holds lineNumber line)
    (hds : ∀ span text, Demand.act (.replace span text) ∉ ds) :
    (Demand.after ds r).Holds lineNumber line := by
  induction ds generalizing r with
  | nil => exact h
  | cons d ds ih =>
    refine ih ?_ fun span text hmem => hds span text (List.mem_cons_of_mem d hmem)
    refine (stable_holds lineNumber line).demand_apart (fun s stream notes hs => ⟨hs.behind, hs.reads⟩) ?_ h
    rintro span text rfl
    exact absurd List.mem_cons_self (hds span text)

end Holding

/-- What is left of the line reads so now, and everything else is as before. -/
structure Edited (r : Reader) (rest : Text) (s : Reader) : Prop where
  state : s = { r with rest, cachedRemainder := none }
  unedited : (take none).outcome r = (r.rest ++ ·) <$> r.following
  iterating : (take none).outcome s = (rest ++ ·) <$> r.following
  reading : ∀ stream, r.stream = some stream → stream.Clean →
    (take none).outcome s = .ok (rest ++ withFinalNewline stream.text)
  matching : ∀ ds, (∀ span text, Demand.act (.replace span text) ∉ ds) →
    (Demand.after ds s).ended = false → (Demand.after ds s).lineNumber = r.lineNumber →
    ∀ patterns counts save,
      ∀ c ∈ ((acceptFirst patterns counts none save).after (Demand.after ds s)).queue,
        c ∈ (Demand.after ds s).queue ∨
          c.StandsOn r.file r.lineNumber (r.passed.reverse ++ rest)

section Edits

variable {r : Reader} {text : Text}

theorem edited_of_rest {rest : Text} (hended : r.ended = false) (hrest : r.rest ≠ [])
    (hleft : rest ≠ []) : Edited r rest { r with rest, cachedRemainder := none } := by
  let s : Reader := { r with rest, cachedRemainder := none }
  refine ⟨rfl, outcome_take hended hrest, ?_, fun stream hstream hclean => ?_, ?_⟩
  · have hbehind : s.following = r.following := following_eq hended
    rw [outcome_take (r := s) hended hleft, hbehind]
  · rw [outcome_take_of_flows (r := s) (.inr ⟨hleft, stream, hstream, hclean⟩), unreadText,
      if_neg (by simp [s, hended])]
    simp [s, hstream]
  · intro ds hds hgoesOn hsame patterns counts save c hc
    have hholds : (Demand.after ds s).Holds r.lineNumber s.line :=
      Holds.after ⟨Nat.le_refl _, fun _ _ => rfl⟩ hds
    have hfresh : (Demand.after ds s).Fresh := Demand.fresh_after ds (fresh_of_none rfl)
    rcases queue_acceptFirst hfresh hc with hqueued | hfound
    · exact .inl hqueued
    · have hstands := standsOn_of_captures hgoesOn hfound
      rw [(Demand.settings_after ds s).1, hsame, hholds.reads hgoesOn hsame] at hstands
      exact .inr hstands

theorem edit_of_inside (hline : r.line.EndsOnce)
    (htext : '\n' ∉ text) {i j : Nat} (hi : i < r.rest.length) (hj : j ≤ r.rest.length) :
    r.edit i j text = { r with
      rest := r.rest.take i ++ text ++ if j < r.rest.length then r.rest.drop j else ['\n']
      cachedRemainder := none } := by
  have hrest : r.rest ≠ [] := List.ne_nil_of_length_pos (by omega)
  obtain ⟨body, hbody, hnone⟩ := hline
  obtain ⟨tail, hsplit, htail, hpassed⟩ := exists_tail hbody hnone hrest
  have hlength : r.rest.length = tail.length + 1 := by simp [hsplit]
  have hfront : r.rest.take i = tail.take i := by
    rw [hsplit, List.take_append_of_le_length (by omega)]
  have hback : (if j < r.rest.length then r.rest.drop j else ['\n']) = tail.drop j ++ ['\n'] := by
    split
    · rw [hsplit, List.drop_append_of_le_length (by omega)]
    · rw [List.drop_eq_nil_of_le (by omega), List.nil_append]
  rw [edit_of_lt hsplit htail hpassed htext hi hj, hfront, hback, List.append_assoc (_ ++ text)]

/-- An edit that starts on a line that ends once changes what is left of that line and nothing
else; one that reaches out of it is refused. -/
theorem replace_inLine (hended : r.ended = false) (hline : r.line.EndsOnce) (i j : Int)
    (htext : '\n' ∉ text) :
    (¬(0 ≤ i ∧ i ≤ j ∧ j ≤ r.rest.length) →
      replace [i, j] text r = .error (.breach (.outsideLine [i, j] r.lineNumber)) r) ∧
    (0 ≤ i ∧ i ≤ j ∧ j ≤ r.rest.length → i < r.rest.length → ∃ s,
      replace [i, j] text r = .ok () s ∧
      Edited r (r.rest.take i.toNat ++ text ++
        if j < r.rest.length then r.rest.drop j.toNat else ['\n']) s) := by
  refine ⟨replace_of_outside, fun hinside hi => ⟨_, replace_of_inside hinside, ?_⟩⟩
  have hrest : r.rest ≠ [] := List.ne_nil_of_length_pos (by omega)
  have hbefore : j < r.rest.length ↔ j.toNat < r.rest.length := by omega
  rw [edit_of_inside hline htext (by omega) (by omega)]
  simp only [hbefore]
  refine edited_of_rest hended hrest (List.append_ne_nil_of_right_ne_nil _ ?_)
  split
  · exact List.ne_nil_of_length_pos (by rw [List.length_drop]; omega)
  · exact List.cons_ne_nil _ _

theorem replace_inLine_overNewline :
    ∃ start r s, ofFile (({} : FileSystem).addFile ['f'] [0x61, 0x62, 0x0A, 0x63]) ['f'] {} = .ok start ∧
      Demand.after [.act .next] start = r ∧ r.ended = false ∧ r.line.EndsOnce ∧ '\n' ∉ ['x', 'y', 'z'] ∧
      replace [0, 3] ['x', 'y', 'z'] r = .error (.breach (.outsideLine [0, 3] 1)) r ∧
      replace [0, 2] ['x', 'y', 'z'] r = .ok () s ∧ s.line = ['a', 'x', 'y', 'z', '\n'] ∧
      (take none).outcome s = .ok ['x', 'y', 'z', '\n', 'c', '\n'] ∧
      ((acceptFirst [.written "y(z)".toList] none none true).after
        (Demand.after [.act (.accept 1)] s)).queue = [⟨⟨['f'], 1, 4⟩, some ['z']⟩] ∧
      Capture.StandsOn ['f'] 1 ['a', 'x', 'y', 'z', '\n'] ⟨⟨['f'], 1, 4⟩, some ['z']⟩ := by
  obtain ⟨start, r, s, hopen, hafter, hended, hpassed, hrest, hsettings, hmade, hline, hgoesOn, hsame,
      hnothing, hqueue, stream, hstream, hmore, hbroken, hlast, hresults⟩ : ∃ start r s,
      ofFile (({} : FileSystem).addFile ['f'] [0x61, 0x62, 0x0A, 0x63]) ['f'] {} = .ok start ∧
      Demand.after [.act .next] start = r ∧ r.ended = false ∧ r.passed = ['a'] ∧ r.rest = ['b', '\n'] ∧
      (r.file = ['f'] ∧ r.lineNumber = 1) ∧ replace [0, 2] ['x', 'y', 'z'] r = .ok () s ∧
      s.line = ['a', 'x', 'y', 'z', '\n'] ∧
      (Demand.after [.act (.accept 1)] s).ended = false ∧
      (Demand.after [.act (.accept 1)] s).lineNumber = 1 ∧
      (Demand.after [.act (.accept 1)] s).queue = [] ∧
      ((acceptFirst [.written "y(z)".toList] none none true).after
        (Demand.after [.act (.accept 1)] s)).queue = [⟨⟨['f'], 1, 4⟩, some ['z']⟩] ∧
      ∃ stream, r.stream = some stream ∧ stream.text = ['c'] ∧ stream.broken = none ∧
        stream.feed.last = none ∧ stream.feed.results = [] :=
    ⟨_, _, _, by cbv, rfl, by cbv, by cbv, by cbv, ⟨by cbv, by cbv⟩, by cbv, by cbv, by cbv, by cbv, by cbv,
      by cbv, _, by cbv, by cbv, by cbv, by cbv, by cbv⟩
  obtain ⟨hfile, hnumber⟩ := hsettings
  have honce : r.line.EndsOnce := ⟨['a', 'b'], by rw [line, hpassed, hrest]; rfl, by decide⟩
  have htext : '\n' ∉ ['x', 'y', 'z'] := by decide
  have hrefused := (replace_inLine hended honce 0 3 htext).1 (by rw [hrest]; decide)
  obtain ⟨s', hmade', hedited⟩ :=
    (replace_inLine hended honce 0 2 htext).2 (by rw [hrest]; decide) (by rw [hrest]; decide)
  obtain rfl : s = s' := by
    rw [hmade] at hmade'
    cases hmade'
    rfl
  have hback : r.rest.take (0 : Int).toNat ++ ['x', 'y', 'z'] ++
      (if (2 : Int) < r.rest.length then r.rest.drop (2 : Int).toNat else ['\n']) =
      ['x', 'y', 'z', '\n'] := by rw [hrest]; rfl
  rw [hback] at hedited
  have hreads := hedited.reading stream hstream ⟨hbroken, hlast, by simp [hresults]⟩
  rw [hmore] at hreads
  have hmatches := hedited.matching [.act (.accept 1)] (by simp) hgoesOn (hsame.trans hnumber.symm)
    [.written "y(z)".toList] none true
  rw [hnumber] at hrefused
  rw [hqueue, hnothing, hfile, hnumber, hpassed] at hmatches
  exact ⟨start, r, s, hopen, hafter, hended, honce, htext, hrefused, hmade, hline, hreads,
    hqueue, (hmatches _ List.mem_cons_self).resolve_left List.not_mem_nil⟩

end Edits

end Reader
end LineLexer
