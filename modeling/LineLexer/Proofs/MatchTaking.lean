import LineLexer.Proofs.LineEnds
import Mathlib

/-!
# A match is taken as a whole, or not at all

The first pattern to match what is left of a line decides. Its groups are queued before anybody
counts them, and counting goes by all that took part, also by those that are not queued because
they start where the one queued last starts. A wrong count empties the queue behind the match.
-/

namespace LineLexer

namespace Pattern

def Source.Misses (p : Source) (line : Text) : Prop :=
  ∃ pattern, p.resolve = .ok pattern ∧ pattern.match? line = none

def FirstToMatch (patterns : List Source) (line : Text) (m : Match) : Prop :=
  ∃ before p more pattern, patterns = before ++ p :: more ∧ (∀ q ∈ before, q.Misses line) ∧
    p.resolve = .ok pattern ∧ pattern.match? line = some m

theorem FirstToMatch.within {patterns : List Source} {line : Text} {m : Match}
    (h : FirstToMatch patterns line m) : m.Within line := by
  obtain ⟨_, _, _, _, -, -, -, hm⟩ := h
  exact within_of_match? hm

theorem FirstToMatch.firstMatch_eq {patterns : List Source} {line : Text} {m : Match}
    (h : FirstToMatch patterns line m) : firstMatch line patterns = .ok (some m) := by
  obtain ⟨before, p, more, pattern, rfl, hbefore, hp, hm⟩ := h
  induction before with
  | nil => simp [firstMatch, hp, hm]
  | cons q before ih =>
    obtain ⟨⟨found, hq, hnone⟩, hbefore⟩ := List.forall_mem_cons.1 hbefore
    simpa [firstMatch, hq, hnone] using ih hbefore

theorem firstMatch_of_misses {patterns : List Source} {line : Text}
    (h : ∀ p ∈ patterns, p.Misses line) : firstMatch line patterns = .ok none := by
  induction patterns with
  | nil => rfl
  | cons p ps ih =>
    obtain ⟨⟨pattern, hp, hnone⟩, hps⟩ := List.forall_mem_cons.1 h
    simpa [firstMatch, hp, hnone] using ih hps

theorem misses_or_firstToMatch {patterns : List Source}
    (hvalid : ∀ p ∈ patterns, ∃ pattern, p.resolve = .ok pattern) (line : Text) :
    (∀ p ∈ patterns, p.Misses line) ∨ ∃ m, FirstToMatch patterns line m := by
  induction patterns with
  | nil => exact .inl (by simp)
  | cons p ps ih =>
    obtain ⟨pattern, hp⟩ := hvalid p List.mem_cons_self
    cases hmatch : pattern.match? line with
    | some m => exact .inr ⟨m, [], p, ps, pattern, rfl, by simp, hp, hmatch⟩
    | none =>
      have hmisses : p.Misses line := ⟨pattern, hp, hmatch⟩
      rcases ih fun q hq => hvalid q (List.mem_cons_of_mem p hq) with hnone | ⟨m, hfirst⟩
      · exact .inl (List.forall_mem_cons.2 ⟨hmisses, hnone⟩)
      · obtain ⟨before, q, more, found, rfl, hbefore, hq, hm⟩ := hfirst
        exact .inr ⟨m, p :: before, q, more, found, rfl, List.forall_mem_cons.2 ⟨hmisses, hbefore⟩,
          hq, hm⟩

end Pattern

namespace Match

def participants (m : Match) : List Pattern.Span := m.groups.filterMap id

/-- The groups that took part, without those that start where the one kept last starts. -/
def kept (m : Match) : List Pattern.Span := m.participants.destutter fun a b => a.start ≠ b.start

end Match

namespace Reader

open Pattern (FirstToMatch Span)

theorem cons_keptSpans (last : Span) (groups : List (Option Span)) :
    last :: keptSpans (some last.start) groups =
      (groups.filterMap id).destutter' (fun a b => a.start ≠ b.start) last := by
  induction groups generalizing last with
  | nil => rfl
  | cons group groups ih =>
    cases group with
    | none => exact ih last
    | some span =>
      have hfirst : (some span :: groups).filterMap id = span :: groups.filterMap id := rfl
      rw [hfirst, List.destutter'_cons]
      by_cases hsame : last.start = span.start
      · rw [if_neg (not_not.2 hsame), ← ih last, keptSpans, if_pos (congrArg some hsame)]
      · rw [if_pos hsame, ← ih span, keptSpans, if_neg (by simpa using hsame)]

theorem keptSpans_eq_kept (m : Match) : keptSpans none m.groups = m.kept := by
  unfold Match.kept Match.participants
  induction m.groups with
  | nil => rfl
  | cons group groups ih =>
    cases group with
    | none => exact ih
    | some span => exact cons_keptSpans span groups

theorem participating_eq (m : Match) : participating m = m.participants.length := by
  simp [participating, Match.participants, List.length_filterMap_eq_countP, List.countP_eq_length_filter]

structure Passed (n : Nat) (r s : Reader) : Prop where
  line : s.line = r.line
  lineNumber : s.lineNumber = r.lineNumber
  cursor : s.cursor = r.cursor + n
  ended : s.ended = r.ended
  stream : s.stream = r.stream
  notes : s.notes = r.notes

theorem Passed.of_aside {n : Nat} {r s : Reader} {cachedRemainder : Option Text}
    {lastMatch : Option Match} (h : Passed n { r with cachedRemainder, lastMatch } s) : Passed n r s :=
  ⟨h.line, h.lineNumber, h.cursor, h.ended, h.stream, h.notes⟩

theorem Passed.aside {n : Nat} {r s : Reader} {queue : List Capture} (h : Passed n r s) :
    Passed n r { s with queue } := ⟨h.line, h.lineNumber, h.cursor, h.ended, h.stream, h.notes⟩

def groupCapture (l : Location) (text : Text) (span : Span) : Capture :=
  ⟨⟨l.file, l.line, l.column + span.start⟩, some (span.of text)⟩

/-- How the first match is taken, with its groups saved or not. -/
inductive TakesFirst (file : Text) (r : Reader) (patterns : List Pattern.Source)
    (counts : Option (List Int)) : Prop
  | missed (hmiss : ∀ p ∈ patterns, p.Misses r.restOfLine) (s : Reader)
      (hruns : ∀ save, acceptFirst patterns counts none save r = .ok false s)
      (hplace : Passed 0 r s) (hqueue : s.queue = r.queue)
  | taken (m : Match) (hfirst : FirstToMatch patterns r.restOfLine m)
      (hcount : ∀ ns, counts = some ns → (m.participants.length : Int) ∈ ns) (s : Reader)
      (hruns : ∀ save, acceptFirst patterns counts none save r =
        .ok true { s with queue := r.queue ++
          if save then m.kept.map (groupCapture ⟨file, r.lineNumber, r.column⟩ r.restOfLine) else [] })
      (hplace : Passed m.wholeText.length r s)
  | miscounted (m : Match) (hfirst : FirstToMatch patterns r.restOfLine m) (ns : List Int)
      (hcounts : counts = some ns) (hcount : (m.participants.length : Int) ∉ ns) (s : Reader)
      (hruns : ∀ save, acceptFirst patterns counts none save r =
        .error (.lexical .groupCount ⟨file, r.lineNumber, r.column + m.wholeText.length⟩
          (some m.wholeText)) s)
      (hplace : Passed m.wholeText.length r s) (hqueue : s.queue = [])

section Taking

variable {r : Reader} {m : Match}

theorem passed_advance {n : Nat} (h : n ≤ r.rest.length) : Passed n r (r.advance n) :=
  ⟨r.line_advance n, rfl, by simp [cursor, advance, Nat.min_eq_left h, Nat.add_comm], rfl, rfl, rfl⟩

theorem acceptMatch_of_some (hm : r.lastMatch = some m) : acceptMatch r = accept m.whole.stop r := by
  simp only [acceptMatch, hm]

theorem acceptMatch_passed (hm : r.lastMatch = some m) (hwithin : m.Within r.restOfLine) :
    ∃ s, (∀ queue, acceptMatch { r with queue } = .ok () { s with queue }) ∧
      Passed m.wholeText.length r s ∧ s.file = r.file := by
  rw [hwithin.length_wholeText]
  by_cases hstays : r.ended = true ∨ (m.whole.stop : Int) ≤ 0
  · have hzero : m.whole.stop = 0 := by
      rcases hstays with hended | hle
      · have hstop := hwithin.stop_le
        rw [restOfLine, if_pos hended] at hstop
        exact Nat.le_zero.1 hstop
      · omega
    refine ⟨r, fun queue => ?_, ⟨rfl, rfl, by rw [hzero, Nat.add_zero], rfl, rfl, rfl⟩, rfl⟩
    rw [acceptMatch_of_some (r := { r with queue }) hm]
    exact accept_of_stop hstays
  · simp only [not_or, Bool.not_eq_true, Int.not_le] at hstays
    have hlt : m.whole.stop < r.rest.length := by
      have hstop := hwithin.stop_le
      rw [restOfLine, if_neg (by simp [hstays.1]), List.length_dropLast] at hstop
      omega
    refine ⟨r.advance m.whole.stop, fun queue => ?_, passed_advance hlt.le, rfl⟩
    rw [acceptMatch_of_some (r := { r with queue }) hm]
    exact accept_of_lt (r := { r with queue }) hstays.1 hstays.2 hlt

theorem queueFragments_eq (m : Match) (save : Bool) (r : Reader) :
    queueFragments m save r = .ok () { r with
      queue := r.queue ++ if save then m.kept.map (groupCapture r.location m.text) else [] } := by
  cases save with
  | false => simp [queueFragments]
  | true =>
    simp only [queueFragments, fragmentsOf, keptSpans_eq_kept, List.map_map]
    rfl

theorem checkCount_of_mem {counts : Option (List Int)}
    (hcount : ∀ ns, counts = some ns → (m.participants.length : Int) ∈ ns) :
    checkCount m counts = pure () := by
  cases counts with
  | none => rfl
  | some ns => simp [checkCount, participating_eq, hcount ns rfl]

theorem checkCount_of_notMem {ns : List Int} (hcount : (m.participants.length : Int) ∉ ns) :
    checkCount m (some ns) = failLexically .groupCount := by
  simp [checkCount, participating_eq, hcount]

theorem takeMatch_eq (hm : r.lastMatch = some m) (counts : Option (List Int)) (save : Bool) :
    takeMatch counts save r = (checkCount m counts >>= fun _ => acceptMatch : Op Unit) { r with
      queue := r.queue ++ if save then m.kept.map (groupCapture r.location m.text) else [] } := by
  rw [takeMatch_of_some hm, Op.bind_of_ok (queueFragments_eq m save r)]

theorem takeMatch_of_mem (hm : r.lastMatch = some m) (hwithin : m.Within r.restOfLine)
    {counts : Option (List Int)}
    (hcount : ∀ ns, counts = some ns → (m.participants.length : Int) ∈ ns) :
    ∃ s, Passed m.wholeText.length r s ∧ ∀ save, takeMatch counts save r = .ok () { s with
      queue := r.queue ++ if save then m.kept.map (groupCapture r.location m.text) else [] } := by
  obtain ⟨s, hpast, hplace, -⟩ := acceptMatch_passed hm hwithin
  refine ⟨s, hplace, fun save => ?_⟩
  rw [takeMatch_eq hm, checkCount_of_mem hcount]
  exact hpast _

theorem takeMatch_of_notMem (hm : r.lastMatch = some m) (hwithin : m.Within r.restOfLine)
    {ns : List Int} (hcount : (m.participants.length : Int) ∉ ns) :
    ∃ s, Passed m.wholeText.length r s ∧ s.queue = [] ∧ ∀ save, takeMatch (some ns) save r =
      .error (.lexical .groupCount ⟨r.file, r.lineNumber, r.column + m.wholeText.length⟩
        (some m.wholeText)) s := by
  obtain ⟨s, hpast, hplace, hfile⟩ := acceptMatch_passed hm hwithin
  have hcolumn : (s.column : Int) = r.column + m.wholeText.length := by
    rw [column, column, hplace.cursor]
    omega
  have hlocation : s.location = ⟨r.file, r.lineNumber, r.column + m.wholeText.length⟩ := by
    rw [location, hfile, hplace.lineNumber, hcolumn]
  refine ⟨{ s with queue := [] }, hplace.aside, rfl, fun save => ?_⟩
  have hfail := failLexically_of_accept (α := Unit)
    (hpast (r.queue ++ if save then m.kept.map (groupCapture r.location m.text) else [])) .groupCount
  rw [takeMatch_eq hm, checkCount_of_notMem hcount, Op.bind_of_error hfail, ← hlocation]
  simp only [hm]
  rfl

end Taking

theorem takesFirst {r : Reader} (h : r.Fresh) {patterns : List Pattern.Source}
    (hvalid : ∀ p ∈ patterns, ∃ pattern, p.resolve = .ok pattern) (counts : Option (List Int)) :
    TakesFirst r.file r patterns counts := by
  rcases Pattern.misses_or_firstToMatch hvalid r.restOfLine with hmiss | ⟨m, hfirst⟩
  · obtain ⟨cachedRemainder, lastMatch, -, -, hrun⟩ := matchFirst_of_fresh h patterns none
    rw [Option.getD_none, Pattern.firstMatch_of_misses hmiss] at hrun
    refine .missed hmiss { r with cachedRemainder, lastMatch } (fun save => ?_)
      ⟨rfl, rfl, rfl, rfl, rfl, rfl⟩ rfl
    rw [acceptFirst, Op.bind_of_ok hrun]
    rfl
  · obtain ⟨cachedRemainder, lastMatch, -, hlast, hrun⟩ := matchFirst_of_fresh h patterns none
    rw [Option.getD_none, hfirst.firstMatch_eq] at hlast hrun
    obtain rfl := hlast m rfl
    let found : Reader := { r with cachedRemainder, lastMatch := some m }
    have htake (save : Bool) : acceptFirst patterns counts none save r =
        (takeMatch counts save >>= fun _ => pure true : Op Bool) found :=
      Op.bind_of_ok hrun
    by_cases hcount : ∀ ns, counts = some ns → (m.participants.length : Int) ∈ ns
    · obtain ⟨s, hplace, hruns⟩ := takeMatch_of_mem (r := found) rfl hfirst.within hcount
      refine .taken m hfirst hcount s (fun save => ?_) hplace.of_aside
      rw [htake, Op.bind_of_ok (hruns save), hfirst.within.text_eq]
      rfl
    · push Not at hcount
      obtain ⟨ns, rfl, hcount⟩ := hcount
      obtain ⟨s, hplace, hqueue, hruns⟩ := takeMatch_of_notMem (r := found) rfl hfirst.within hcount
      refine .miscounted m hfirst ns rfl hcount s (fun save => ?_) hplace.of_aside hqueue
      rw [htake, Op.bind_of_error (hruns save)]
      rfl

/-- In whatever state a reader is, the first pattern to match what is left of the line is taken
with all its groups, or refused for their number with everything queued lost, or nothing happens. -/
theorem takesFirst_ofFile {fs : FileSystem} {file : Text} {config : Config} {start : Reader}
    (h : ofFile fs file config = .ok start) (ds : List Demand) {patterns : List Pattern.Source}
    (hvalid : ∀ p ∈ patterns, ∃ pattern, p.resolve = .ok pattern) (counts : Option (List Int)) :
    remainder.outcome (Demand.after ds start) = .ok (Demand.after ds start).restOfLine ∧
      TakesFirst file (Demand.after ds start) patterns counts := by
  have hfresh := Demand.fresh_after ds (fresh_of_none (cachedRemainder_ofFile h))
  have hfile : (Demand.after ds start).file = file :=
    (Demand.settings_after ds start).1.trans (keeps_ofFile h).file
  refine ⟨by rw [Op.outcome, remainder_of_fresh hfresh], ?_⟩
  have htakes := takesFirst hfresh hvalid counts
  rwa [hfile] at htakes

theorem takesFirst_ofFile_nested :
    ∃ start r, ofFile (({} : FileSystem).addFile ['f'] [0x78, 0x61, 0x62, 0x0A]) ['f'] {} = .ok start ∧
      Demand.after [.act (.acceptFirst [.written "(x)".toList] none none true)] start = r ∧
      r.queue = [⟨⟨['f'], 1, 1⟩, some ['x']⟩] ∧
      TakesFirst ['f'] r [.written "y".toList, .written "((a))(b)(c)?".toList] (some [2]) ∧
      (acceptFirst [.written "y".toList, .written "((a))(b)(c)?".toList] (some [2]) none true).outcome r =
        .error (.lexical .groupCount ⟨['f'], 1, 4⟩ (some ['a', 'b'])) := by
  obtain ⟨start, r, hopen, hafter, hqueue, hcount⟩ : ∃ start r,
      ofFile (({} : FileSystem).addFile ['f'] [0x78, 0x61, 0x62, 0x0A]) ['f'] {} = .ok start ∧
      Demand.after [.act (.acceptFirst [.written "(x)".toList] none none true)] start = r ∧
      r.queue = [⟨⟨['f'], 1, 1⟩, some ['x']⟩] ∧
      (acceptFirst [.written "y".toList, .written "((a))(b)(c)?".toList] (some [2]) none true).outcome r =
        .error (.lexical .groupCount ⟨['f'], 1, 4⟩ (some ['a', 'b'])) :=
    ⟨_, _, by cbv, rfl, by cbv, by cbv⟩
  have hvalid : ∀ p ∈ [Pattern.Source.written "y".toList, .written "((a))(b)(c)?".toList],
      ∃ pattern, p.resolve = .ok pattern :=
    List.forall_mem_cons.2 ⟨⟨_, rfl⟩, List.forall_mem_singleton.2 ⟨_, rfl⟩⟩
  obtain ⟨-, htakes⟩ := takesFirst_ofFile hopen
    [.act (.acceptFirst [.written "(x)".toList] none none true)] hvalid (some [2])
  rw [hafter] at htakes
  exact ⟨start, r, hopen, hafter, hqueue, htakes, hcount⟩

end Reader
end LineLexer
