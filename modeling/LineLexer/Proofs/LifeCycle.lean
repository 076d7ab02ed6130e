import LineLexer.Proofs.Moves
import Mathlib

/-!
# The life of a reader

Whatever is asked of a reader, it moves within its line, passes the newline and
tries to read the next line, or touches neither line nor cursor. The attempts at
reading tell where the reader stands: which line it is on, whether the cursor is
still behind the newline, and whether the file is closed.
-/

namespace LineLexer

namespace Reader

inductive Attempt
  | loaded
  | refused
  | ended
  deriving DecidableEq

def Attempt.of : EStateM.Result Fault Reader Unit → Attempt
  | .ok () r => if r.ended then .ended else .loaded
  | .error .. => .refused

/-- From one state to another by small steps, with the attempts at reading a line. -/
inductive Course (r : Reader) : List Attempt → Reader → Prop
  | start : Course r [] r
  | aside {hs : List Attempt} {s : Reader} (cachedRemainder : Option Text)
      (lastMatch : Option Match) (queue : List Capture) (h : Course r hs s) :
      Course r hs { s with cachedRemainder, lastMatch, queue }
  | inLine {hs : List Attempt} {s : Reader} {n : Nat} (hended : s.ended = false)
      (hn : n < s.rest.length) (h : Course r hs s) : Course r hs (s.advance n)
  | onward {hs : List Attempt} {s : Reader} (hended : s.ended = false) (hline : s.line ≠ [])
      (h : Course r hs s) :
      Course r (hs ++ [.of (nextLine s.behindLine)]) (nextLine.after s.behindLine)

theorem carried_course (r : Reader) : Carried fun s => ∃ hs, Course r hs s where
  inLine := by
    rintro s n hended hn ⟨hs, h⟩
    exact ⟨hs, .inLine hended hn h⟩
  onward := by
    rintro s hended hline ⟨hs, h⟩
    exact ⟨_, .onward hended hline h⟩

theorem stable_course (r : Reader) : Stable fun s => ∃ hs, Course r hs s where
  next := (carried_course r).preserves_next
  accept := (carried_course r).preserves_accept
  remembering := by
    rintro s ⟨hs, h⟩
    exact ⟨hs, h.aside _ s.lastMatch s.queue⟩
  matching := by
    rintro s lastMatch ⟨hs, h⟩
    exact ⟨hs, h.aside s.cachedRemainder lastMatch s.queue⟩
  queueing := by
    rintro s queue ⟨hs, h⟩
    exact ⟨hs, h.aside s.cachedRemainder s.lastMatch queue⟩

structure Follows (r s : Reader) : Prop where
  lineNumber : r.lineNumber ≤ s.lineNumber
  ended : r.ended = true → s.ended = true
  cursor : r.ended = true → s.cursor = r.cursor

theorem Follows.refl (r : Reader) : Follows r r := ⟨Nat.le_refl _, id, fun _ => rfl⟩

theorem Follows.trans {r s t : Reader} (h : Follows r s) (h' : Follows s t) : Follows r t :=
  ⟨Nat.le_trans h.lineNumber h'.lineNumber, fun hr => h'.ended (h.ended hr),
    fun hr => (h'.cursor (h.ended hr)).trans (h.cursor hr)⟩

theorem Follows.of_goesOn {r s : Reader} (hended : r.ended = false)
    (h : r.lineNumber ≤ s.lineNumber) : Follows r s := by
  refine ⟨h, fun hr => ?_, fun hr => ?_⟩
  · rw [hended] at hr
    cases hr
  · rw [hended] at hr
    cases hr

theorem lineNumber_le_nextLine {r : Reader} (hended : r.ended = false) :
    r.lineNumber ≤ (nextLine.after r).lineNumber := by
  have hends := readsOn_nextLine hended
  unfold Op.after
  generalize nextLine r = x at hends
  cases hends with
  | line => exact Nat.le_succ _
  | stop stream hopen =>
    simp only [endInput_eq (r := { r with stream := some stream }) rfl]
    exact Nat.le_max_left _ _
  | failed => exact Nat.le_refl _

theorem Course.follows {hs : List Attempt} {r s : Reader} (h : Course r hs s) : Follows r s := by
  induction h with
  | start => exact .refl r
  | aside _ _ _ _ ih => exact ih.trans ⟨Nat.le_refl _, id, fun _ => rfl⟩
  | inLine hended _ _ ih => exact ih.trans (.of_goesOn hended (Nat.le_refl _))
  | @onward _ s hended _ _ ih =>
    exact ih.trans (.of_goesOn hended (lineNumber_le_nextLine (r := s.behindLine) hended))

theorem follows_close (r : Reader) : Follows r r.close := by
  cases hstream : r.stream with
  | none =>
    rw [close_of_none hstream]
    exact .refl r
  | some s =>
    rw [close_of_isSome (by rw [hstream]; rfl)]
    exact ⟨Nat.le_refl _, id, fun _ => rfl⟩

theorem follows_replace (span : List Int) (text : Text) (r : Reader) :
    Follows r ((replace span text).after r) := by
  rcases after_replace span text r with hstays | ⟨i, j, -, -, -, hedit⟩
  · rw [hstays]
    exact .refl r
  · rw [hedit, edit_eq]
    exact ⟨Nat.le_refl _, id, fun _ => rfl⟩

end Reader

open Reader (Attempt Course Follows)

theorem Operation.follows (o : Operation) (r : Reader) : Follows r (o.after r) := by
  by_cases ho : o.LeavesText
  · obtain ⟨hs, hcourse⟩ := (Reader.stable_course r).after ho ⟨[], .start⟩
    exact hcourse.follows
  · cases o with
    | replace span text => exact Reader.follows_replace span text r
    | close => exact Reader.follows_close r
    | breakStream message => exact ⟨Nat.le_refl _, id, fun _ => rfl⟩
    | _ => exact absurd trivial ho

theorem Demand.follows (d : Demand) (r : Reader) : Follows r (d.run.after r) := by
  cases d with
  | ask q =>
    rw [after_ask]
    exact .refl r
  | act o =>
    rw [after_act]
    exact o.follows r

def Note.isClosing : Note → Bool
  | .closed _ => true
  | _ => false

namespace Reader

structure Standing (closed : Prop) (hs : List Attempt) (r : Reader) : Prop where
  line : r.line = [] ∧ r.ended = true ∨ ∃ body, r.line = body ++ ['\n'] ∧ '\n' ∉ body
  rest : r.line ≠ [] → (r.rest = [] ↔ r.ended = false ∧ hs.getLast? = some .refused)
  lineNumber : r.lineNumber = max 1 (hs.count .loaded)
  loaded : r.ended = false → 1 ≤ hs.count .loaded
  stream : r.stream = none ↔ r.ended = true ∨ closed
  closings : r.notes.countP Note.isClosing = if r.stream.isSome then 0 else 1

namespace Standing

variable {closed : Prop} {hs : List Attempt} {r : Reader}

theorem isOpen (h : Standing closed hs r) (hopen : r.stream.isSome = true) :
    r.ended = false ∧ ¬closed ∧ r.notes.countP Note.isClosing = 0 := by
  have hstream : ¬(r.ended = true ∨ closed) := by
    rw [← h.stream]
    rintro hnone
    rw [hnone] at hopen
    cases hopen
  rw [not_or, Bool.not_eq_true] at hstream
  exact ⟨hstream.1, hstream.2, by rw [h.closings, if_pos hopen]⟩

theorem aside (h : Standing closed hs r) (cachedRemainder : Option Text) (lastMatch : Option Match)
    (queue : List Capture) : Standing closed hs { r with cachedRemainder, lastMatch, queue } :=
  ⟨h.line, h.rest, h.lineNumber, h.loaded, h.stream, h.closings⟩

theorem inLine (h : Standing closed hs r) {n : Nat} (hn : n < r.rest.length) : Standing closed hs (r.advance n) where
  line := by
    rw [line_advance]
    exact h.line
  rest := by
    rw [line_advance]
    intro hline
    have hbefore : r.rest ≠ [] := List.ne_nil_of_length_pos (by omega)
    have hafter : (r.advance n).rest ≠ [] := by
      apply List.ne_nil_of_length_pos
      rw [advance, List.length_drop]
      omega
    have hiff := h.rest hline
    simp only [hbefore, hafter, false_iff] at hiff ⊢
    exact hiff
  lineNumber := h.lineNumber
  loaded := h.loaded
  stream := h.stream
  closings := h.closings

theorem startLine (h : Standing closed hs r) {line body : Text} (stream : Input.LineStream)
    (hopen : r.stream.isSome = true) (hline : Input.withFinalNewline line = body ++ ['\n'])
    (hbody : '\n' ∉ body) :
    Standing closed (hs ++ [.loaded]) ({ r.behindLine with stream := some stream }.startLine line) where
  line := .inr ⟨body, hline, hbody⟩
  rest _ := by
    have hrest : Input.withFinalNewline line ≠ [] := by simp [hline]
    simp [Reader.startLine, hrest]
  lineNumber := by
    have hloaded := h.loaded (h.isOpen hopen).1
    have hnumber := h.lineNumber
    show r.lineNumber + 1 = _
    rw [List.count_append, List.count_singleton_self]
    omega
  loaded _ := by
    rw [List.count_append, List.count_singleton_self]
    omega
  stream := by
    obtain ⟨hended, hclosed, -⟩ := h.isOpen hopen
    show some stream = none ↔ r.ended = true ∨ closed
    simp [hended, hclosed]
  closings := (h.isOpen hopen).2.2

theorem endInput (h : Standing closed hs r) (stream : Input.LineStream)
    (hopen : r.stream.isSome = true) (hline : r.line ≠ []) :
    Standing closed (hs ++ [.ended]) { r.behindLine with stream := some stream }.endInput := by
  obtain ⟨hended, -, hcount⟩ := h.isOpen hopen
  rw [endInput_eq (r := { r.behindLine with stream := some stream }) rfl]
  generalize hlast : Reader.toLast { r.behindLine with stream := some stream } = last
  have hsame : last.line = r.line := by rw [← hlast, line_toLast, ← line_behindLine r]; rfl
  have hbehind : r.behindLine.line ≠ [] := by rwa [line_behindLine]
  obtain ⟨c, hrest, -⟩ := toLast_behindLine (r := { r.behindLine with stream := some stream }) hbehind
  rw [hlast] at hrest
  refine ⟨.inr ?_, fun _ => by simp [hrest], ?_, fun hfalse => Bool.noConfusion hfalse, by simp, ?_⟩
  · obtain ⟨hnil, -⟩ | hbody := h.line
    · exact absurd hnil hline
    · show ∃ body, last.line = body ++ ['\n'] ∧ '\n' ∉ body
      rwa [hsame]
  · have hloaded := h.loaded hended
    have hnumber := h.lineNumber
    have hskip : (hs ++ [Attempt.ended]).count .loaded = hs.count .loaded := by simp
    show max r.lineNumber 1 = _
    rw [hskip]
    omega
  · show (r.notes ++ _).countP Note.isClosing = 1
    rw [List.countP_append, hcount]
    rfl

theorem refused (h : Standing closed hs r) (hended : r.ended = false)
    {stream : Option Input.LineStream} {failures : List Note}
    (hopen : stream.isSome = r.stream.isSome) (hfailures : ∀ n ∈ failures, n.level = .error) :
    Standing closed (hs ++ [.refused])
      { r.behindLine with stream, notes := r.behindLine.notes ++ failures } where
  line := by
    have hline := h.line
    rw [← line_behindLine] at hline
    exact hline
  rest _ := by
    simp [rest_behindLine, show r.behindLine.ended = false from hended]
  lineNumber := by
    have hskip : (hs ++ [Attempt.refused]).count .loaded = hs.count .loaded := by simp
    rw [hskip]
    exact h.lineNumber
  loaded _ := by
    rw [List.count_append]
    exact Nat.le_add_right_of_le (h.loaded hended)
  stream := by
    have hnone : stream = none ↔ r.stream = none := by
      rw [← Option.isNone_iff_eq_none, ← Option.isNone_iff_eq_none, ← Option.not_isSome,
        ← Option.not_isSome, hopen]
    rw [hnone]
    exact h.stream
  closings := by
    have hquiet : failures.countP Note.isClosing = 0 := by
      rw [List.countP_eq_zero]
      intro n hn hclosing
      have hlevel := hfailures n hn
      cases n <;> simp_all [Note.isClosing, Note.level]
    rw [List.countP_append, hquiet, hopen]
    exact h.closings

theorem onward (h : Standing closed hs r) (hended : r.ended = false) (hline : r.line ≠ []) :
    Standing closed (hs ++ [.of (nextLine r.behindLine)]) (nextLine.after r.behindLine) := by
  have hends := readsOn_nextLine (r := r.behindLine) hended
  unfold Op.after
  generalize nextLine r.behindLine = x at hends
  cases hends with
  | @line line body stream hopen hnewline hbody =>
    have hgoesOn : Attempt.of (.ok () (Reader.startLine { r.behindLine with stream := some stream } line)) =
        .loaded := by
      have hended' : r.behindLine.ended = false := hended
      simp [Attempt.of, Reader.startLine, hended']
    rw [hgoesOn]
    exact h.startLine stream hopen hnewline hbody
  | stop stream hopen =>
    have hends : Attempt.of (.ok () (Reader.endInput { r.behindLine with stream := some stream })) =
        .ended := by
      simp [Attempt.of]
    rw [hends]
    exact h.endInput stream hopen hline
  | failed fault hopen hfailures => exact h.refused hended hopen hfailures

theorem course (h : Standing closed hs r) {more : List Attempt} {s : Reader}
    (hcourse : Course r more s) : Standing closed (hs ++ more) s := by
  induction hcourse with
  | start => rwa [List.append_nil]
  | aside cachedRemainder lastMatch queue _ ih => exact ih.aside cachedRemainder lastMatch queue
  | inLine _ hn _ ih => exact ih.inLine hn
  | onward hended hline _ ih =>
    rw [← List.append_assoc]
    exact ih.onward hended hline

end Standing

section Edits

variable {r : Reader}

theorem endsLine_of_notMem (h : '\n' ∉ r.line) : r.endsLine = false := by
  have hlast : r.line.getLast? ≠ some '\n' := fun hlast => h (List.mem_of_getLast? hlast)
  rw [endsLine_eq]
  simpa using hlast

theorem endsLine_of_concat {body : Text} (h : r.line = body ++ ['\n']) : r.endsLine = true := by
  simp [endsLine_eq, h]

theorem edit_of_lt {tail text : Text} {i j : Nat} (hrest : r.rest = tail ++ ['\n'])
    (htail : '\n' ∉ tail) (hpassed : '\n' ∉ r.passed) (htext : '\n' ∉ text)
    (hi : i < r.rest.length) (hj : j ≤ r.rest.length) :
    r.edit i j text =
      { r with rest := tail.take i ++ text ++ tail.drop j ++ ['\n'], cachedRemainder := none } := by
  have hlength : r.rest.length = tail.length + 1 := by simp [hrest]
  have htake : r.rest.take i = tail.take i := by
    rw [hrest, List.take_append_of_le_length (by omega)]
  rw [edit_eq, htake]
  by_cases hlast : j = r.rest.length
  · have hdrop : r.rest.drop j = [] := by rw [hlast, List.drop_length]
    have hgone : tail.drop j = [] := List.drop_eq_nil_of_le (by omega)
    have hopen : '\n' ∉ ({ r with rest := tail.take i ++ text, cachedRemainder := none } : Reader).line := by
      simp only [line, List.mem_append, List.mem_reverse, not_or]
      exact ⟨hpassed, fun hmem => htail (List.mem_of_mem_take hmem), htext⟩
    rw [hdrop, hgone, List.append_nil]
    simp [endsLine_of_notMem hopen]
  · have hback : tail.take i ++ text ++ r.rest.drop j =
        tail.take i ++ text ++ tail.drop j ++ ['\n'] := by
      rw [hrest, List.drop_append_of_le_length (by omega), ← List.append_assoc]
    have hends := endsLine_of_concat
      (r := { r with rest := tail.take i ++ text ++ r.rest.drop j, cachedRemainder := none })
      (by rw [line, hback, ← List.append_assoc])
    simp only [hends, if_true]
    rw [hback]

theorem exists_edit {tail text : Text} {i j : Nat} (hrest : r.rest = tail ++ ['\n'])
    (htail : '\n' ∉ tail) (hpassed : '\n' ∉ r.passed) (htext : '\n' ∉ text)
    (hi : i < r.rest.length) (hj : j ≤ r.rest.length) :
    ∃ tail', '\n' ∉ tail' ∧
      r.edit i j text = { r with rest := tail' ++ ['\n'], cachedRemainder := none } := by
  refine ⟨_, ?_, edit_of_lt hrest htail hpassed htext hi hj⟩
  simp only [List.mem_append, not_or]
  exact ⟨⟨fun hmem => htail (List.mem_of_mem_take hmem), htext⟩, fun hmem => htail (List.mem_of_mem_drop hmem)⟩

theorem exists_tail {body : Text} (hline : r.line = body ++ ['\n']) (hbody : '\n' ∉ body)
    (hrest : r.rest ≠ []) : ∃ tail, r.rest = tail ++ ['\n'] ∧ '\n' ∉ tail ∧ '\n' ∉ r.passed := by
  obtain ⟨tail, c, hsplit⟩ : ∃ tail c, r.rest = tail ++ [c] :=
    ⟨_, _, (List.dropLast_concat_getLast hrest).symm⟩
  rw [line, hsplit, ← List.append_assoc] at hline
  obtain ⟨rfl, hc⟩ := List.append_inj' hline rfl
  simp only [List.mem_append, List.mem_reverse, not_or] at hbody
  exact ⟨tail, by rw [hsplit, hc], hbody.2, hbody.1⟩

end Edits

namespace Standing

variable {closed : Prop} {hs : List Attempt} {r : Reader}

theorem edit (h : Standing closed hs r) {text : Text} {i j : Nat} (htext : '\n' ∉ text)
    (hi : i < r.rest.length) (hj : j ≤ r.rest.length) : Standing closed hs (r.edit i j text) := by
  have hrest : r.rest ≠ [] := List.ne_nil_of_length_pos (by omega)
  have hne : r.line ≠ [] := by simp [Reader.line, hrest]
  obtain ⟨hnil, -⟩ | ⟨body, hline, hbody⟩ := h.line
  · exact absurd hnil hne
  obtain ⟨tail, hsplit, htail, hpassed⟩ := exists_tail hline hbody hrest
  obtain ⟨tail', htail', hedit⟩ := exists_edit hsplit htail hpassed htext hi hj
  rw [hedit]
  refine ⟨.inr ⟨r.passed.reverse ++ tail', by simp [Reader.line], ?_⟩, fun _ => ?_, h.lineNumber, h.loaded,
    h.stream, h.closings⟩
  · simp only [List.mem_append, List.mem_reverse, not_or]
    exact ⟨hpassed, htail'⟩
  · have hiff := h.rest hne
    simp only [hrest, false_iff] at hiff
    simpa using hiff

theorem close (h : Standing closed hs r) : Standing True hs r.close := by
  cases hstream : r.stream with
  | none =>
    rw [close_of_none hstream]
    exact ⟨h.line, h.rest, h.lineNumber, h.loaded, by simp [hstream], h.closings⟩
  | some s =>
    have hopen : r.stream.isSome = true := by rw [hstream]; rfl
    rw [close_of_isSome hopen]
    refine ⟨h.line, h.rest, h.lineNumber, h.loaded, by simp [note], ?_⟩
    show (r.notes ++ _).countP Note.isClosing = 1
    rw [List.countP_append, (h.isOpen hopen).2.2]
    rfl

theorem breakStream (h : Standing closed hs r) (message : Text) :
    Standing closed hs (r.breakStream message) := by
  refine ⟨h.line, h.rest, h.lineNumber, h.loaded, ?_, ?_⟩
  · have hstream := h.stream
    show r.stream.map _ = none ↔ _
    rw [Option.map_eq_none_iff]
    exact hstream
  · have hclosings := h.closings
    show r.notes.countP Note.isClosing = if (r.stream.map _).isSome then 0 else 1
    rw [Option.isSome_map]
    exact hclosings

end Standing

namespace Opening

variable {α β : Type}

def Quiet (x : Opening α) : Prop := ∀ notes a notes', x notes = .ok a notes' →
  notes'.countP Note.isClosing = notes.countP Note.isClosing

theorem quiet_pure (a : α) : Quiet (pure a) := by
  rintro notes _ _ ⟨⟩
  rfl

theorem quiet_throw (fault : Fault) : Quiet (throw fault : Opening α) := by
  rintro notes a notes' ⟨⟩

theorem quiet_throw_bind (fault : Fault) (f : α → Opening β) :
    Quiet (throw fault >>= f : Opening β) := by
  rintro notes b notes' ⟨⟩

theorem quiet_note {n : Note} (h : n.isClosing = false) : Quiet (note n) := by
  rintro notes _ _ ⟨⟩
  simp [h]

theorem quiet_ofInput (x : Except Input.Fault α) : Quiet (ofInput x) := by
  cases x with
  | ok a => exact quiet_pure a
  | error cause => exact quiet_throw _

theorem Quiet.bind {x : Opening α} {f : α → Opening β} (hx : Quiet x) (hf : ∀ a, Quiet (f a)) :
    Quiet (x >>= f) := by
  intro notes b notes' h
  replace h : EStateM.bind x f notes = .ok b notes' := h
  unfold EStateM.bind at h
  split at h
  · exact (hf _ _ _ _ h).trans (hx _ _ _ ‹_›)
  · cases h

theorem quiet_isCompressed (name : Text) (suffixes : List Json) :
    Quiet (isCompressed name suffixes) := by
  induction suffixes with
  | nil => exact quiet_pure false
  | cons v rest ih =>
    cases v with
    | text s =>
      unfold isCompressed
      split
      · exact quiet_pure true
      · exact ih
    | _ => exact quiet_throw _

theorem quiet_encodingName (misuse : String → Misuse) (encoding : Json) :
    Quiet (encodingName misuse encoding) := by
  cases encoding with
  | text name => exact quiet_pure name
  | null => exact quiet_pure _
  | _ => exact quiet_throw _

theorem quiet_compressed (fs : FileSystem) (name : Text) (config : Config) :
    Quiet (compressed fs name config) :=
  (quiet_note rfl).bind fun _ => (quiet_ofInput _).bind fun _ =>
    (quiet_encodingName _ _).bind fun _ => (quiet_ofInput _).bind fun _ => quiet_pure _

theorem quiet_plain (fs : FileSystem) (name : Text) (config : Config) :
    Quiet (plain fs name config) := by
  refine (quiet_ofInput _).bind fun size => (quiet_note rfl).bind fun _ => ?_
  simp only
  split
  · exact quiet_throw_bind _ _
  · refine (quiet_encodingName _ _).bind fun given => ?_
    split
    · exact quiet_throw_bind _ _
    · exact (quiet_ofInput _).bind fun _ => (quiet_ofInput _).bind fun _ => quiet_pure _

theorem quiet_text (fs : FileSystem) (name : Text) (config : Config) :
    Quiet (text fs name config) := by
  have hdecoded : Quiet (decoded fs name config) := by
    refine (quiet_isCompressed name _).bind fun compressed => ?_
    cases compressed with
    | true => exact quiet_compressed fs name config
    | false => exact quiet_plain fs name config
  exact hdecoded.bind fun _ => quiet_pure _

end Opening

theorem standing_ofFile {fs : FileSystem} {file : Text} {config : Config} {start : Reader}
    (h : ofFile fs file config = .ok start) :
    Standing False [.of (.ok () start)] start := by
  unfold ofFile at h
  split at h
  · cases h
  · rename_i feed notes htext
    have hquiet : notes.countP Note.isClosing = 0 := Opening.quiet_text fs file config _ _ _ htext
    split at h
    · rename_i r hload
      cases h
      unfold loadLine at hload
      rw [if_neg Bool.false_ne_true] at hload
      simp only at hload
      split at hload
      · cases hload
      · cases hload
        rw [endInput_eq rfl]
        exact ⟨.inl ⟨rfl, rfl⟩, fun hline => absurd rfl hline, rfl, fun hfalse => Bool.noConfusion hfalse,
          by simp, by simp [hquiet, Note.isClosing]⟩
      · rename_i c line stream hread
        cases hload
        obtain ⟨body, hline, hbody⟩ :=
          Input.LineStream.exists_body_of_readLine hread (List.cons_ne_nil c line)
        have hrest : Input.withFinalNewline (c :: line) ≠ [] := by simp [hline]
        exact ⟨.inr ⟨body, hline, hbody⟩, fun _ => by simp [Reader.startLine, Attempt.of, hrest], rfl,
          fun _ => Nat.le_refl 1, by simp [Reader.startLine], hquiet⟩
    · cases h

end Reader

namespace Demand

def Attempts (r : Reader) (hs : List Attempt) : Demand → Prop
  | ask _ => hs = []
  | act o => o.LeavesText ∧ Course r hs (o.after r) ∨ ¬o.LeavesText ∧ hs = []

/-- An edit starts before the end of the line and puts no newline in. -/
def Proper (r : Reader) : Demand → Prop
  | act (.replace span text) =>
    '\n' ∉ text ∧ ∀ i, span.head? = some i → r.cursor + i < r.line.length
  | _ => True

theorem exists_attempts (d : Demand) (r : Reader) : ∃ hs, d.Attempts r hs := by
  cases d with
  | ask q => exact ⟨[], rfl⟩
  | act o =>
    by_cases ho : o.LeavesText
    · obtain ⟨hs, hcourse⟩ := (Reader.stable_course r).after ho ⟨[], .start⟩
      exact ⟨hs, .inl ⟨ho, hcourse⟩⟩
    · exact ⟨[], .inr ⟨ho, rfl⟩⟩

end Demand

namespace Reader.Standing

variable {closed : Prop} {hs : List Attempt} {r : Reader}

theorem congr {closed' : Prop} (h : Standing closed hs r) (hiff : closed ↔ closed') :
    Standing closed' hs r :=
  ⟨h.line, h.rest, h.lineNumber, h.loaded, h.stream.trans (or_congr_right hiff), h.closings⟩

theorem replace (h : Standing closed hs r) {span : List Int} {text : Text}
    (hproper : (Demand.act (.replace span text)).Proper r) :
    Standing closed hs ((Reader.replace span text).after r) := by
  rcases after_replace span text r with hstays | ⟨i, j, hspan, -, hj, hedit⟩
  · rwa [hstays]
  · rw [hedit]
    have hstart := hproper.2 i (by simpa [List.head?_take] using congrArg List.head? hspan)
    have hlength := r.length_line
    exact h.edit hproper.1 (by omega) hj

theorem demand (h : Standing closed hs r) {d : Demand} (hproper : d.Proper r) {more : List Attempt}
    (hmore : d.Attempts r more) :
    Standing (closed ∨ .act .close = d) (hs ++ more) (d.run.after r) := by
  cases d with
  | ask q =>
    obtain rfl := hmore
    rw [Demand.after_ask, List.append_nil]
    exact h.congr (by simp)
  | act o =>
    rw [Demand.after_act]
    obtain ⟨ho, hcourse⟩ | ⟨ho, rfl⟩ := hmore
    · refine (h.course hcourse).congr ?_
      cases o <;> simp_all [Operation.LeavesText]
    · rw [List.append_nil]
      cases o with
      | replace span text => exact (h.replace hproper).congr (by simp)
      | close => exact h.close.congr (by simp)
      | breakStream message => exact (h.breakStream message).congr (by simp)
      | _ => exact absurd trivial ho

end Reader.Standing

open Reader (Standing)

/-- The sessions with a reader, as demands, attempts at reading a line, and the state reached. -/
inductive Life (start : Reader) : List Demand → List Attempt → Reader → Prop
  | start : Life start [] [.of (.ok () start)] start
  | step {ds : List Demand} {hs more : List Attempt} {r : Reader} (h : Life start ds hs r)
      (d : Demand) (hproper : d.Proper r) (hmore : d.Attempts r more) :
      Life start (ds ++ [d]) (hs ++ more) (d.run.after r)

theorem Life.standing {ds : List Demand} {hs : List Attempt} {start r : Reader}
    (h : Life start ds hs r) (hstart : Standing False [.of (.ok () start)] start) :
    Standing (.act .close ∈ ds) hs r := by
  induction h with
  | start => exact hstart.congr (by simp)
  | step _ d hproper hmore ih => exact (ih.demand hproper hmore).congr (by simp)

/-- What holds of a reader at any time of its life. -/
structure LifeCycle (ds : List Demand) (hs : List Attempt) (r : Reader) : Prop where
  goesOn : r.ended = false →
    (∃ body, r.line = body ++ ['\n']) ∧ r.cursor ≤ r.line.length ∧
      (r.cursor = r.line.length ↔ hs.getLast? = some .refused)
  atEnd : r.ended = true →
    r.cursor ≤ r.line.length - 1 ∧ (∀ n : Int, 0 ≤ n → r.lookAhead n = .ok none) ∧
      Reader.next r = .ok none r
  lineNumber : r.lineNumber = max 1 (hs.count .loaded)
  follows : ∀ d : Demand, Follows r (d.run.after r)
  stream : r.stream = none ↔ r.ended = true ∨ .act .close ∈ ds
  closings : r.notes.countP Note.isClosing = if r.stream.isSome then 0 else 1

theorem Reader.Standing.lifeCycle {ds : List Demand} {hs : List Attempt} {r : Reader}
    (h : Standing (.act .close ∈ ds) hs r) : LifeCycle ds hs r where
  goesOn hended := by
    have hlength := r.length_line
    obtain ⟨-, htrue⟩ | ⟨body, hline, -⟩ := h.line
    · rw [hended] at htrue
      cases htrue
    · have hrest := h.rest (by simp [hline])
      have hcursor : r.cursor = r.line.length ↔ r.rest = [] := by
        rw [← List.length_eq_zero_iff]
        omega
      refine ⟨⟨body, hline⟩, by omega, ?_⟩
      rw [hcursor, hrest]
      simp [hended]
  atEnd hended := by
    have hlength := r.length_line
    refine ⟨?_, fun n hn => ?_, next_of_ended hended⟩
    · by_cases hline : r.line = []
      · rw [hline, List.length_nil] at hlength ⊢
        omega
      · have hrest : r.rest ≠ [] := by
          rw [Ne, h.rest hline, hended]
          exact fun hfalse => Bool.noConfusion hfalse.1
        have hpos := List.length_pos_iff.2 hrest
        omega
    · rw [lookAhead, if_neg (Int.not_lt.2 hn), if_pos hended]
  lineNumber := h.lineNumber
  follows d := d.follows r
  stream := h.stream
  closings := h.closings

/-- Whatever is asked of a reader that has been opened, and whether it can be done, the reader is
where the attempts at reading a line have led, its file is closed once, and that at the end of
input unless earlier. A session can always be continued. -/
theorem lifeCycle_ofFile {fs : FileSystem} {file : Text} {config : Config} {start : Reader}
    (h : Reader.ofFile fs file config = .ok start) :
    (∀ ds hs r, Life start ds hs r → LifeCycle ds hs r) ∧
    ∀ ds hs r, Life start ds hs r → ∀ d : Demand, d.Proper r →
      ∃ more, Life start (ds ++ [d]) (hs ++ more) (d.run.after r) := by
  refine ⟨fun ds hs r hlife => ?_, fun ds hs r hlife d hproper => ?_⟩
  · exact (hlife.standing (Reader.standing_ofFile h)).lifeCycle
  · obtain ⟨more, hmore⟩ := d.exists_attempts r
    exact ⟨more, hlife.step d hproper hmore⟩

theorem lifeCycle_ofFile_closedAgain :
    ∃ start hs r, Reader.ofFile (({} : FileSystem).addFile ['f'] [0x61]) ['f'] {} = .ok start ∧
      Life start [.act .next, .act .next, .act (.replace [0, 1] ['b']), .act .close] hs r ∧
      r.ended = true ∧ r.cursor = 1 ∧ r.notes.countP Note.isClosing = 1 := by
  have hdecodes : DecodesTo (({} : FileSystem).addFile ['f'] [0x61]) ['f'] {} ['a'] :=
    decodesTo_of_chunk ['a'] [.openingPlain ['f'] 8192] (by cbv) (by cbv)
  obtain ⟨start, hopen, hplace, -⟩ := Reader.ofFile_of_decodesTo hdecodes
  obtain ⟨s, hs, hplace, -⟩ := Reader.At.next (c := 'a') (u := ['\n']) hplace
  obtain ⟨t, ht, hplace, -⟩ := hplace.next
  have hs : (Demand.act .next).run.after start = s := (Demand.after_act _ _).trans (Op.after_of_ok hs)
  have ht : (Demand.act .next).run.after s = t := (Demand.after_act _ _).trans (Op.after_of_ok ht)
  have hended : t.ended = true := hplace.ended
  have hcursor : t.cursor = 1 := by
    have hcolumn : ((t.cursor + 1 : Nat) : Int) = 2 := congrArg Location.column hplace.location
    omega
  obtain ⟨hholds, hgoesOn⟩ := lifeCycle_ofFile hopen
  obtain ⟨first, hfirst⟩ := hgoesOn _ _ _ .start (.act .next) trivial
  rw [hs] at hfirst
  obtain ⟨second, hsecond⟩ := hgoesOn _ _ _ hfirst (.act .next) trivial
  rw [ht] at hsecond
  have hinside : t.cursor + (0 : Int) < t.line.length := by
    have hle := ((hholds _ _ _ hsecond).atEnd hended).1
    omega
  obtain ⟨third, hthird⟩ := hgoesOn _ _ _ hsecond (.act (.replace [0, 1] ['b']))
    ⟨by decide, by rintro _ ⟨⟩; exact hinside⟩
  obtain ⟨fourth, hfourth⟩ := hgoesOn _ _ _ hthird (.act .close) trivial
  have hedit := (hholds _ _ _ hsecond).follows (.act (.replace [0, 1] ['b']))
  have hclose := (hholds _ _ _ hthird).follows (.act .close)
  have hends := hclose.ended (hedit.ended hended)
  have hlast := hholds _ _ _ hfourth
  refine ⟨start, _, _, hopen, hfourth, hends, ?_, ?_⟩
  · rw [hclose.cursor (hedit.ended hended), hedit.cursor hended, hcursor]
  · rw [hlast.closings, hlast.stream.2 (.inl hends)]
    rfl

end LineLexer
