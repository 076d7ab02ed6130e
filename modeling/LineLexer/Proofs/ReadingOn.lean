import LineLexer.Proofs.Looking
import LineLexer.Proofs.SingleSteps
import Mathlib

/-!
# When reading on fails

Whoever takes the last character of a line reads on there. A failure that is told as fatal leaves
the reader behind that line: everything up to its newline is taken and nothing else is, and nothing
of it is seen any more. To take characters from there is to read on again, and then to take them
from the first character of the line that comes, or to rest at the end of input.
-/

namespace LineLexer.Reader

open Input (LineStream withFinalNewline)

structure Spent (r : Reader) : Prop where
  ended : r.ended = false
  line : r.line ≠ []
  rest : r.rest = []
  cachedRemainder : r.cachedRemainder = none

structure ShowsNothing (r : Reader) : Prop where
  lookAhead : ∀ n, ∃ b, r.lookAhead n = .error (.breach b)
  isEndOfLine : ∃ b, r.isEndOfLine = .error (.breach b)
  next : ∃ b, next r = .error (.breach b) r
  substring : ∀ n, r.substring n = if n < 0 then .error (.breach (.negativeLength n)) else .ok []
  remainder : remainder.outcome r = .ok []
  cacheRemainder : cacheRemainder.outcome r = .ok []

/-- Characters are taken as by whoever stands at the beginning of the line that is read now, or at
the end of input where none is left. -/
structure TakesAnew (r : Reader) : Prop where
  readsOn : ∀ n : Int, 0 < n → accept n r = (do nextLine; accept n : Op Unit) r
  onLine : ∀ stream more line, r.stream = some stream → stream.readLine = (.ok line, more) →
    line ≠ [] → ∀ n : Int, 0 < n → accept n r = accept n ({ r with stream := some more }.startLine line)
  atEnd : ∀ stream more, r.stream = some stream → stream.readLine = (.ok [], more) →
    ∀ n : Int, 0 < n → accept n r = accept n { r with stream := some more }.endInput

section Spent

variable {r : Reader}

theorem Spent.behindLine_eq (h : r.Spent) : r.behindLine = r := by
  have hforgets : r.behindLine = { r with cachedRemainder := none } := by
    simp [behindLine, advance, h.rest]
  rw [hforgets, ← h.cachedRemainder]

theorem Spent.restOfLine_eq (h : r.Spent) : r.restOfLine = [] := by
  simp [restOfLine, h.rest]

theorem Spent.lookAhead_of_nonneg (h : r.Spent) {n : Int} (hn : ¬n < 0) :
    r.lookAhead n = .error (.breach (.beyondLine n r.lineNumber)) := by
  simp [lookAhead, hn, h.ended, h.rest]

theorem Spent.cursor_eq (h : r.Spent) : r.cursor = r.line.length := by
  rw [length_line, h.rest, List.length_nil, Nat.add_zero]

theorem Spent.showsNothing (h : r.Spent) : r.ShowsNothing where
  lookAhead n := by
    by_cases hneg : n < 0
    · exact ⟨.negativeLookahead n, if_pos hneg⟩
    · exact ⟨_, h.lookAhead_of_nonneg hneg⟩
  isEndOfLine := by
    refine ⟨.beyondLine 0 r.lineNumber, ?_⟩
    rw [Reader.isEndOfLine, h.lookAhead_of_nonneg (Int.lt_irrefl 0)]
    rfl
  next := ⟨_, next_of_nil h.ended h.rest⟩
  substring n := by
    split
    · rename_i hneg
      exact if_pos hneg
    · lift n to Nat using by omega
      rw [substring_eq, h.restOfLine_eq, List.take_nil]
  remainder := by
    rw [Op.outcome, remainder_of_fresh (fresh_of_none h.cachedRemainder), h.restOfLine_eq]
  cacheRemainder := congrArg Except.ok h.restOfLine_eq

theorem Spent.accept_eq (h : r.Spent) {n : Int} (hn : 0 < n) :
    accept n r = (do nextLine; accept n : Op Unit) r := by
  have hsteps : accept n r = (nextLine >>= fun _ => steps n.toNat : Op Unit) r := by
    have hbeyond := accept_of_beyond h.ended hn (by simp [h.rest]) h.line
    rwa [h.behindLine_eq, h.rest, List.length_nil, Nat.sub_zero] at hbeyond
  rw [hsteps]
  cases hload : nextLine r with
  | error fault s => rw [Op.bind_of_error hload, Op.bind_of_error hload]
  | ok _ s =>
    have hstands : s.Stands := stands_of_nextLine h.ended hload
    rw [Op.bind_of_ok hload, Op.bind_of_ok hload, ← accept_of_stands hstands,
      Int.toNat_of_nonneg (Int.le_of_lt hn)]

theorem Spent.takesAnew (h : r.Spent) : r.TakesAnew where
  readsOn _ hn := h.accept_eq hn
  onLine stream more line hstream hread hline n hn := by
    obtain ⟨c, line, rfl⟩ := List.exists_cons_of_ne_nil hline
    rw [h.accept_eq hn, Op.bind_of_ok (nextLine_of_readLine h.ended hstream hread)]
  atEnd stream more hstream hread n hn := by
    rw [h.accept_eq hn, Op.bind_of_ok (nextLine_of_readLine h.ended hstream hread)]

end Spent

/-- From `r` on `k` characters have been taken when the newline is reached at which `last` stands.
Behind it `stream` cannot be read, and `s` is what that leaves. -/
structure StopsBehind (r : Reader) (k : Nat) (last : Reader) (stream : LineStream) (fault : Fault)
    (s : Reader) : Prop where
  reached : accept k r = .ok () last
  newline : last.rest = ['\n']
  isOpen : last.stream = some stream
  unreadable : ∃ cause more, stream.readLine = (.error cause, more) ∧ s.stream = some more ∧
    fault = .fatal r.file last.lineNumber cause
  taken : r.unreadText = r.unreadText.take k ++ '\n' :: withFinalNewline stream.text
  line : s.line = last.line
  lineNumber : s.lineNumber = last.lineNumber
  cursor : s.cursor = s.line.length
  queue : s.queue = r.queue
  lastMatch : s.lastMatch = r.lastMatch
  showsNothing : s.ShowsNothing
  takesAnew : s.TakesAnew

section Failing

variable {r s : Reader} {file : Text} {number : Int} {cause : Input.Fault}

theorem nextLine_eq_fatal (hended : r.ended = false)
    (h : nextLine r = .error (.fatal file number cause) s) : ∃ stream more,
      r.stream = some stream ∧ stream.readLine = (.error cause, more) ∧
      file = r.file ∧ number = r.lineNumber ∧
      s = { r with stream := some more }.note (.failed r.file r.lineNumber cause) := by
  cases hstream : r.stream with
  | none => simp [nextLine, loadLine, report, hended, hstream] at h
  | some stream =>
    cases hread : stream.readLine with
    | mk line more =>
      rw [nextLine_of_readLine hended hstream hread] at h
      cases line with
      | ok line => cases line <;> cases h
      | error _ =>
        simp only [report] at h
        split at h
        · cases h
          exact ⟨stream, more, rfl, hread, rfl, rfl, rfl⟩
        · cases h

theorem next_eq_fatal (hline : r.NewlineLast) (h : next r = .error (.fatal file number cause) s) :
    r.ended = false ∧ r.rest = ['\n'] ∧
      nextLine r.behindLine = .error (.fatal file number cause) s := by
  cases hended : r.ended with
  | true =>
    rw [next_of_ended hended] at h
    cases h
  | false =>
    match hrest : r.rest with
    | [] =>
      rw [next_of_nil hended hrest] at h
      cases h
    | c :: d :: rest =>
      rw [next_of_inner hended hrest] at h
      cases h
    | [c] =>
      have hlast := hline hended
      rw [line, hrest, List.getLast?_concat] at hlast
      obtain rfl := Option.some.inj hlast
      refine ⟨rfl, rfl, ?_⟩
      rw [next_of_last hended hrest] at h
      cases hload : nextLine r.behindLine with
      | ok _ t =>
        rw [Op.bind_of_ok hload] at h
        cases h
      | error fault t =>
        rw [Op.bind_of_error hload] at h
        cases h
        rfl

theorem exists_next_of_steps {n : Nat} {fault : Fault} (h : steps n r = .error fault s) :
    ∃ k t, k < n ∧ steps k r = .ok () t ∧ next t = .error fault s := by
  -- by the number of steps: the first one fails, or one of those from where it leads
  induction n generalizing r with
  | zero => cases h
  | succ n ih =>
    rw [steps_succ] at h
    cases hnext : next r with
    | error fault t =>
      rw [Op.bind_of_error hnext] at h
      cases h
      exact ⟨0, r, n.succ_pos, rfl, hnext⟩
    | ok c? t =>
      rw [Op.bind_of_ok hnext] at h
      obtain ⟨k, u, hk, hsteps, hfails⟩ := ih h
      exact ⟨k + 1, u, Nat.succ_lt_succ hk, by rw [steps_succ, Op.bind_of_ok hnext, hsteps], hfails⟩

theorem stopsBehind_of_next {k : Nat} {last : Reader} (hstands : r.Stands) (hline : r.NewlineLast)
    (hsteps : steps k r = .ok () last) (h : next last = .error (.fatal file number cause) s) :
    ∃ stream, StopsBehind r k last stream (.fatal file number cause) s := by
  have hlast : last.NewlineLast := carried_newlineLast.of_steps hsteps hline
  have hcarried : Carried (Keeps r) := .of_keeps fun hkeeps h => h.trans hkeeps
  have hkeeps : Keeps r last := hcarried.of_steps hsteps (.refl r)
  obtain ⟨hended, hrest, hload⟩ := next_eq_fatal hlast h
  obtain ⟨stream, more, hstream, hread, rfl, rfl, hs⟩ :=
    nextLine_eq_fatal (r := last.behindLine) hended hload
  have hopen : last.stream = some stream := hstream
  have hsame : s.line = last.line := by
    rw [hs]
    exact last.line_behindLine
  have hspent : s.Spent := by
    have hne : s.line ≠ [] := by
      rw [hsame, line, hrest]
      simp
    rw [hs] at hne ⊢
    exact ⟨hended, hne, last.rest_behindLine, rfl⟩
  have hleft : last.unreadText = '\n' :: withFinalNewline stream.text := by
    simp [unreadText, hended, hrest, hopen]
  exact ⟨stream, {
    reached := (accept_of_stands hstands k).trans hsteps
    newline := hrest
    isOpen := hopen
    unreadable := ⟨cause, more, hread, by rw [hs]; rfl, by rw [← hkeeps.file]; rfl⟩
    taken := by rw [← hleft, unreadText_steps hsteps, List.take_append_drop]
    line := hsame
    lineNumber := by rw [hs]; rfl
    cursor := hspent.cursor_eq
    queue := by rw [hs]; exact hkeeps.queue
    lastMatch := by rw [hs]; exact hkeeps.lastMatch
    showsNothing := hspent.showsNothing
    takesAnew := hspent.takesAnew }⟩

theorem stopsBehind_of_accept {n : Int} (hstands : r.Stands) (hline : r.NewlineLast)
    (h : accept n r = .error (.fatal file number cause) s) : ∃ (k : Nat) (last : Reader) (stream : LineStream),
      k < n ∧ StopsBehind r k last stream (.fatal file number cause) s := by
  by_cases hn : n ≤ 0
  · rw [accept_of_stop (.inr hn)] at h
    cases h
  · lift n to Nat using by omega
    rw [accept_of_stands hstands] at h
    obtain ⟨k, last, hk, hsteps, hnext⟩ := exists_next_of_steps h
    obtain ⟨stream, hstops⟩ := stopsBehind_of_next hstands hline hsteps hnext
    exact ⟨k, last, stream, Int.ofNat_lt.2 hk, hstops⟩

end Failing

/-- Wherever a session stands on a line, and whatever the file goes on to deliver, a step or a move
that fails as fatal stops behind the line whose successor could not be read. -/
theorem stopsBehind_ofFile {fs : FileSystem} {file : Text} {config : Config} {start : Reader}
    (hopen : ofFile fs file config = .ok start) (later : Option LineStream) (ds : List Demand)
    {r : Reader} (hr : Demand.after ds { start with stream := later } = r)
    (hcursor : r.cursor < r.line.length) :
    (∀ file number cause s, next r = .error (.fatal file number cause) s →
      ∃ stream, StopsBehind r 0 r stream (.fatal file number cause) s) ∧
    ∀ (n : Int) file number cause s, accept n r = .error (.fatal file number cause) s →
      ∃ (k : Nat) (last : Reader) (stream : LineStream), k < n ∧
        StopsBehind r k last stream (.fatal file number cause) s := by
  have hstart : start.NewlineLast := newlineLast_ofFile hopen
  have hline : r.NewlineLast := by
    rw [← hr]
    exact NewlineLast.after (r := { start with stream := later }) hstart ds
  have hstands : r.Stands := .inr hcursor
  exact ⟨fun _ _ _ _ => stopsBehind_of_next hstands hline rfl,
    fun _ _ _ _ _ => stopsBehind_of_accept hstands hline⟩

theorem stopsBehind_ofFile_once :
    ∃ later start r last s t,
      later = ({ feed := ⟨[.ok ['c', '\n'], .error (.device ['e']), .ok ['d', 'e', '\n']], none⟩ } : LineStream) ∧
      ofFile (({} : FileSystem).addFile ['f'] [0x61, 0x62, 0x0A]) ['f'] {} = .ok start ∧
      Demand.after [.act (.replace [0, 1] ['x', 'y']),
        .act (.acceptFirst [.written "(x)".toList] none none true)] { start with stream := some later } = r ∧
      r.cursor < r.line.length ∧ accept 6 r = .error (.fatal ['f'] 2 (.device ['e'])) s ∧
      (∃ (k : Nat) (last : Reader) (stream : LineStream), (k : Int) < 6 ∧
        StopsBehind r k last stream (.fatal ['f'] 2 (.device ['e'])) s) ∧
      s.queue = [⟨⟨['f'], 1, 1⟩, some ['x']⟩] ∧
      accept 2 s = .ok () t ∧ t.lineNumber = 3 ∧ t.passed = ['e', 'd'] ∧
      Demand.after [.act (.accept 4)] r = last ∧ last.cursor < last.line.length ∧
      next last = .error (.fatal ['f'] 2 (.device ['e'])) s ∧
      ∃ stream, StopsBehind last 0 last stream (.fatal ['f'] 2 (.device ['e'])) s := by
  obtain ⟨later, start, r, last, s, t, hlater, hopen, hr, hcursor, hfails, hqueue, htakes, hnumber, hpassed,
      hlast, hinside, hstep⟩ : ∃ later start r last s t,
      later = ({ feed := ⟨[.ok ['c', '\n'], .error (.device ['e']), .ok ['d', 'e', '\n']], none⟩ } : LineStream) ∧
      ofFile (({} : FileSystem).addFile ['f'] [0x61, 0x62, 0x0A]) ['f'] {} = .ok start ∧
      Demand.after [.act (.replace [0, 1] ['x', 'y']),
        .act (.acceptFirst [.written "(x)".toList] none none true)] { start with stream := some later } = r ∧
      r.cursor < r.line.length ∧ accept 6 r = .error (.fatal ['f'] 2 (.device ['e'])) s ∧
      s.queue = [⟨⟨['f'], 1, 1⟩, some ['x']⟩] ∧
      accept 2 s = .ok () t ∧ t.lineNumber = 3 ∧ t.passed = ['e', 'd'] ∧
      Demand.after [.act (.accept 4)] r = last ∧ last.cursor < last.line.length ∧
      next last = .error (.fatal ['f'] 2 (.device ['e'])) s :=
    ⟨_, _, _, _, _, _, rfl, by cbv, rfl, by cbv, by cbv, by cbv, by cbv, by cbv, by cbv, rfl, by cbv, by cbv⟩
  have hbehind := (stopsBehind_ofFile hopen (some later) _ hr hcursor).2 6 _ _ _ _ hfails
  have hon : Demand.after ([.act (.replace [0, 1] ['x', 'y']),
      .act (.acceptFirst [.written "(x)".toList] none none true)] ++ [.act (.accept 4)])
        { start with stream := some later } = last := by
    rw [← hlast, ← hr]
    rfl
  have hhere := (stopsBehind_ofFile hopen (some later) _ hon hinside).1 _ _ _ _ hstep
  exact ⟨later, start, r, last, s, t, hlater, hopen, hr, hcursor, hfails, hbehind, hqueue, htakes, hnumber,
    hpassed, hlast, hinside, hstep, hhere⟩

end LineLexer.Reader
