import LineLexer.Proofs.Session

/-!
# What a single move does

A move stays within the line, or it passes the newline and reads on. Reading on
has three ways to end, and all that moves change is told by these few cases.
-/

namespace LineLexer.Reader

open Input (withFinalNewline)

def behindLine (r : Reader) : Reader := r.advance r.rest.length

theorem length_line (r : Reader) : r.line.length = r.cursor + r.rest.length := by
  simp [line, cursor]

theorem line_advance (r : Reader) (n : Nat) : (r.advance n).line = r.line := by
  simp [line, advance]

theorem line_behindLine (r : Reader) : r.behindLine.line = r.line := r.line_advance _

theorem rest_behindLine (r : Reader) : r.behindLine.rest = [] := by
  simp [behindLine, advance]

theorem line_toLast (r : Reader) : r.toLast.line = r.line := by
  cases hrest : r.rest.reverse with
  | nil =>
    obtain hnil : r.rest = [] := List.reverse_eq_nil_iff.1 hrest
    cases hpassed : r.passed with
    | nil => simp [toLast, line, hnil, hpassed]
    | cons c passed => simp [toLast, line, hnil, hpassed]
  | cons c before =>
    have hsplit : r.rest = before.reverse ++ [c] := by rw [← r.rest.reverse_reverse, hrest]; simp
    simp [toLast, line, hsplit]

theorem endInput_eq {r : Reader} (h : r.stream.isSome = true) :
    r.endInput = { r.toLast with
      ended := true
      cachedRemainder := none
      lineNumber := max r.lineNumber 1
      stream := none
      notes := r.notes ++ [.reachedEnd r.file (max r.lineNumber 1), .closed r.file] } := by
  obtain ⟨s, hs⟩ := Option.isSome_iff_exists.1 h
  cases hrest : r.rest.reverse with
  | cons c before => simp [endInput, toLast, close, note, hs, hrest]
  | nil =>
    cases hpassed : r.passed with
    | nil => simp [endInput, toLast, close, note, hs, hrest, hpassed]
    | cons c passed => simp [endInput, toLast, close, note, hs, hrest, hpassed]

inductive ReadsOn (r : Reader) : EStateM.Result Fault Reader Unit → Prop
  | line {line body : Text} (stream : Input.LineStream) (hopen : r.stream.isSome = true)
      (hline : withFinalNewline line = body ++ ['\n']) (hbody : '\n' ∉ body) :
      ReadsOn r (.ok () ({ r with stream := some stream }.startLine line))
  | stop (stream : Input.LineStream) (hopen : r.stream.isSome = true) :
      ReadsOn r (.ok () { r with stream := some stream }.endInput)
  | failed {stream : Option Input.LineStream} {failures : List Note} (fault : Fault)
      (hopen : stream.isSome = r.stream.isSome)
      (hfailures : ∀ n ∈ failures, n.level = .error) :
      ReadsOn r (.error fault { r with stream, notes := r.notes ++ failures })

section Lines

variable {r : Reader}

theorem readsOn_report (fault : Fault) {stream : Option Input.LineStream}
    (hopen : stream.isSome = r.stream.isSome) : ReadsOn r (report fault { r with stream }) := by
  have hsilent : ReadsOn r (.error fault { r with stream }) := by
    have h : ReadsOn r (.error fault { r with stream, notes := r.notes ++ [] }) :=
      .failed fault hopen (by simp)
    rwa [List.append_nil] at h
  unfold report
  split
  · rename_i cause
    split
    · exact .failed _ hopen fun n hn => by rw [List.mem_singleton.1 hn]; rfl
    · exact hsilent
  · exact hsilent

theorem fault_of_loadLine {s : Reader} {fault : Fault} (h : loadLine r = .error fault s) :
    fault = .closedReader ∨ ∃ cause, fault = .input cause := by
  unfold loadLine at h
  split at h
  · cases h
  · split at h
    · cases h
      exact .inl rfl
    · split at h
      · cases h
        exact .inr ⟨_, rfl⟩
      · cases h
      · cases h

theorem readsOn_nextLine (hended : r.ended = false) : ReadsOn r (nextLine r) := by
  unfold nextLine loadLine
  rw [if_neg (ne_true_of_eq_false hended)]
  cases hstream : r.stream with
  | none =>
    have hkept : r.stream.isSome = r.stream.isSome := rfl
    exact readsOn_report .closedReader hkept
  | some s =>
    have hopen : r.stream.isSome = true := by rw [hstream]; rfl
    cases hread : s.readLine with
    | mk line t =>
      cases line with
      | error fault =>
        have hkept : (some t : Option Input.LineStream).isSome = r.stream.isSome := by rw [hopen]; rfl
        simpa [hread] using readsOn_report (.input fault) hkept
      | ok line =>
        cases line with
        | nil => simpa [hread] using ReadsOn.stop t hopen
        | cons c line =>
          obtain ⟨body, hline, hbody⟩ :=
            Input.LineStream.exists_body_of_readLine hread (List.cons_ne_nil c line)
          simpa [hread] using ReadsOn.line t hopen hline hbody

theorem nextLine_of_readLine {s t : Input.LineStream} {line : Except Input.Fault Text}
    (hended : r.ended = false) (hstream : r.stream = some s) (hread : s.readLine = (line, t)) :
    nextLine r = match line with
      | .error cause => report (.input cause) { r with stream := some t }
      | .ok [] => .ok () { r with stream := some t }.endInput
      | .ok (c :: line) => .ok () ({ r with stream := some t }.startLine (c :: line)) := by
  unfold nextLine loadLine
  rw [if_neg (ne_true_of_eq_false hended), hstream]
  simp only [hread]
  cases line with
  | error cause => rfl
  | ok line => cases line <;> rfl

theorem keeps_advance (r : Reader) (n : Nat) : Keeps r (r.advance n) := ⟨rfl, rfl, rfl, rfl⟩

theorem keeps_nextLine (hended : r.ended = false) : Keeps r (nextLine.after r) := by
  have hends := readsOn_nextLine hended
  unfold Op.after
  generalize nextLine r = x at hends
  cases hends with
  | line => exact ⟨rfl, rfl, rfl, rfl⟩
  | stop stream hopen =>
    have hkeeps := keeps_endInput { r with stream := some stream }
    exact ⟨hkeeps.file, hkeeps.config, hkeeps.lastMatch, hkeeps.queue⟩
  | failed => exact ⟨rfl, rfl, rfl, rfl⟩

theorem next_of_nil (hended : r.ended = false) (hrest : r.rest = []) :
    next r = .error (.breach (.beyondLine 0 r.lineNumber)) r := by
  simp [next, hended, hrest]

theorem next_of_last {c : Char} (hended : r.ended = false) (hrest : r.rest = [c]) :
    next r = (nextLine >>= fun _ => pure (some c) : Op (Option Char)) r.behindLine := by
  have hbehind : r.behindLine = r.advance 1 := by rw [behindLine, hrest]; rfl
  rw [hbehind]
  cases hline : nextLine (r.advance 1) with
  | ok _ s => simp [Op.bind_of_ok hline, next, hended, hrest, hline]; rfl
  | error fault s => simp [Op.bind_of_error hline, next, hended, hrest, hline]

theorem next_of_inner {c d : Char} {rest : Text} (hended : r.ended = false)
    (hrest : r.rest = c :: d :: rest) : next r = .ok (some c) (r.advance 1) := by
  simp [next, hended, hrest]

theorem steps_succ (n : Nat) (r : Reader) : steps (n + 1) r = (next >>= fun _ => steps n : Op Unit) r := by
  cases hnext : next r with
  | ok c? s => simp [Op.bind_of_ok hnext, steps, hnext]
  | error fault s => simp [Op.bind_of_error hnext, steps, hnext]

theorem accept_of_stop {n : Int} (h : r.ended = true ∨ n ≤ 0) : accept n r = .ok () r := by
  have hstop : (r.ended || decide (n ≤ 0)) = true := by simpa using h
  rw [accept, hstop, if_pos rfl]

theorem accept_of_lt {n : Int} (hended : r.ended = false) (hpos : 0 < n)
    (hlt : n.toNat < r.rest.length) : accept n r = .ok () (r.advance n.toNat) := by
  have hgo : (r.ended || decide (n ≤ 0)) = false := by simpa [hended] using hpos
  rw [accept, hgo, if_neg Bool.false_ne_true, if_pos hlt]

theorem accept_of_ge {n : Int} (hended : r.ended = false) (hpos : 0 < n)
    (hge : r.rest.length ≤ n.toNat) :
    accept n r = steps (n.toNat - r.rest.length + 1) r.toLast := by
  have hgo : (r.ended || decide (n ≤ 0)) = false := by simpa [hended] using hpos
  have hcount : n.toNat + 1 - r.rest.length = n.toNat - r.rest.length + 1 := by omega
  rw [accept, hgo, if_neg Bool.false_ne_true, if_neg (by omega), hcount]

theorem toLast_behindLine (hline : r.line ≠ []) :
    ∃ c, r.toLast.rest = [c] ∧ r.toLast.behindLine = r.behindLine := by
  by_cases hrest : r.rest = []
  · cases hpassed : r.passed with
    | nil => simp [line, hrest, hpassed] at hline
    | cons c passed => exact ⟨c, by simp [toLast, behindLine, advance, hrest, hpassed]⟩
  · obtain ⟨init, c, hsplit⟩ : ∃ init c, r.rest = init ++ [c] :=
      ⟨_, _, (List.dropLast_concat_getLast hrest).symm⟩
    have htake : (init ++ [c]).take (init.length + 1) = init ++ [c] := by
      rw [List.take_of_length_le (by simp)]
    exact ⟨c, by simp [toLast, hsplit], by simp [toLast, behindLine, advance, hsplit, htake]⟩

theorem steps_of_last {c : Char} (n : Nat) (hended : r.ended = false) (hrest : r.rest = [c]) :
    steps (n + 1) r = (nextLine >>= fun _ => steps n : Op Unit) r.behindLine := by
  have hnext := next_of_last hended hrest
  rw [steps_succ]
  cases hload : nextLine r.behindLine with
  | ok _ s =>
    rw [Op.bind_of_ok hload] at hnext ⊢
    exact Op.bind_of_ok hnext
  | error fault s =>
    rw [Op.bind_of_error hload] at hnext ⊢
    exact Op.bind_of_error hnext

theorem accept_of_beyond {n : Int} (hended : r.ended = false) (hpos : 0 < n)
    (hge : r.rest.length ≤ n.toNat) (hline : r.line ≠ []) :
    accept n r = (nextLine >>= fun _ => steps (n.toNat - r.rest.length) : Op Unit) r.behindLine := by
  obtain ⟨c, hrest, hbehind⟩ := toLast_behindLine hline
  rw [accept_of_ge hended hpos hge, steps_of_last _ (by rw [ended_toLast, hended]) hrest, hbehind]

theorem accept_of_noLine {n : Int} (hended : r.ended = false) (hpos : 0 < n) (hline : r.line = []) :
    accept n r = .error (.breach (.beyondLine 0 r.lineNumber)) r := by
  obtain ⟨hpassed, hrest⟩ : r.passed = [] ∧ r.rest = [] := by simpa [line] using hline
  have hlast : r.toLast = r := by simp [toLast, hpassed, hrest]
  rw [accept_of_ge hended hpos (by simp [hrest]), hlast, steps_succ]
  exact Op.bind_of_error (next_of_nil hended hrest)

end Lines

section Edits

variable {r : Reader} {i j : Int} {more : List Int} {text : Text}

theorem replace_of_inside (h : 0 ≤ i ∧ i ≤ j ∧ j ≤ r.rest.length) :
    replace (i :: j :: more) text r = .ok () (r.edit i.toNat j.toNat text) := if_pos h

theorem replace_of_outside (h : ¬(0 ≤ i ∧ i ≤ j ∧ j ≤ r.rest.length)) :
    replace (i :: j :: more) text r =
      .error (.breach (.outsideLine (i :: j :: more) r.lineNumber)) r := if_neg h

theorem replace_cases (span : List Int) (text : Text) (r : Reader) :
    (∃ fault, replace span text r = .error fault r) ∨
      ∃ i j : Nat, span.take 2 = [(i : Int), (j : Int)] ∧ i ≤ j ∧ j ≤ r.rest.length ∧
        replace span text r = .ok () (r.edit i j text) := by
  match span with
  | [] | [_] => exact .inl ⟨.shortSpan, rfl⟩
  | i :: j :: more =>
    by_cases hinside : 0 ≤ i ∧ i ≤ j ∧ j ≤ r.rest.length
    · have hi : (i.toNat : Int) = i := Int.toNat_of_nonneg hinside.1
      have hj : (j.toNat : Int) = j := Int.toNat_of_nonneg (Int.le_trans hinside.1 hinside.2.1)
      refine .inr ⟨i.toNat, j.toNat, ?_, by omega, by omega, replace_of_inside hinside⟩
      rw [hi, hj]
      rfl
    · exact .inl ⟨_, replace_of_outside hinside⟩

theorem after_replace (span : List Int) (text : Text) (r : Reader) :
    (replace span text).after r = r ∨
      ∃ i j : Nat, span.take 2 = [(i : Int), (j : Int)] ∧ i ≤ j ∧ j ≤ r.rest.length ∧
        (replace span text).after r = r.edit i j text := by
  rcases replace_cases span text r with ⟨fault, hrefused⟩ | ⟨i, j, hspan, hij, hj, hmade⟩
  · exact .inl (Op.after_of_error hrefused)
  · exact .inr ⟨i, j, hspan, hij, hj, Op.after_of_ok hmade⟩

theorem endsLine_eq (r : Reader) : r.endsLine = (r.line.getLast? == some '\n') := by
  unfold endsLine line
  rw [List.getLast?_append, List.getLast?_reverse]
  cases r.rest.getLast? with
  | some c => simp
  | none => rfl

theorem edit_eq (r : Reader) (i j : Nat) (text : Text) :
    r.edit i j text =
      let rest := r.rest.take i ++ text ++ r.rest.drop j
      { r with
        rest := if { r with rest, cachedRemainder := none }.endsLine then rest else rest ++ ['\n']
        cachedRemainder := none } := by
  by_cases hends : { r with
      rest := r.rest.take i ++ text ++ r.rest.drop j, cachedRemainder := none }.endsLine = true
  · simp only [edit, if_pos hends]
  · simp only [edit, if_neg hends]

theorem close_of_none (h : r.stream = none) : r.close = r := by
  rw [close, h]

theorem close_of_isSome (h : r.stream.isSome = true) :
    r.close = { r with stream := none }.note (.closed r.file) := by
  obtain ⟨s, hs⟩ := Option.isSome_iff_exists.1 h
  rw [close, hs]

end Edits

/-- What is kept within a line, and where the next line is read. -/
structure Carried (I : Reader → Prop) : Prop where
  inLine : ∀ r n, r.ended = false → n < r.rest.length → I r → I (r.advance n)
  onward : ∀ r, r.ended = false → r.line ≠ [] → I r → I (nextLine.after r.behindLine)

namespace Carried

variable {I : Reader → Prop} (hI : Carried I)

include hI

theorem onward_bind {α : Type} {f : Unit → Op α} (hf : ∀ u, Op.Preserves I (f u)) {r : Reader}
    (hended : r.ended = false) (hline : r.line ≠ []) (h : I r) :
    I ((nextLine >>= f).after r.behindLine) := by
  have honward := hI.onward r hended hline h
  cases hload : nextLine r.behindLine with
  | ok u s =>
    rw [Op.after_of_ok hload] at honward
    have hrest := hf u s honward
    unfold Op.after at hrest ⊢
    rwa [Op.bind_of_ok hload]
  | error fault s =>
    rw [Op.after_of_error hload] at honward
    rwa [Op.after_of_error (Op.bind_of_error hload)]

theorem preserves_next : Op.Preserves I next := by
  intro r h
  cases hended : r.ended with
  | true => rwa [Op.after_of_ok (next_of_ended hended)]
  | false =>
    match hrest : r.rest with
    | [] => rwa [Op.after_of_error (next_of_nil hended hrest)]
    | c :: d :: rest =>
      rw [Op.after_of_ok (next_of_inner hended hrest)]
      exact hI.inLine r 1 hended (by simp [hrest]) h
    | [c] =>
      have honward := hI.onward_bind (f := fun _ => pure (some c)) (fun _ _ h => h) hended
        (by simp [line, hrest]) h
      unfold Op.after at honward ⊢
      rwa [next_of_last hended hrest]

theorem preserves_steps (n : Nat) : Op.Preserves I (steps n) := by
  induction n with
  | zero => exact fun _ h => h
  | succ n ih =>
    intro r h
    have hafter := hI.preserves_next.bind (fun _ => ih) r h
    unfold Op.after at hafter ⊢
    rwa [steps_succ]

theorem of_steps {n : Nat} {r s : Reader} (hsteps : steps n r = .ok () s) (h : I r) : I s := by
  have hafter := hI.preserves_steps n r h
  rwa [Op.after_of_ok hsteps] at hafter

theorem preserves_accept (n : Int) : Op.Preserves I (accept n) := by
  intro r h
  by_cases hstop : r.ended = true ∨ n ≤ 0
  · rwa [Op.after_of_ok (accept_of_stop hstop)]
  · obtain ⟨hended, hpos⟩ : r.ended = false ∧ 0 < n := by simpa using hstop
    by_cases hlt : n.toNat < r.rest.length
    · rw [Op.after_of_ok (accept_of_lt hended hpos hlt)]
      exact hI.inLine r _ hended hlt h
    · by_cases hline : r.line = []
      · rwa [Op.after_of_error (accept_of_noLine hended hpos hline)]
      · have honward := hI.onward_bind (fun _ => hI.preserves_steps (n.toNat - r.rest.length)) hended
          hline h
        unfold Op.after at honward ⊢
        rwa [accept_of_beyond hended hpos (Nat.le_of_not_lt hlt) hline]

end Carried

theorem Carried.of_keeps {I : Reader → Prop} (hI : ∀ {r s}, Keeps r s → I r → I s) : Carried I where
  inLine r n _ _ h := hI (keeps_advance r n) h
  onward r hended _ h :=
    hI ((keeps_advance r _).trans (keeps_nextLine (r := r.behindLine) hended)) h

theorem stable_settings (P : Text → Config → Prop) : Stable fun r => P r.file r.config :=
  have hcarried : Carried fun r => P r.file r.config :=
    .of_keeps fun hkeeps h => by rwa [hkeeps.file, hkeeps.config]
  ⟨hcarried.preserves_next, hcarried.preserves_accept, fun _ h => h, fun _ _ h => h, fun _ _ h => h⟩

theorem keeps_ofFile {fs : FileSystem} {file : Text} {config : Config} {r : Reader}
    (h : ofFile fs file config = .ok r) : Keeps { file, config, stream := none } r := by
  unfold ofFile at h
  split at h
  · cases h
  · split at h
    · rename_i feed notes _ _ s hload
      obtain rfl := Except.ok.inj h
      have hnext := Op.after_of_ok (x := nextLine) (by rw [nextLine, hload])
      have hkeeps := keeps_nextLine (r := { file, config, stream := some { feed }, notes }) rfl
      rw [hnext] at hkeeps
      exact ⟨hkeeps.file, hkeeps.config, hkeeps.lastMatch, hkeeps.queue⟩
    · cases h

end Reader

theorem Demand.settings_after (ds : List Demand) (r : Reader) :
    (after ds r).file = r.file ∧ (after ds r).config = r.config := by
  induction ds generalizing r with
  | nil => exact ⟨rfl, rfl⟩
  | cons d ds ih =>
    have hstep : (d.run.after r).file = r.file ∧ (d.run.after r).config = r.config := by
      refine (Reader.stable_settings (· = r.file ∧ · = r.config)).demand_apart
        (fun s stream notes hs => hs) ?_ ⟨rfl, rfl⟩
      rintro span text -
      rcases Reader.after_replace span text r with hstays | ⟨i, j, -, -, -, hedit⟩
      · rw [hstays]
        exact ⟨rfl, rfl⟩
      · rw [hedit, Reader.edit_eq]
        exact ⟨rfl, rfl⟩
    obtain ⟨hfile, hconfig⟩ := ih (d.run.after r)
    exact ⟨hfile.trans hstep.1, hconfig.trans hstep.2⟩

end LineLexer
