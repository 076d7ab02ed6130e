import LineLexer.Proofs.LifeCycle
import LineLexer.Proofs.MatchSpans
import LineLexer.Proofs.Remembering
import LineLexer.Proofs.ScanSegmentation
import Mathlib

/-!
# One newline to a line

A line has one newline, at its end, so what is seen, matched or queued there never reaches into
another line, and it is the newline that leads to the next one. Edits keep it so wherever their
spans start and end, but for a text that is put behind the newline: that gets a second one.
-/

namespace LineLexer

open Input (withFinalNewline)

def Text.EndsOnce (line : Text) : Prop := ∃ body, line = body ++ ['\n'] ∧ '\n' ∉ body

theorem Text.EndsOnce.not_append {line : Text} (h : line.EndsOnce) (text : Text) :
    ¬Text.EndsOnce (line ++ text ++ ['\n']) := by
  rintro ⟨body, hline, hbody⟩
  obtain ⟨before, rfl, -⟩ := h
  obtain rfl := (List.append_inj' hline rfl).1
  exact hbody (by simp)

namespace Reader

section Edits

variable {r s : Reader} {span : List Int} {text : Text} {i j : Nat}

theorem endsOnce_edit (h : r.line.EndsOnce) (htext : '\n' ∉ text) (hi : i < r.rest.length)
    (hj : j ≤ r.rest.length) : (r.edit i j text).line.EndsOnce := by
  obtain ⟨body, hline, hbody⟩ := h
  have hrest : r.rest ≠ [] := List.ne_nil_of_length_pos (by omega)
  obtain ⟨tail, hsplit, htail, hpassed⟩ := exists_tail hline hbody hrest
  obtain ⟨tail', htail', hedit⟩ := exists_edit hsplit htail hpassed htext hi hj
  exact ⟨r.passed.reverse ++ tail', by simp [hedit, line], by simp [hpassed, htail']⟩

theorem line_edit (r : Reader) (i j : Nat) (text : Text) :
    (r.edit i j text).line =
      let line := r.passed.reverse ++ (r.rest.take i ++ text ++ r.rest.drop j)
      if line.getLast? = some '\n' then line else line ++ ['\n'] := by
  rw [edit_eq]
  simp only [endsLine_eq, line, beq_iff_eq]
  split
  · rfl
  · simp only [List.append_assoc]

theorem line_edit_behind (h : r.line.EndsOnce) (htext : '\n' ∉ text) :
    (r.edit r.rest.length r.rest.length text).line =
      if text = [] then r.line else r.line ++ text ++ ['\n'] := by
  obtain ⟨body, hline, -⟩ := h
  have hwhole : r.passed.reverse ++ (r.rest ++ text) = r.line ++ text := by
    rw [line, List.append_assoc]
  simp only [line_edit, List.take_length, List.drop_length, List.append_nil, hwhole]
  by_cases hnil : text = []
  · simp [hnil, hline]
  · have hlast : (r.line ++ text).getLast? ≠ some '\n' := by
      rw [List.getLast?_append_of_ne_nil _ hnil]
      exact fun hlast => htext (List.mem_of_getLast? hlast)
    rw [if_neg hlast, if_neg hnil]

theorem endsOnce_replace_iff (h : r.line.EndsOnce) (htext : '\n' ∉ text)
    (hs : replace span text r = .ok () s) :
    s.line.EndsOnce ↔ text = [] ∨ span.take 2 ≠ [(r.rest.length : Int), (r.rest.length : Int)] := by
  rcases replace_cases span text r with ⟨fault, hrefused⟩ | ⟨i, j, hspan, hij, hj, hmade⟩
  · rw [hrefused] at hs
    cases hs
  · obtain rfl : r.edit i j text = s := by
      rw [hmade] at hs
      cases hs
      rfl
    by_cases hi : i < r.rest.length
    · have hbefore : span.take 2 ≠ [(r.rest.length : Int), (r.rest.length : Int)] := by
        rw [hspan]
        simp only [ne_eq, List.cons.injEq]
        omega
      exact iff_of_true (endsOnce_edit h htext hi hj) (.inr hbefore)
    · obtain rfl : i = r.rest.length := by omega
      obtain rfl : j = r.rest.length := by omega
      rw [line_edit_behind h htext, hspan]
      by_cases hnil : text = []
      · rw [if_pos hnil]
        exact iff_of_true h (.inl hnil)
      · rw [if_neg hnil]
        exact iff_of_false (h.not_append text) (by simp [hnil])

end Edits

def Lined (r : Reader) : Prop := r.ended = false → r.line.EndsOnce

theorem carried_lined : Carried Lined where
  inLine := by
    intro r n _ _ h hended
    rw [line_advance]
    exact h hended
  onward := by
    intro r hended _ h
    have hends := readsOn_nextLine (r := r.behindLine) hended
    unfold Op.after
    generalize nextLine r.behindLine = x at hends
    cases hends with
    | line stream hopen hline hbody => exact fun _ => ⟨_, hline, hbody⟩
    | stop stream hopen =>
      rw [endInput_eq (r := { r.behindLine with stream := some stream }) rfl]
      exact fun hfalse => Bool.noConfusion hfalse
    | failed fault hopen hfailures =>
      intro _
      have hline := h hended
      rwa [← line_behindLine] at hline

theorem stable_lined : Stable Lined where
  next := carried_lined.preserves_next
  accept := carried_lined.preserves_accept
  remembering _ h := h
  matching _ _ h := h
  queueing _ _ h := h

theorem lined_ofFile {fs : FileSystem} {file : Text} {config : Config} {start : Reader}
    (h : ofFile fs file config = .ok start) : start.Lined := by
  intro hended
  obtain ⟨-, htrue⟩ | hline := (standing_ofFile h).line
  · rw [hended] at htrue
    cases htrue
  · exact hline

end Reader

namespace Demand

/-- No newline is put into a line before the end of input, and nothing behind its newline. -/
def KeepsLine (r : Reader) : Demand → Prop
  | act (.replace span text) => r.ended = false →
    '\n' ∉ text ∧ (text = [] ∨ span.take 2 ≠ [(r.rest.length : Int), (r.rest.length : Int)])
  | _ => True

def KeepLines : List Demand → Reader → Prop
  | [], _ => True
  | d :: ds, r => d.KeepsLine r ∧ KeepLines ds (d.run.after r)

end Demand

namespace Reader

open Demand (KeepLines)

section Runs

variable {r : Reader}

theorem Lined.replace {span : List Int} {text : Text} (h : r.Lined)
    (hkeeps : (Demand.act (.replace span text)).KeepsLine r) :
    ((Reader.replace span text).after r).Lined := by
  rcases replace_cases span text r with ⟨fault, hrefused⟩ | ⟨i, j, -, -, -, hmade⟩
  · rwa [Op.after_of_error hrefused]
  · rw [Op.after_of_ok hmade]
    intro hended
    have hbefore : r.ended = false := by rwa [edit_eq] at hended
    obtain ⟨htext, hspan⟩ := hkeeps hbefore
    exact (endsOnce_replace_iff (h hbefore) htext hmade).2 hspan

theorem Lined.demand {d : Demand} (h : r.Lined) (hkeeps : d.KeepsLine r) : (d.run.after r).Lined := by
  refine stable_lined.demand_apart (fun r stream notes h => h) ?_ h
  rintro span text rfl
  exact h.replace hkeeps

theorem Lined.after {ds : List Demand} (h : r.Lined) (hkeep : KeepLines ds r) :
    (Demand.after ds r).Lined := by
  induction ds generalizing r with
  | nil => exact h
  | cons d ds ih => exact ih (h.demand hkeep.1) hkeep.2

end Runs

section Looking

variable {r : Reader}

theorem Lined.rest_eq (h : r.Lined) (hended : r.ended = false) (hrest : r.rest ≠ []) :
    r.rest = r.restOfLine ++ ['\n'] ∧ '\n' ∉ r.restOfLine := by
  obtain ⟨body, hline, hbody⟩ := h hended
  obtain ⟨tail, hsplit, htail, -⟩ := exists_tail hline hbody hrest
  have hleft : r.restOfLine = tail := by simp [restOfLine, hended, hsplit]
  rw [hleft]
  exact ⟨hsplit, htail⟩

theorem Lined.notMem_restOfLine (h : r.Lined) : '\n' ∉ r.restOfLine := by
  cases hended : r.ended with
  | true => simp [restOfLine, hended]
  | false =>
    by_cases hrest : r.rest = []
    · simp [restOfLine, hended, hrest]
    · exact (h.rest_eq hended hrest).2

theorem Lined.newline_iff (h : r.Lined) (hended : r.ended = false) {c : Char} {more : Text}
    (hrest : r.rest = c :: more) : c = '\n' ↔ more = [] := by
  obtain ⟨hsplit, hnone⟩ := h.rest_eq hended (by simp [hrest])
  rw [hrest] at hsplit
  cases hleft : r.restOfLine with
  | nil =>
    rw [hleft] at hsplit
    obtain ⟨rfl, rfl⟩ := List.cons.inj hsplit
    exact iff_of_true rfl rfl
  | cons d front =>
    rw [hleft] at hsplit hnone
    obtain ⟨rfl, rfl⟩ := List.cons.inj hsplit
    exact iff_of_false (fun hc => hnone (hc ▸ List.mem_cons_self)) (by simp)

theorem Lined.lookAhead (h : r.Lined) {n m : Int} (hn : r.lookAhead n = .ok (some '\n'))
    (hm : n < m) : r.lookAhead m = .error (.breach (.beyondLine m r.lineNumber)) := by
  unfold Reader.lookAhead at hn
  split at hn
  · cases hn
  · rename_i hpos
    split at hn
    · cases hn
    · rename_i hended
      have hbefore : r.ended = false := by simpa using hended
      split at hn
      · rename_i c hc
        cases hn
        have hrest : r.rest ≠ [] := by
          rintro hnil
          simp [hnil] at hc
        obtain ⟨hsplit, hnone⟩ := h.rest_eq hbefore hrest
        have hlast : r.restOfLine.length ≤ n.toNat := by
          by_contra hlt
          rw [hsplit, List.getElem?_append_left (by omega)] at hc
          exact hnone (List.mem_of_getElem? hc)
        have hbeyond : r.rest[m.toNat]? = none := by
          rw [List.getElem?_eq_none_iff, hsplit, List.length_append, List.length_singleton]
          omega
        rw [Reader.lookAhead, if_neg (by omega), if_neg hended, hbeyond]
      · cases hn

end Looking

def MatchInLine (r : Reader) : Prop := ∀ group t, r.groupText group = .ok (some t) → '\n' ∉ t

structure InLine (r s : Reader) : Prop where
  line : s.line = r.line
  lineNumber : s.lineNumber = r.lineNumber
  ended : s.ended = r.ended
  queue : ∀ c ∈ s.queue,
    c ∈ r.queue ∨ c.location.line = r.lineNumber ∧ ∀ t, c.text = some t → '\n' ∉ t

inductive Seeks (r : Reader) : EStateM.Result Fault Reader Bool → Prop
  | found {m : Match} (cachedRemainder : Option Text) (hm : m.Within r.restOfLine) :
      Seeks r (.ok true { r with cachedRemainder, lastMatch := some m })
  | missed (cachedRemainder : Option Text) (lastMatch : Option Match)
      (hfresh : Fresh { r with cachedRemainder, lastMatch }) :
      Seeks r (.ok false { r with cachedRemainder, lastMatch })
  | failed (fault : Fault) (cachedRemainder : Option Text) (lastMatch : Option Match) :
      Seeks r (.error fault { r with cachedRemainder, lastMatch })

section Matching

variable {r s : Reader} {m : Match} {t : Text}

theorem notMem_of_span {text : Text} (htext : '\n' ∉ text) (span : Pattern.Span) :
    '\n' ∉ span.of text := fun hmem =>
  htext (List.mem_of_mem_drop ((span.of_prefix text).subset hmem))

theorem matchInLine_of_within (hm : s.lastMatch = some m) (hwithin : m.Within t) (ht : '\n' ∉ t) :
    s.MatchInLine := by
  intro group u hu
  unfold groupText at hu
  simp only [hm] at hu
  split at hu
  · rename_i text? htext
    cases hu
    obtain ⟨span?, -, hspan⟩ := Option.map_eq_some_iff.1 htext
    obtain ⟨span, -, rfl⟩ := Option.map_eq_some_iff.1 hspan
    rw [hwithin.text_eq]
    exact notMem_of_span ht span
  · cases hu

theorem subject_of_fresh (h : r.Fresh) (text : Option Text) :
    ∃ cachedRemainder, Fresh { r with cachedRemainder } ∧
      subject text r = .ok (text.getD r.restOfLine) { r with cachedRemainder } := by
  cases text with
  | some given => exact ⟨r.cachedRemainder, h, rfl⟩
  | none => exact ⟨some r.restOfLine, fun _ ht => (Option.some.inj ht).symm, remainder_of_fresh h⟩

theorem matchPattern_of_fresh (h : r.Fresh) (p : Pattern.Source) (text : Option Text) :
    ∃ cachedRemainder, Fresh { r with cachedRemainder } ∧
      matchPattern p text r = match p.resolve with
        | .error fault => .error fault { r with cachedRemainder }
        | .ok pattern =>
          .ok (pattern.match? (text.getD r.restOfLine)).isSome
            { r with cachedRemainder, lastMatch := pattern.match? (text.getD r.restOfLine) } := by
  obtain ⟨cachedRemainder, hfresh, hsubject⟩ := subject_of_fresh h text
  refine ⟨cachedRemainder, hfresh, ?_⟩
  rw [matchPattern_of_subject hsubject]
  cases p.resolve <;> rfl

theorem matchFirst_of_fresh (h : r.Fresh) (patterns : List Pattern.Source) (text : Option Text) :
    ∃ cachedRemainder lastMatch, Fresh { r with cachedRemainder, lastMatch } ∧
      (∀ m, firstMatch (text.getD r.restOfLine) patterns = .ok (some m) → lastMatch = some m) ∧
      matchFirst text patterns r = match firstMatch (text.getD r.restOfLine) patterns with
        | .error fault => .error fault { r with cachedRemainder, lastMatch }
        | .ok found => .ok found.isSome { r with cachedRemainder, lastMatch } := by
  induction patterns generalizing r with
  | nil => exact ⟨r.cachedRemainder, r.lastMatch, h, by simp [firstMatch], rfl⟩
  | cons p ps ih =>
    obtain ⟨cachedRemainder, hfresh, hrun⟩ := matchPattern_of_fresh h p text
    unfold matchFirst firstMatch
    cases hp : p.resolve with
    | error fault =>
      rw [hp] at hrun
      exact ⟨cachedRemainder, r.lastMatch, hfresh, by simp, Op.bind_of_error hrun⟩
    | ok pattern =>
      rw [hp] at hrun
      cases hmatch : pattern.match? (text.getD r.restOfLine) with
      | some m =>
        simp only [hmatch] at hrun ⊢
        exact ⟨cachedRemainder, some m, hfresh, by simp, Op.bind_of_ok hrun⟩
      | none =>
        simp only [hmatch] at hrun ⊢
        rw [Op.bind_of_ok hrun]
        exact ih (r := { r with cachedRemainder, lastMatch := none }) hfresh

theorem seeks_matchPattern (h : r.Fresh) (p : Pattern.Source) : Seeks r (matchPattern p none r) := by
  obtain ⟨cachedRemainder, hfresh, hrun⟩ := matchPattern_of_fresh h p none
  rw [hrun]
  cases p.resolve with
  | error fault => exact .failed fault cachedRemainder r.lastMatch
  | ok pattern =>
    show Seeks r (.ok (pattern.match? r.restOfLine).isSome _)
    cases hmatch : pattern.match? r.restOfLine with
    | some m =>
      simp only [Option.getD_none, hmatch]
      exact .found cachedRemainder (Pattern.within_of_match? hmatch)
    | none =>
      simp only [Option.getD_none, hmatch]
      exact .missed cachedRemainder none hfresh

theorem seeks_matchFirst (h : r.Fresh) (patterns : List Pattern.Source) :
    Seeks r (matchFirst none patterns r) := by
  obtain ⟨cachedRemainder, lastMatch, hfresh, hlast, hrun⟩ := matchFirst_of_fresh h patterns none
  rw [hrun]
  cases hfirst : firstMatch ((none : Option Text).getD r.restOfLine) patterns with
  | error fault => exact .failed fault cachedRemainder lastMatch
  | ok found =>
    cases found with
    | none => exact .missed cachedRemainder lastMatch hfresh
    | some m =>
      obtain rfl := hlast m hfirst
      obtain ⟨_, -, _, -, hmatch⟩ := firstMatch_eq_some hfirst
      exact .found cachedRemainder (Pattern.within_of_match? hmatch)

theorem InLine.trans {s t : Reader} (h : InLine r s) (h' : InLine s t) : InLine r t where
  line := h'.line.trans h.line
  lineNumber := h'.lineNumber.trans h.lineNumber
  ended := h'.ended.trans h.ended
  queue := by
    intro c hc
    rcases h'.queue c hc with hqueued | hfound
    · exact h.queue c hqueued
    · rw [h.lineNumber] at hfound
      exact .inr hfound

theorem InLine.aside (r : Reader) (cachedRemainder : Option Text) (lastMatch : Option Match) :
    InLine r { r with cachedRemainder, lastMatch } := ⟨rfl, rfl, rfl, fun _ => .inl⟩

theorem InLine.advance (r : Reader) (n : Nat) : InLine r (r.advance n) :=
  ⟨r.line_advance n, rfl, rfl, fun _ => .inl⟩

theorem Seeks.inLine {x : Op Bool} (h : Seeks r (x r)) (hline : '\n' ∉ r.restOfLine) :
    InLine r (x.after r) ∧ ∀ s, x r = .ok true s → s.MatchInLine := by
  unfold Op.after
  generalize x r = ends at h
  cases h with
  | found cachedRemainder hm =>
    refine ⟨.aside r _ _, fun s hs => ?_⟩
    cases hs
    exact matchInLine_of_within rfl hm hline
  | missed cachedRemainder lastMatch _ =>
    exact ⟨.aside r cachedRemainder lastMatch, fun s hs => by cases hs⟩
  | failed fault cachedRemainder lastMatch =>
    exact ⟨.aside r cachedRemainder lastMatch, fun s hs => by cases hs⟩

theorem acceptMatch_inLine (hm : r.lastMatch = some m) (hstop : m.whole.stop ≤ r.restOfLine.length) :
    ∃ s, acceptMatch r = .ok () s ∧ InLine r s ∧ s.lastMatch = some m := by
  simp only [acceptMatch, hm]
  by_cases hstays : r.ended = true ∨ (m.whole.stop : Int) ≤ 0
  · exact ⟨r, accept_of_stop hstays, .aside r r.cachedRemainder r.lastMatch, hm⟩
  · simp only [not_or, Bool.not_eq_true, Int.not_le] at hstays
    have hlt : m.whole.stop < r.rest.length := by
      rw [restOfLine, hstays.1, if_neg Bool.false_ne_true, List.length_dropLast] at hstop
      omega
    exact ⟨_, accept_of_lt hstays.1 hstays.2 hlt, .advance r _, hm⟩

theorem queueFragments_inLine (hwithin : m.Within t) (ht : '\n' ∉ t) (save : Bool) :
    ∃ queue, queueFragments m save r = .ok () { r with queue } ∧ InLine r { r with queue } := by
  cases save with
  | false => exact ⟨r.queue, rfl, rfl, rfl, rfl, fun _ => .inl⟩
  | true =>
    refine ⟨_, rfl, rfl, rfl, rfl, fun c hc => ?_⟩
    rcases List.mem_append.1 hc with hqueued | hfound
    · exact .inl hqueued
    · obtain ⟨f, hf, rfl⟩ := List.mem_map.1 hfound
      obtain ⟨span, -, rfl⟩ := List.mem_map.1 hf
      refine .inr ⟨rfl, fun u hu => ?_⟩
      obtain rfl := Option.some.inj hu
      rw [hwithin.text_eq]
      exact notMem_of_span ht span

theorem takeMatch_inLine (hm : r.lastMatch = some m) (hwithin : m.Within r.restOfLine)
    (hline : '\n' ∉ r.restOfLine) (counts : Option (List Int)) (save : Bool) :
    InLine r ((takeMatch counts save).after r) ∧
      ((takeMatch counts save).after r).lastMatch = some m := by
  obtain ⟨queue, hqueue, hqueued⟩ := queueFragments_inLine (r := r) hwithin hline save
  obtain ⟨s, haccept, hmoved, hkept⟩ :=
    acceptMatch_inLine (r := { r with queue }) hm hwithin.stop_le
  have hinline := hqueued.trans hmoved
  have htake : takeMatch counts save r =
      (checkCount m counts >>= fun _ => acceptMatch : Op Unit) { r with queue } := by
    rw [takeMatch_of_some hm]
    exact Op.bind_of_ok hqueue
  unfold checkCount at htake
  split at htake
  · have hfails : (takeMatch counts save).after r = { s with queue := [] } :=
      Op.after_of_error (htake.trans (Op.bind_of_error (failLexically_of_accept haccept _)))
    rw [hfails]
    exact ⟨⟨hinline.line, hinline.lineNumber, hinline.ended, by simp⟩, hkept⟩
  · have htaken : (takeMatch counts save).after r = s := Op.after_of_ok (htake.trans haccept)
    rw [htaken]
    exact ⟨hinline, hkept⟩

theorem acceptFirst_inLine (hfresh : r.Fresh) (hline : '\n' ∉ r.restOfLine)
    (patterns : List Pattern.Source) (counts : Option (List Int)) (save : Bool) :
    InLine r ((acceptFirst patterns counts none save).after r) ∧
      ∀ s, acceptFirst patterns counts none save r = .ok true s → s.MatchInLine := by
  have hseeks := seeks_matchFirst hfresh patterns
  generalize hrun : matchFirst none patterns r = x at hseeks
  cases hseeks with
  | @found m cachedRemainder hm =>
    let found : Reader := { r with cachedRemainder, lastMatch := some m }
    obtain ⟨hinline, hkept⟩ := takeMatch_inLine (r := found) rfl hm hline counts save
    have haccept : acceptFirst patterns counts none save r =
        (takeMatch counts save >>= fun _ => pure true : Op Bool) found := Op.bind_of_ok hrun
    have hafter : (acceptFirst patterns counts none save).after r =
        (takeMatch counts save).after found := by
      rw [← Op.after_bind_pure _ true found]
      unfold Op.after
      rw [haccept]
    refine ⟨?_, fun s hs => ?_⟩
    · rw [hafter]
      exact (InLine.aside r cachedRemainder (some m)).trans hinline
    · rw [← hafter, Op.after_of_ok hs] at hkept
      exact matchInLine_of_within hkept hm hline
  | missed cachedRemainder lastMatch hfresh =>
    have hends : Seeks r (acceptFirst patterns counts none save r) := by
      rw [acceptFirst, Op.bind_of_ok hrun]
      exact .missed cachedRemainder lastMatch hfresh
    exact hends.inLine hline
  | failed fault cachedRemainder lastMatch =>
    have hends : Seeks r (acceptFirst patterns counts none save r) := by
      rw [acceptFirst, Op.bind_of_error hrun]
      exact .failed fault cachedRemainder lastMatch
    exact hends.inLine hline

end Matching

structure OnNextLine (r s : Reader) : Prop where
  lineNumber : s.lineNumber = r.lineNumber + 1
  cursor : s.cursor = 0
  line : ∃ stream line more, r.stream = some stream ∧ stream.readLine = (.ok line, more) ∧
    line ≠ [] ∧ s.line = withFinalNewline line ∧ s.stream = some more

section Moving

variable {r s : Reader}

theorem onNextLine_of_loadLine (hended : r.ended = false) (h : loadLine r = .ok () s) :
    s.ended = true ∨ OnNextLine r s := by
  unfold loadLine at h
  rw [if_neg (ne_true_of_eq_false hended)] at h
  split at h
  · cases h
  · rename_i stream hstream
    split at h
    · cases h
    · cases h
      exact .inl (by simp)
    · rename_i c line more hread
      cases h
      exact .inr ⟨rfl, rfl, stream, c :: line, more, hstream, hread, List.cons_ne_nil _ _, rfl, rfl⟩

theorem Lined.next_inLine (h : r.Lined) {c : Char} (hc : c ≠ '\n') (hs : next r = .ok (some c) s) :
    InLine r s := by
  cases hended : r.ended with
  | true =>
    rw [next_of_ended hended] at hs
    cases hs
  | false =>
    match hrest : r.rest with
    | [] =>
      rw [next_of_nil hended hrest] at hs
      cases hs
    | d :: e :: rest =>
      rw [next_of_inner hended hrest] at hs
      cases hs
      exact .advance r 1
    | [d] =>
      rw [next_of_last hended hrest] at hs
      obtain ⟨_, t, -, hs⟩ := Op.bind_eq_ok.1 hs
      obtain ⟨hd, -⟩ := Op.pure_eq_ok.1 hs
      obtain rfl := Option.some.inj hd
      exact absurd ((h.newline_iff hended hrest).2 rfl) hc

theorem Lined.next_newline (h : r.Lined) (hs : next r = .ok (some '\n') s) :
    s.ended = true ∨ OnNextLine r s := by
  cases hended : r.ended with
  | true =>
    rw [next_of_ended hended] at hs
    cases hs
  | false =>
    match hrest : r.rest with
    | [] =>
      rw [next_of_nil hended hrest] at hs
      cases hs
    | [d] =>
      rw [next_of_last hended hrest] at hs
      obtain ⟨_, t, hload, hs⟩ := Op.bind_eq_ok.1 hs
      obtain ⟨-, rfl⟩ := Op.pure_eq_ok.1 hs
      have hnext := onNextLine_of_loadLine (r := r.behindLine) hended (nextLine_eq_ok hload)
      exact hnext.imp_right fun h => ⟨h.lineNumber, h.cursor, h.line⟩
    | d :: e :: rest =>
      rw [next_of_inner hended hrest] at hs
      cases hs
      cases (h.newline_iff hended hrest).1 rfl

end Moving

/-- What holds of a reader whose line ends once. -/
structure OneLine (r : Reader) : Prop where
  line : r.ended = false → r.line.EndsOnce
  lookAhead : ∀ n m : Int, r.lookAhead n = .ok (some '\n') → n < m →
    r.lookAhead m = .error (.breach (.beyondLine m r.lineNumber))
  substring : ∀ n : Nat, ∃ t, r.substring n = .ok t ∧ '\n' ∉ t
  remainder : ∃ t s, Reader.remainder r = .ok t s ∧ '\n' ∉ t
  matchPattern : ∀ p, InLine r ((Reader.matchPattern p none).after r) ∧
    ∀ s, Reader.matchPattern p none r = .ok true s → s.MatchInLine
  acceptFirst : ∀ patterns counts save,
    InLine r ((Reader.acceptFirst patterns counts none save).after r) ∧
      ∀ s, Reader.acceptFirst patterns counts none save r = .ok true s → s.MatchInLine
  next : ∀ c s, Reader.next r = .ok (some c) s →
    if c = '\n' then s.ended = true ∨ OnNextLine r s else InLine r s

theorem Lined.oneLine {r : Reader} (h : r.Lined) (hfresh : r.Fresh) : OneLine r where
  line := h
  lookAhead n m hn hm := h.lookAhead hn hm
  substring n :=
    ⟨_, r.substring_eq n, fun hmem => h.notMem_restOfLine (List.mem_of_mem_take hmem)⟩
  remainder := ⟨_, _, remainder_of_fresh hfresh, h.notMem_restOfLine⟩
  matchPattern p := (seeks_matchPattern hfresh p).inLine h.notMem_restOfLine
  acceptFirst := acceptFirst_inLine hfresh h.notMem_restOfLine
  next c s hs := by
    split
    · rename_i hc
      subst hc
      exact h.next_newline hs
    · rename_i hc
      exact h.next_inLine hc hs

/-- In every state of a session in which no edit puts a newline into the line or anything behind
its newline, nothing reaches into another line. It has to be so: an edit that is made keeps the
newline the only one just when it is none of these. -/
theorem oneLine_ofFile {fs : FileSystem} {file : Text} {config : Config} {start : Reader}
    (h : ofFile fs file config = .ok start) :
    (∀ ds, KeepLines ds start → OneLine (Demand.after ds start)) ∧
    ∀ ds, KeepLines ds start → (Demand.after ds start).ended = false →
      ∀ span text s, '\n' ∉ text → replace span text (Demand.after ds start) = .ok () s →
        (s.line.EndsOnce ↔ (Demand.act (.replace span text)).KeepsLine (Demand.after ds start)) := by
  have hlined := lined_ofFile h
  refine ⟨fun ds hkeep => ?_, fun ds hkeep hended span text s htext hs => ?_⟩
  · exact (hlined.after hkeep).oneLine (Demand.fresh_after ds (fresh_of_none (cachedRemainder_ofFile h)))
  · rw [endsOnce_replace_iff (hlined.after hkeep hended) htext hs]
    exact ⟨fun hspan _ => ⟨htext, hspan⟩, fun hkeeps => (hkeeps hended).2⟩

theorem oneLine_ofFile_overNewline :
    ∃ start r s, ofFile (({} : FileSystem).addFile ['f'] [0x61, 0x62, 0x0A, 0x63]) ['f'] {} =
        .ok start ∧
      Demand.after [.act (.replace [1, 3] ['x']), .act .next] start = r ∧ OneLine r ∧
      replace [2, 2] ['y'] r = .ok () s ∧ ¬s.line.EndsOnce := by
  obtain ⟨start, r, hopen, hafter, hended, hrest⟩ : ∃ start r,
      ofFile (({} : FileSystem).addFile ['f'] [0x61, 0x62, 0x0A, 0x63]) ['f'] {} = .ok start ∧
      Demand.after [.act (.replace [1, 3] ['x']), .act .next] start = r ∧ r.ended = false ∧
      r.rest = ['x', '\n'] := ⟨_, _, by cbv, rfl, by cbv, by cbv⟩
  have hkeep : KeepLines [.act (.replace [1, 3] ['x']), .act .next] start := by
    refine ⟨fun _ => ⟨by decide, .inr fun hspan => ?_⟩, trivial, trivial⟩
    simp at hspan
    omega
  have hmade : replace [2, 2] ['y'] r = .ok () (r.edit 2 2 ['y']) :=
    replace_of_inside (by rw [hrest]; decide)
  obtain ⟨hholds, hexact⟩ := oneLine_ofFile hopen
  replace hholds := hholds _ hkeep
  replace hexact := hexact _ hkeep
  rw [hafter] at hholds hexact
  refine ⟨start, r, _, hopen, hafter, hholds, hmade, ?_⟩
  rw [hexact hended _ _ _ (by decide) hmade]
  intro hkeeps
  obtain ⟨-, hnil | hspan⟩ := hkeeps hended
  · cases hnil
  · exact hspan (by rw [hrest]; rfl)

/-- What is put behind a newline is seen on the line before it, and does not let the line end. -/
theorem substring_overNewline :
    ∃ start, ofFile (({} : FileSystem).addFile ['f'] [0x61, 0x62, 0x0A, 0x63, 0x64, 0x0A]) ['f'] {} =
        .ok start ∧
      Demand.replies [.act (.replace [3, 3] ['x']), .ask (.substring 10), .act .next, .act .next,
          .act .next, .ask .lineNumber, .ask .ended] start =
        [.ok .done, .ok (.text "ab\nx".toList), .ok (.char 'a'), .ok (.char 'b'),
          .ok (.char '\n'), .ok (.number 1), .ok (.truth false)] :=
  ⟨_, by cbv, by cbv⟩

end Reader
end LineLexer
