import LineLexer.Proofs.Decoding
import LineLexer.Proofs.Position
import LineLexer.Reader.Progress

/-!
# A reader between two parts of its text

A reader of a file that decodes stands between what has been taken and what
is still to come, though it holds no more than one line. Each move takes
characters from the second part over to the first, and what is looked at is
told by the second part alone. At the end of input the place is that of the
last newline.
-/

namespace LineLexer

open Input (LineStream withFinalNewline)

theorem Input.withFinalNewline_eq_nil {s : Text} : withFinalNewline s = [] ↔ s = [] := by
  unfold withFinalNewline
  cases s with
  | nil => simp
  | cons c s => split <;> simp

theorem Text.wholeLines_withFinalNewline (s : Text) : WholeLines (withFinalNewline s) := by
  unfold withFinalNewline
  split
  · rename_i h
    simpa [WholeLines] using h
  · right
    simp

def Location.between (file before u : Text) : Location :=
  behind file (if u.isEmpty then before.dropLast else before)

theorem Location.between_of_ne_nil {file before u : Text} (h : u ≠ []) :
    between file before u = behind file before := by
  simp [between, h]

namespace Reader

structure Keeps (r s : Reader) : Prop where
  file : s.file = r.file
  config : s.config = r.config
  lastMatch : s.lastMatch = r.lastMatch
  queue : s.queue = r.queue

theorem Keeps.refl (r : Reader) : Keeps r r := ⟨rfl, rfl, rfl, rfl⟩

theorem Keeps.trans {r s t : Reader} (h : Keeps r s) (h' : Keeps s t) : Keeps r t :=
  ⟨h'.file.trans h.file, h'.config.trans h.config, h'.lastMatch.trans h.lastMatch,
    h'.queue.trans h.queue⟩

structure Between (before u : Text) (r : Reader) : Prop where
  unreadText : r.unreadText = u
  ended : r.ended = u.isEmpty
  location : r.location = .between r.file before u
  line : u ≠ [] → ∃ body, r.rest = body ++ ['\n'] ∧ '\n' ∉ body
  stream : u ≠ [] → ∃ s, r.stream = some s ∧ s.Clean

/-- Between two parts of the text, with no remainder kept from another place. -/
structure At (before u : Text) (r : Reader) : Prop extends Between before u r where
  fresh : ∀ s, r.cachedRemainder = some s → s = r.restOfLine

section Loading

variable {r : Reader} {s : LineStream}

theorem keeps_toLast (r : Reader) : Keeps r r.toLast := by
  unfold toLast
  split <;> exact ⟨rfl, rfl, rfl, rfl⟩

theorem keeps_close (r : Reader) : Keeps r r.close := by
  unfold close
  split <;> exact ⟨rfl, rfl, rfl, rfl⟩

theorem keeps_endInput (r : Reader) : Keeps r r.endInput := by
  unfold endInput
  refine Keeps.trans ?_ (keeps_close _)
  have h := keeps_toLast
    { r with ended := true, cachedRemainder := none, lineNumber := max r.lineNumber 1 }
  exact ⟨h.file, h.config, h.lastMatch, h.queue⟩

theorem location_close (r : Reader) : r.close.location = r.location := by
  unfold close
  split <;> rfl

theorem cachedRemainder_close (r : Reader) : r.close.cachedRemainder = r.cachedRemainder := by
  unfold close
  split <;> rfl

theorem location_endInput (hrest : r.rest = []) :
    r.endInput.location = ⟨r.file, (max r.lineNumber 1 : Nat), r.passed.tail.length + 1⟩ := by
  unfold endInput
  rw [location_close]
  cases r.passed with
  | nil => simp [toLast, note, location, column, cursor, hrest]
  | cons c passed => simp [toLast, note, location, column, cursor, hrest]

theorem cachedRemainder_endInput (r : Reader) : r.endInput.cachedRemainder = none := by
  unfold endInput
  rw [cachedRemainder_close]
  unfold toLast
  split <;> rfl

theorem loadLine_of_clean (hr : r.ended = false) (hrest : r.rest = []) (hs : r.stream = some s)
    (hclean : s.Clean) :
    ∃ t, loadLine r = .ok () t ∧ Keeps r t ∧ t.cachedRemainder = none ∧
      t.ended = (withFinalNewline s.text).isEmpty ∧
      (s.text = [] → t.location = ⟨r.file, (max r.lineNumber 1 : Nat), r.passed.tail.length + 1⟩) ∧
      (s.text ≠ [] → t.location = ⟨r.file, r.lineNumber + 1, 1⟩ ∧
        (∃ body, t.rest = body ++ ['\n'] ∧ '\n' ∉ body) ∧ ∃ s', t.stream = some s' ∧ s'.Clean) := by
  obtain ⟨line, s', hread, hclean', hline⟩ := LineStream.readLine_of_clean hclean
  have htext := LineStream.withFinalNewline_text hread
  cases line with
  | nil =>
    have hnil := LineStream.text_eq_nil_of_readLine hread
    have hend : s.text = [] := by
      rw [hnil] at htext
      exact Input.withFinalNewline_eq_nil.1 htext
    refine ⟨{ r with stream := some s' }.endInput, ?_, ?_, cachedRemainder_endInput _, ?_, ?_, ?_⟩
    · simp [loadLine, hr, hs, hread]
    · have h := keeps_endInput { r with stream := some s' }
      exact ⟨h.file, h.config, h.lastMatch, h.queue⟩
    · simp [hend]
    · intro _
      exact location_endInput (r := { r with stream := some s' }) hrest
    · exact fun hne => absurd hend hne
  | cons c line =>
    have hne : s.text ≠ [] := by
      intro hnil
      rw [hnil] at htext
      have hline : withFinalNewline (c :: line) = [] := (List.append_eq_nil_iff.1 htext.symm).1
      exact List.cons_ne_nil c line (Input.withFinalNewline_eq_nil.1 hline)
    have hempty : (withFinalNewline s.text).isEmpty = false := by
      simpa [Input.withFinalNewline_eq_nil] using hne
    refine ⟨{ r with stream := some s' }.startLine (c :: line), ?_, ⟨rfl, rfl, rfl, rfl⟩, rfl, ?_,
      ?_, ?_⟩
    · simp [loadLine, hr, hs, hread]
    · rw [hempty]
      exact hr
    · exact fun hnil => absurd hnil hne
    · exact fun _ => ⟨rfl, hline (List.cons_ne_nil c line), s', rfl, hclean'⟩

end Loading

section Moves

variable {before u : Text} {r : Reader}

theorem Between.ended_eq_false (h : Between before u r) (hu : u ≠ []) : r.ended = false := by
  rw [h.ended]
  simpa using hu

theorem Between.exists_line (h : Between before u r) (hu : u ≠ []) :
    ∃ v, r.rest = u.firstLine ++ ['\n'] ∧ u = u.firstLine ++ '\n' :: v ∧
      ∀ s, r.stream = some s → v = withFinalNewline s.text := by
  obtain ⟨body, hrest, hbody⟩ := h.line hu
  obtain ⟨s, hs, -⟩ := h.stream hu
  have htext := h.unreadText
  simp only [Reader.unreadText, h.ended_eq_false hu, Bool.false_eq_true, if_false, hs, hrest,
    Option.map_some, Option.getD_some, List.append_assoc, List.singleton_append] at htext
  have hfirst : u.firstLine = body := by
    rw [← htext]
    exact Text.firstLine_append_newline hbody _
  refine ⟨withFinalNewline s.text, by rw [hrest, hfirst], by rw [hfirst, htext], ?_⟩
  intro s' hs'
  have heq : s' = s := Option.some.inj (hs'.symm.trans hs)
  rw [heq]

theorem Between.restOfLine (h : Between before u r) : r.restOfLine = u.firstLine := by
  by_cases hu : u = []
  · have hended : r.ended = true := by simp [h.ended, hu]
    simp [Reader.restOfLine, hended, hu, Text.firstLine]
  · obtain ⟨v, hrest, -, -⟩ := h.exists_line hu
    simp [Reader.restOfLine, h.ended_eq_false hu, hrest]

theorem Between.advance {k : Nat} (h : Between before u r) (hu : u ≠ [])
    (hk : k ≤ u.firstLine.length) : Between (before ++ u.take k) (u.drop k) (r.advance k) := by
  obtain ⟨v, hrest, hsplit, -⟩ := h.exists_line hu
  have hlen : k ≤ r.rest.length := by
    rw [hrest, List.length_append]
    omega
  have hdrop : u.drop k = u.firstLine.drop k ++ '\n' :: v := by
    rw [← List.drop_append_of_le_length hk, ← hsplit]
  have hne : u.drop k ≠ [] := by simp [hdrop]
  have hended := h.ended_eq_false hu
  refine ⟨?_, ?_, ?_, fun _ => ?_, fun _ => ?_⟩
  · rw [unreadText_advance hended hlen, h.unreadText]
  · show r.ended = _
    rw [hended]
    simpa using hne
  · have hplace := h.location
    rw [Location.between_of_ne_nil hu] at hplace
    rw [Location.between_of_ne_nil hne, Location.behind_append_take hk]
    show _ = (Location.behind r.file before).offset k
    rw [← hplace]
    have hpassed : (r.advance k).passed.length = r.passed.length + k := by
      simp only [Reader.advance, List.length_append, List.length_reverse, List.length_take,
        Nat.min_eq_left hlen]
      omega
    simp only [Reader.location, Reader.column, Reader.cursor, Location.offset, hpassed,
      Location.mk.injEq]
    refine ⟨rfl, rfl, ?_⟩
    push_cast
    omega
  · refine ⟨u.firstLine.drop k, ?_, fun hmem => u.newline_notMem_firstLine (List.mem_of_mem_drop hmem)⟩
    simp only [Reader.advance, hrest]
    exact List.drop_append_of_le_length hk
  · exact h.stream hu

theorem Between.next {c : Char} (h : Between before (c :: u) r) :
    ∃ s, next r = .ok (some c) s ∧ Between (before ++ [c]) u s ∧ s.cachedRemainder = none ∧
      Keeps r s := by
  have hu : c :: u ≠ [] := List.cons_ne_nil c u
  obtain ⟨v, hrest, hsplit, htail⟩ := h.exists_line hu
  have hended := h.ended_eq_false hu
  cases hline : Text.firstLine (c :: u) with
  | cons d body =>
    rw [hline] at hrest hsplit
    have hd : c = d := (List.cons.inj hsplit).1
    obtain ⟨e, more, hmore⟩ : ∃ e more, body ++ ['\n'] = e :: more := by
      cases body with
      | nil => exact ⟨'\n', [], rfl⟩
      | cons e body => exact ⟨e, body ++ ['\n'], rfl⟩
    have hmove := h.advance (k := 1) hu (by simp [hline])
    refine ⟨r.advance 1, ?_, hmove, rfl, ⟨rfl, rfl, rfl, rfl⟩⟩
    simp [Reader.next, hended, hrest, hmore, hd]
  | nil =>
    rw [hline] at hrest hsplit
    obtain ⟨rfl, hv⟩ : c = '\n' ∧ u = v := List.cons.inj hsplit
    obtain ⟨s, hs, hclean⟩ := h.stream hu
    have hutext : u = withFinalNewline s.text := hv.trans (htail s hs)
    have hloc := h.location
    rw [Location.between_of_ne_nil hu] at hloc
    have hlast : r.rest = ['\n'] := hrest
    obtain ⟨t, hload, hkeeps, hcache, htended, hstop, hgo⟩ :=
      loadLine_of_clean (r := r.advance 1) (s := s) hended (by simp [Reader.advance, hlast]) hs hclean
    have hunread := unreadText_loadLine (by exact hended) (by simp [Reader.advance, hlast]) hload
    have hkeeps' : Keeps r t := ⟨hkeeps.file, hkeeps.config, hkeeps.lastMatch, hkeeps.queue⟩
    refine ⟨t, ?_, ?_, hcache, hkeeps'⟩
    · simp [Reader.next, hended, hlast, nextLine, hload]
    · have htext : t.unreadText = u := by
        rw [hunread, unreadText_advance hended (by simp [hlast]), h.unreadText]
        rfl
      have hpassed : (r.advance 1).passed.tail = r.passed := by simp [Reader.advance, hlast]
      by_cases hnil : s.text = []
      · have hunil : u = [] := by rw [hutext, hnil]; rfl
        refine ⟨htext, by rw [htended, ← hutext], ?_, fun hne => absurd hunil hne,
          fun hne => absurd hunil hne⟩
        have hplace := hstop hnil
        rw [hpassed] at hplace
        rw [hplace, hkeeps.file, hunil]
        have hbetween : Location.between r.file (before ++ ['\n']) [] = .behind r.file before := by
          simp [Location.between]
        show _ = Location.between r.file _ _
        rw [hbetween, ← hloc]
        have hpos : (r.location.line : Int) = Location.line (.behind r.file before) := by rw [hloc]
        have hone : 1 ≤ r.lineNumber := by
          simp only [Reader.location, Location.behind, Text.lineBehind] at hpos
          omega
        simp only [Reader.location, Reader.column, Reader.cursor, Reader.advance, Location.mk.injEq,
          true_and]
        omega
      · obtain ⟨hplace, hbody, hstream⟩ := hgo hnil
        have hne : u ≠ [] := by
          rw [hutext]
          exact fun hw => hnil (Input.withFinalNewline_eq_nil.1 hw)
        refine ⟨htext, by rw [htended, ← hutext], ?_, fun _ => hbody, fun _ => hstream⟩
        rw [hplace, hkeeps.file, Location.between_of_ne_nil hne]
        have hline' : (r.lineNumber : Int) = Text.lineBehind before := congrArg Location.line hloc
        have hcol := Text.columnBehind_concat_newline before
        simp only [Location.behind, hcol, Location.mk.injEq]
        simp only [Text.lineBehind, List.count_append, List.count_singleton_self] at hline' ⊢
        refine ⟨trivial, ?_, rfl⟩
        show (r.lineNumber : Int) + 1 = _
        omega

theorem Between.toLast (h : Between before u r) (hu : u ≠ []) :
    Between (before ++ u.take u.firstLine.length) (u.drop u.firstLine.length) r.toLast := by
  obtain ⟨v, hrest, -, -⟩ := h.exists_line hu
  have hmove := h.advance hu (Nat.le_refl _)
  have hlast : r.toLast =
      { r.advance u.firstLine.length with cachedRemainder := r.cachedRemainder } := by
    simp [Reader.toLast, Reader.advance, hrest]
  rw [hlast]
  exact ⟨hmove.unreadText, hmove.ended, hmove.location, hmove.line, hmove.stream⟩

theorem Between.steps {n : Nat} (h : Between before u r) :
    ∃ s, steps n r = .ok () s ∧ Between (before ++ u.take n) (u.drop n) s ∧ Keeps r s ∧
      (r.cachedRemainder = none ∨ u ≠ [] ∧ 0 < n → s.cachedRemainder = none) := by
  induction n generalizing before u r with
  | zero =>
    refine ⟨r, rfl, by simpa using h, .refl r, ?_⟩
    rintro (hnone | ⟨-, hpos⟩)
    · exact hnone
    · omega
  | succ n ih =>
    cases u with
    | nil =>
      have hnext := next_of_ended (r := r) (by simp [h.ended])
      obtain ⟨s, hs, hplace, hkeeps, hcache⟩ := ih h
      refine ⟨s, by simp [Reader.steps, hnext, hs], by simpa using hplace, hkeeps, ?_⟩
      rintro (hnone | ⟨hne, -⟩)
      · exact hcache (.inl hnone)
      · exact absurd rfl hne
    | cons c u =>
      obtain ⟨t, hnext, hplace, hnone, hkeeps⟩ := h.next
      obtain ⟨s, hs, hplace', hkeeps', hcache⟩ := ih hplace
      refine ⟨s, by simp [Reader.steps, hnext, hs], ?_, hkeeps.trans hkeeps', fun _ => hcache (.inl hnone)⟩
      simpa using hplace'

theorem Between.at_of_none (h : Between before u r) (hnone : r.cachedRemainder = none) :
    At before u r :=
  ⟨h, fun s hs => by rw [hnone] at hs; cases hs⟩

theorem At.next {c : Char} (h : At before (c :: u) r) :
    ∃ s, next r = .ok (some c) s ∧ At (before ++ [c]) u s ∧ Keeps r s := by
  obtain ⟨s, hs, hplace, hnone, hkeeps⟩ := h.toBetween.next
  exact ⟨s, hs, hplace.at_of_none hnone, hkeeps⟩

theorem At.accept (n : Int) (h : At before u r) :
    ∃ s, accept n r = .ok () s ∧ At (before ++ u.take n.toNat) (u.drop n.toNat) s ∧ Keeps r s := by
  by_cases hstop : u = [] ∨ n ≤ 0
  · have hstay : (r.ended || decide (n ≤ 0)) = true := by
      rcases hstop with hu | hn
      · simp [h.ended, hu]
      · simp [hn]
    have hsame : u.take n.toNat = [] ∧ u.drop n.toNat = u := by
      rcases hstop with hu | hn
      · simp [hu]
      · simp [Int.toNat_of_nonpos hn]
    refine ⟨r, by simp [Reader.accept, hstay], ?_, .refl r⟩
    rw [hsame.1, hsame.2, List.append_nil]
    exact h
  · rw [not_or, Int.not_le] at hstop
    obtain ⟨hu, hn⟩ := hstop
    obtain ⟨v, hrest, hsplit, -⟩ := h.exists_line hu
    have hended := h.ended_eq_false hu
    have hlength : r.rest.length = u.firstLine.length + 1 := by simp [hrest]
    have hpos : ¬ n ≤ 0 := by omega
    by_cases hin : n.toNat < r.rest.length
    · refine ⟨r.advance n.toNat, by simp [Reader.accept, hended, hpos, hin], ?_,
        ⟨rfl, rfl, rfl, rfl⟩⟩
      exact (h.advance hu (by omega)).at_of_none rfl
    · have hdrop : u.drop u.firstLine.length ≠ [] := by
        intro hnil
        have hlen := congrArg List.length hsplit
        have hle := congrArg List.length hnil
        simp only [List.length_drop, List.length_append, List.length_cons, List.length_nil] at hlen hle
        omega
      obtain ⟨s, hs, hplace, hkeeps, hcache⟩ :=
        (h.toLast hu).steps (n := n.toNat + 1 - r.rest.length)
      have hnone := hcache (.inr ⟨hdrop, by omega⟩)
      have hsum : u.firstLine.length + (n.toNat + 1 - r.rest.length) = n.toNat := by omega
      have htake : u.take u.firstLine.length ++
          (u.drop u.firstLine.length).take (n.toNat + 1 - r.rest.length) = u.take n.toNat := by
        rw [← List.take_add, hsum]
      rw [List.append_assoc, htake, List.drop_drop, hsum] at hplace
      refine ⟨s, ?_, hplace.at_of_none hnone, (keeps_toLast r).trans hkeeps⟩
      simp [Reader.accept, hended, hpos, hin, hs]

end Moves

section Looking

variable {before u : Text} {r : Reader}

theorem Between.lookAhead (h : Between before u r) (n : Nat) :
    r.lookAhead n = if u.isEmpty then .ok none
      else if n ≤ u.firstLine.length then .ok u[n]? else .error (.breach (.beyondLine n r.lineNumber)) := by
  have hneg : ¬ (n : Int) < 0 := by omega
  by_cases hu : u = []
  · simp [Reader.lookAhead, hneg, h.ended, hu]
  · obtain ⟨v, hrest, hsplit, -⟩ := h.exists_line hu
    have hempty : u.isEmpty = false := by simpa using hu
    simp only [Reader.lookAhead, hneg, h.ended, hempty, Bool.false_eq_true, if_false,
      Int.toNat_natCast, hrest]
    by_cases hn : n ≤ u.firstLine.length
    · have hwhole : u.firstLine ++ ['\n'] ++ v = u := by
        rw [List.append_assoc]
        exact hsplit.symm
      have hget : (u.firstLine ++ ['\n'])[n]? = u[n]? := by
        calc (u.firstLine ++ ['\n'])[n]?
            = (u.firstLine ++ ['\n'] ++ v)[n]? := (List.getElem?_append_left (by simp; omega)).symm
          _ = u[n]? := by rw [hwhole]
      have hlt : n < u.length := by
        have hlen := congrArg List.length hsplit
        simp only [List.length_append, List.length_cons] at hlen
        omega
      rw [hget, List.getElem?_eq_getElem hlt]
      simp [hn]
    · have hnone : (u.firstLine ++ ['\n'])[n]? = none := by
        rw [List.getElem?_eq_none_iff, List.length_append, List.length_singleton]
        omega
      simp only [hnone, hn, if_false]

theorem Between.lookAhead_zero {c : Char} (h : Between before (c :: u) r) :
    r.lookAhead 0 = .ok (some c) := by
  have hlook := h.lookAhead 0
  simpa using hlook

theorem substring_eq (r : Reader) (n : Nat) : r.substring n = .ok (r.restOfLine.take n) := by
  have hneg : ¬(n : Int) < 0 := by omega
  have htake : (r.rest.take (n + 1)).dropLast = r.rest.dropLast.take n := by
    rw [List.dropLast_eq_take, List.dropLast_eq_take, List.take_take, List.take_take,
      List.length_take]
    congr 1
    omega
  unfold Reader.substring Reader.restOfLine
  rw [if_neg hneg, Int.toNat_natCast, htake]
  cases r.ended with
  | true => simp
  | false => rfl

theorem Between.substring (h : Between before u r) (n : Nat) :
    r.substring n = .ok (u.firstLine.take n) := by
  rw [substring_eq, h.restOfLine]

theorem Between.looksAt (h : Between before u r) (t : Text) :
    r.looksAt t = .ok (Text.goesOn t u) := by
  unfold Reader.looksAt
  split
  · rename_i c
    have hlook := h.lookAhead 0
    cases u with
    | nil =>
      have hlook : r.lookAhead 0 = .ok none := by simpa using hlook
      simp [hlook, Text.goesOn, Text.firstLine, bind, Except.bind, pure, Except.pure]
    | cons d u =>
      have hlook : r.lookAhead 0 = .ok (some d) := by simpa using hlook
      simp only [hlook, bind, Except.bind, pure, Except.pure, Except.ok.injEq]
      by_cases hd : d = '\n'
      · by_cases hc : c = '\n' <;> simp [Text.goesOn, Text.firstLine, hd, hc, eq_comm]
      · rw [Bool.eq_iff_iff]
        simp only [Text.goesOn, Text.firstLine]
        simpa [List.isPrefixOf, hd] using eq_comm
  · rename_i hne
    have hsub := h.substring t.length
    have hnl : t ≠ ['\n'] := fun ht => hne '\n' ht
    have hline := Text.take_beq_eq_isPrefixOf t u.firstLine
    simp [hsub, bind, Except.bind, pure, Except.pure, Text.goesOn, hnl, hline]

theorem At.acceptText (h : At before u r) (t : Text) :
    ∃ s, acceptText t r = .ok (Text.goesOn t u) s ∧ Keeps r s ∧
      if Text.goesOn t u then At (before ++ t) (u.drop t.length) s else s = r := by
  have hlook := h.looksAt t
  cases hgo : Text.goesOn t u with
  | false => exact ⟨r, by simp [Reader.acceptText, hlook, hgo], .refl r, rfl⟩
  | true =>
    obtain ⟨s, hs, hplace, hkeeps⟩ := h.accept t.length
    have htake : u.take t.length = t := List.prefix_iff_eq_take.1 (Text.prefix_of_goesOn hgo) |>.symm
    rw [Int.toNat_natCast, htake] at hplace
    exact ⟨s, by simp [Reader.acceptText, hlook, hgo, hs], hkeeps, hplace⟩

theorem At.cacheRemainder (h : At before u r) :
    ∃ s, cacheRemainder r = .ok u.firstLine s ∧ At before u s ∧ Keeps r s := by
  have hrest := h.restOfLine
  refine ⟨{ r with cachedRemainder := some r.restOfLine }, by simp [Reader.cacheRemainder, hrest], ?_,
    ⟨rfl, rfl, rfl, rfl⟩⟩
  refine ⟨⟨h.unreadText, h.ended, h.location, h.line, h.stream⟩, ?_⟩
  intro s hs
  exact (Option.some.inj hs).symm

theorem At.remainder (h : At before u r) :
    ∃ s, remainder r = .ok u.firstLine s ∧ At before u s ∧ Keeps r s := by
  cases hcache : r.cachedRemainder with
  | none =>
    obtain ⟨s, hs, hplace⟩ := h.cacheRemainder
    exact ⟨s, by simp [Reader.remainder, hcache, hs], hplace⟩
  | some t =>
    have ht : t = u.firstLine := (h.fresh t hcache).trans h.restOfLine
    exact ⟨r, by simp [Reader.remainder, hcache, ht], h, .refl r⟩

theorem At.withMatch (h : At before u r) (m : Option Match) :
    At before u { r with lastMatch := m } :=
  ⟨⟨h.unreadText, h.ended, h.location, h.line, h.stream⟩, h.fresh⟩

theorem At.withQueue (h : At before u r) (queue : List Capture) :
    At before u { r with queue } :=
  ⟨⟨h.unreadText, h.ended, h.location, h.line, h.stream⟩, h.fresh⟩

end Looking

theorem ofFile_of_decodesTo {fs : FileSystem} {file source : Text} {config : Config}
    (h : DecodesTo fs file config source) :
    ∃ r, ofFile fs file config = .ok r ∧ At [] (withFinalNewline source) r ∧ r.file = file ∧
      r.config = config ∧ r.lastMatch = none ∧ r.queue = [] := by
  obtain ⟨feed, notes, hopen, hclean, rfl⟩ := text_of_decodesTo h
  obtain ⟨t, hload, hkeeps, hnone, hended, hstop, hgo⟩ :=
    loadLine_of_clean (r := { file, config, stream := some { feed }, notes }) (s := { feed }) rfl rfl rfl
      ⟨rfl, hclean⟩
  have htext := unreadText_loadLine rfl rfl hload
  have hunread : t.unreadText = withFinalNewline feed.pieces.flatten := htext
  refine ⟨t, by simp [ofFile, hopen, hload], ⟨⟨hunread, hended, ?_, ?_, ?_⟩, ?_⟩, hkeeps.file,
    hkeeps.config, hkeeps.lastMatch, hkeeps.queue⟩
  · rw [hkeeps.file]
    by_cases hnil : feed.pieces.flatten = []
    · rw [hstop hnil, hnil]
      rfl
    · rw [(hgo hnil).1, Location.between_of_ne_nil fun hw => hnil (Input.withFinalNewline_eq_nil.1 hw)]
      rfl
  · exact fun hne => (hgo fun hnil => hne (Input.withFinalNewline_eq_nil.2 hnil)).2.1
  · exact fun hne => (hgo fun hnil => hne (Input.withFinalNewline_eq_nil.2 hnil)).2.2
  · intro s hs
    rw [hnone] at hs
    cases hs

end Reader
end LineLexer
