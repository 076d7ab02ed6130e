import LineLexer.Proofs.MatchSpans
import LineLexer.Scan
import Mathlib

/-!
# Identifiers and numbers as first choices

Greedy matching settles on its first choice wherever what follows it cannot
fail. From the longest runs of single characters this goes up through
sequences, options and groups, node by node. The usual patterns therefore find
the longest identifier or number that stands at the front of a line.
-/

namespace LineLexer

namespace Text

def fraction : Text → Text
  | '.' :: d :: u => if isDigit d then '.' :: (d :: u).takeWhile isDigit else []
  | _ => []

def numeral (u : Text) : Text := u.takeWhile isDigit ++ fraction (u.dropWhile isDigit)

def beginsName (c : Char) : Bool := c.isAlpha || c == '_'

def lexeme : Text → Text
  | [] => []
  | c :: u =>
    if beginsName c then (c :: u).takeWhile isWord
    else if isDigit c then numeral (c :: u)
    else [c]

theorem isBlank_of_isDigit {c : Char} (h : isDigit c = true) : isBlank c = false :=
  CodePoints.holds_eq_false_of_apart (by decide +kernel) h

theorem isBlank_of_isWord {c : Char} (h : isWord c = true) : isBlank c = false := by
  unfold isWord at h
  split at h
  · exact CodePoints.holds_eq_false_of_apart (by decide) h
  · exact CodePoints.holds_eq_false_of_apart (by decide +kernel) h

theorem isWord_of_beginsName {c : Char} (h : beginsName c = true) : isWord c = true := by
  have hrange : ∃ r ∈ asciiWordCharacters.ranges, r.1 ≤ c.toNat ∧ c.toNat ≤ r.2 := by
    simp only [beginsName, Bool.or_eq_true, beq_iff_eq, Char.isAlpha, Char.isUpper, Char.isLower,
      Bool.and_eq_true, decide_eq_true_eq, UInt32.le_iff_toNat_le] at h
    rcases h with (h | h) | rfl
    · exact ⟨(0x41, 0x5A), by decide, h⟩
    · exact ⟨(0x61, 0x7A), by decide, h⟩
    · exact ⟨(0x5F, 0x5F), by decide, by decide⟩
  have hascii : c.toNat < 0x80 := by
    obtain ⟨r, hr, -, hle⟩ := hrange
    have hall : asciiWordCharacters.ranges.all (·.2 < 0x80) = true := by decide
    have hlast := List.all_eq_true.1 hall r hr
    simp only [decide_eq_true_eq] at hlast
    omega
  rw [isWord, if_pos hascii, isAsciiWord, CodePoints.holds_eq_true]
  exact hrange

theorem fraction_isPrefix (u : Text) : fraction u <+: u := by
  unfold fraction
  split
  · split
    · exact List.cons_prefix_cons.2 ⟨rfl, List.takeWhile_prefix _⟩
    · exact List.nil_prefix
  · exact List.nil_prefix

theorem numeral_isPrefix (u : Text) : numeral u <+: u := by
  have hrest := (List.prefix_append_right_inj (u.takeWhile isDigit)).2
    (fraction_isPrefix (u.dropWhile isDigit))
  rwa [List.takeWhile_append_dropWhile] at hrest

theorem lexeme_isPrefix (u : Text) : lexeme u <+: u := by
  unfold lexeme
  split
  · exact List.nil_prefix
  · split
    · exact List.takeWhile_prefix _
    · split
      · exact numeral_isPrefix _
      · exact ⟨_, rfl⟩

example : lexeme "aก b".toList = "aก".toList := by decide +kernel

theorem lexeme_ne_nil (c : Char) (u : Text) : lexeme (c :: u) ≠ [] := by
  simp only [lexeme]
  split
  · rename_i hname
    simp [isWord_of_beginsName hname]
  · split
    · rename_i hdigit
      simp [numeral, hdigit]
    · exact List.cons_ne_nil c []

theorem isBlank_of_mem_fraction {u : Text} {c : Char} (h : c ∈ fraction u) : isBlank c = false := by
  unfold fraction at h
  split at h
  · split at h
    · rcases List.mem_cons.1 h with rfl | h
      · decide
      · exact isBlank_of_isDigit (List.mem_takeWhile_imp h)
    · cases h
  · cases h

theorem isBlank_of_mem_lexeme {c d : Char} {u : Text} (hc : isBlank c = false)
    (h : d ∈ lexeme (c :: u)) : isBlank d = false := by
  simp only [lexeme] at h
  split at h
  · exact isBlank_of_isWord (List.mem_takeWhile_imp h)
  · split at h
    · rcases List.mem_append.1 h with h | h
      · exact isBlank_of_isDigit (List.mem_takeWhile_imp h)
      · exact isBlank_of_mem_fraction h
    · rw [List.mem_singleton.1 h]
      exact hc

end Text

namespace Pattern

open Text (isWord isDigit isBlank beginsName fraction numeral)

namespace State

variable {s : State}

theorem rest_advanceBy (n : Nat) : (s.advanceBy n).rest = s.rest.drop n := by
  induction n generalizing s with
  | zero => rfl
  | succ n ih =>
    rw [State.advanceBy, ih]
    cases hrest : s.rest with
    | nil => simp [State.advance, hrest]
    | cons c r => simp [State.advance, hrest]

theorem rest_advance {c : Char} {r : Text} (h : s.rest = c :: r) : s.advance.rest = r := by
  simp [State.advance, h]

theorem position_advance {c : Char} {r : Text} (h : s.rest = c :: r) :
    s.advance.position = s.position + 1 := by
  simp [State.advance, h]

end State

/-- The first choice from one place is another: it is kept when the rest matches from there. -/
def Leads (step : Next → Next) (s t : State) : Prop :=
  ∀ next u, next t = some u → step next s = some u

def Fails (step : Next → Next) (s : State) : Prop := ∀ next, step next s = none

variable {s t u : State} {a b : Node} {test : CharTest}

theorem Leads.seq (ha : Leads a.run s t) (hb : Leads b.run t u) : Leads (Node.seq a b).run s u :=
  fun next v h => ha (b.run next) v (hb next v h)

theorem Leads.group (ha : Leads a.run s t) (number : Nat) : Leads (Node.group number a).run s
    { t with groups := (number, ⟨s.position, t.position⟩) :: t.groups } :=
  fun _ v h => ha _ v h

theorem leads_one {c : Char} {r : Text} (hrest : s.rest = c :: r) (hc : test.holds c = true) :
    Leads (Node.one test).run s s.advance := by
  intro next v h
  simp [Node.run, hrest, hc, h]

theorem fails_one (h : ∀ c r, s.rest = c :: r → test.holds c = false) :
    Fails (Node.one test).run s := by
  intro next
  cases hrest : s.rest with
  | nil => simp [Node.run, hrest]
  | cons c r => simp [Node.run, hrest, h c r hrest]

theorem Fails.seq (ha : Fails a.run s) (b : Node) : Fails (Node.seq a b).run s :=
  fun next => ha (b.run next)

theorem Fails.group (ha : Fails a.run s) (number : Nat) : Fails (Node.group number a).run s :=
  fun _ => ha _

theorem fails_one_seq {c : Char} {r : Text} (hrest : s.rest = c :: r) (hb : Fails b.run s.advance) :
    Fails (Node.seq (.one test) b).run s := by
  intro next
  have hnext := hb next
  simp [Node.run, hrest, hnext]

theorem givingBack_of_eq_some {next : Next} (h : next s = some t) (n : Nat) :
    givingBack next n s = some t := by
  cases n with
  | zero => exact h
  | succ n => simp [givingBack, h]

theorem leads_repeatOne {min : Nat} (hmin : min ≤ (s.rest.takeWhile test.holds).length) :
    Leads (Node.repeatOne test min none true).run s
      (s.advanceBy (s.rest.takeWhile test.holds).length) := by
  intro next v h
  have hnot : ¬ (s.rest.takeWhile test.holds).length < min := by omega
  simp [Node.run, matchRepeatOne, runLength, hnot, givingBack_of_eq_some h]

theorem fails_repeatOne {min : Nat} (hmin : (s.rest.takeWhile test.holds).length < min) :
    Fails (Node.repeatOne test min none true).run s := by
  intro next
  simp [Node.run, matchRepeatOne, runLength, hmin]

theorem optional_run (a : Node) (next : Next) (s : State) :
    (Node.repeatAny a 0 (some 1) true).run next s = match a.run next s with
      | some v => some v
      | none => next s := by
  have hmore (fuel : Nat) : turns a.run 0 (some 1) true next (fuel + 1) (0 + 1) (some s.position) =
      next := by
    funext v
    simp [turns, mayTurn]
  have hlimit : turnLimit 0 s = s.rest.length + 1 + 1 := by simp [turnLimit]
  have hfirst : mayTurn (some 1) 0 none s = true := by simp [mayTurn]
  simp only [Node.run, hlimit]
  rw [turns, if_neg (Nat.lt_irrefl 0), if_pos hfirst]
  cases hrun : a.run next s <;> simp [hmore, hrun]

theorem Leads.optional (ha : Leads a.run s t) :
    Leads (Node.repeatAny a 0 (some 1) true).run s t := by
  intro next v h
  rw [optional_run, ha next v h]

theorem Fails.optional (ha : Fails a.run s) : Leads (Node.repeatAny a 0 (some 1) true).run s s := by
  intro next v h
  rw [optional_run, ha next]
  exact h

theorem match?_of_leads {p : Pattern} {line : Text} {t : State}
    (h : Leads p.node.run { rest := line } t) :
    ∃ m, p.match? line = some m ∧ m.whole.stop = t.position := by
  have hrun : p.node.run some { rest := line } = some t := h some t rfl
  simp [Pattern.match?, hrun]

theorem match?_of_fails {p : Pattern} {line : Text} (h : Fails p.node.run { rest := line }) :
    p.match? line = none := by
  simp [Pattern.match?, h some]

/-! The usual patterns, as they are read. -/

def nameTest : CharTest :=
  .oneOf false [.range 0x41 0x5A, .range 0x61 0x7A, .range 0x5F 0x5F] .exact

def wordTest : CharTest := .oneOf false [.category .word false false] .exact

def digitTest : CharTest := .oneOf false [.category .digit false false] .exact

def name : Pattern := ⟨.group 1 (.seq (.one nameTest) (.repeatOne wordTest 0 none true)), 1⟩

def fractionNode : Node := .seq (.one (.literal '.' .exact)) (.repeatOne digitTest 1 none true)

def number : Pattern :=
  ⟨.group 1 (.seq (.repeatOne digitTest 1 none true) (.repeatAny fractionNode 0 (some 1) true)), 1⟩

def visible : Pattern := ⟨.group 1 (.one (.oneOf false [.category .blank false true] .exact)), 1⟩

theorem resolve_name : (Source.written "([A-Za-z_]\\w*)".toList).resolve = .ok name := by rfl

theorem resolve_number : (Source.written "(\\d+(?:\\.\\d+)?)".toList).resolve = .ok number := by
  rfl

theorem resolve_singleCharacter : Scan.singleCharacter.resolve = .ok visible := by rfl

theorem nameTest_holds : nameTest.holds = beginsName := by
  funext c
  rw [Bool.eq_iff_iff]
  simp only [nameTest, CharTest.holds, ClassItem.holds, CaseRule.forms, List.any_cons, List.any_nil,
    beginsName, Char.isAlpha, Char.isUpper, Char.isLower]
  simp [Char.ext_iff, ← UInt32.toNat_inj, UInt32.le_iff_toNat_le]
  omega

theorem literal_holds (a c : Char) : (CharTest.literal a .exact).holds c = (a == c) := by
  simp [CharTest.holds, CaseRule.forms, Char.toNat_inj, Bool.beq_eq_decide_eq]

theorem wordTest_holds : wordTest.holds = isWord := by
  funext c
  simp [wordTest, CharTest.holds, ClassItem.holds, Category.holds]

theorem digitTest_holds : digitTest.holds = isDigit := by
  funext c
  simp [digitTest, CharTest.holds, ClassItem.holds, Category.holds]

variable {c : Char} (line : Text)

theorem match?_name (hc : beginsName c = true) :
    ∃ m, name.match? (c :: line) = some m ∧
      m.whole.stop = ((c :: line).takeWhile isWord).length := by
  have hfirst : Leads (Node.one nameTest).run { rest := c :: line } _ :=
    leads_one rfl (by rw [nameTest_holds, hc])
  have hrun : Leads (Node.repeatOne wordTest 0 none true).run _ _ :=
    leads_repeatOne (s := { before := [c], rest := line, position := 1 }) (Nat.zero_le _)
  obtain ⟨m, hm, hstop⟩ := match?_of_leads (p := name) ((hfirst.seq hrun).group 1)
  refine ⟨m, hm, hstop.trans ?_⟩
  show (State.advanceBy _ _).position = _
  rw [State.position_advanceBy (List.takeWhile_prefix _).length_le, wordTest_holds]
  simp [Text.isWord_of_beginsName hc, Nat.add_comm]

theorem match?_name_eq_none (hc : beginsName c = false) : name.match? (c :: line) = none := by
  refine match?_of_fails ((Fails.seq (fails_one ?_) _).group 1)
  intro d r hrest
  obtain ⟨rfl, -⟩ := List.cons.inj hrest
  rw [nameTest_holds, hc]

theorem leads_fraction (s : State) : ∃ t, Leads (Node.repeatAny fractionNode 0 (some 1) true).run s t ∧
    t.position = s.position + (fraction s.rest).length := by
  by_cases hfraction : ∃ d u, s.rest = '.' :: d :: u ∧ isDigit d = true
  · obtain ⟨d, u, hrest, hd⟩ := hfraction
    have hpoint : Leads (Node.one (.literal '.' .exact)).run s s.advance :=
      leads_one hrest (by simp [literal_holds])
    have hrest' := State.rest_advance hrest
    have hdigits : Leads (Node.repeatOne digitTest 1 none true).run s.advance _ :=
      leads_repeatOne (by simp [hrest', digitTest_holds, hd])
    refine ⟨_, (hpoint.seq hdigits).optional, ?_⟩
    rw [State.position_advanceBy (List.takeWhile_prefix _).length_le, State.position_advance hrest,
      hrest', hrest, digitTest_holds]
    simp [fraction, hd]
    omega
  · have hnil : fraction s.rest = [] := by
      unfold fraction
      split
      · rename_i d u hrest
        split
        · rename_i hd
          exact absurd ⟨d, u, hrest, hd⟩ hfraction
        · rfl
      · rfl
    refine ⟨s, Fails.optional ?_, by simp [hnil]⟩
    -- a point alone is given back, since the digits behind it are not optional
    cases hrest : s.rest with
    | nil => exact Fails.seq (fails_one (by simp [hrest])) _
    | cons c r =>
      by_cases hc : c = '.'
      · subst hc
        refine fails_one_seq hrest (fails_repeatOne ?_)
        rw [State.rest_advance hrest, digitTest_holds, Nat.lt_one_iff, List.length_eq_zero_iff]
        cases r with
        | nil => rfl
        | cons d u =>
          have hd : ¬ isDigit d = true := fun hd => hfraction ⟨d, u, hrest, hd⟩
          simp [hd]
      · refine Fails.seq (fails_one ?_) _
        intro d u hcons
        rw [hrest] at hcons
        obtain ⟨rfl, -⟩ := List.cons.inj hcons
        simpa [literal_holds] using Ne.symm hc

theorem match?_number (hc : isDigit c = true) :
    ∃ m, number.match? (c :: line) = some m ∧ m.whole.stop = (numeral (c :: line)).length := by
  have hdigits : Leads (Node.repeatOne digitTest 1 none true).run { rest := c :: line } _ :=
    leads_repeatOne (by simp [digitTest_holds, hc])
  obtain ⟨t, hfraction, hposition⟩ := leads_fraction
    (State.advanceBy ((c :: line).takeWhile digitTest.holds).length { rest := c :: line })
  obtain ⟨m, hm, hstop⟩ := match?_of_leads (p := number) ((hdigits.seq hfraction).group 1)
  refine ⟨m, hm, hstop.trans (hposition.trans ?_)⟩
  have hdrop : (c :: line).drop ((c :: line).takeWhile isDigit).length =
      (c :: line).dropWhile isDigit := by
    have hsplit := List.takeWhile_append_dropWhile (p := isDigit) (l := c :: line)
    calc (c :: line).drop ((c :: line).takeWhile isDigit).length
        = ((c :: line).takeWhile isDigit ++ (c :: line).dropWhile isDigit).drop
            ((c :: line).takeWhile isDigit).length := by rw [hsplit]
      _ = (c :: line).dropWhile isDigit := List.drop_left
  have hlength : ((c :: line).takeWhile digitTest.holds).length ≤ (c :: line).length :=
    (List.takeWhile_prefix _).length_le
  rw [State.position_advanceBy hlength, State.rest_advanceBy, digitTest_holds, hdrop, numeral,
    List.length_append]
  simp

theorem match?_number_eq_none (hc : isDigit c = false) : number.match? (c :: line) = none := by
  refine match?_of_fails ((Fails.seq (fails_repeatOne ?_) _).group 1)
  simp [digitTest_holds, hc]

theorem match?_visible (hc : isBlank c = false) :
    ∃ m, visible.match? (c :: line) = some m ∧ m.whole.stop = 1 := by
  have hfirst : Leads (Node.one (.oneOf false [.category .blank false true] .exact)).run
      { rest := c :: line } _ :=
    leads_one rfl (by simp [CharTest.holds, ClassItem.holds, Category.holds, hc])
  exact match?_of_leads (p := visible) (hfirst.group 1)

end Pattern
end LineLexer
