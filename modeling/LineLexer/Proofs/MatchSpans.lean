import LineLexer.Pattern.Match

/-!
# Where matches and their groups lie

A match starts where its text starts and stops within it, and each of its
groups lies within the text as well, also where it was captured by a look
ahead. What a node hands on is a place of the same text, no further back; this
is shown node by node.
-/

namespace LineLexer

namespace Pattern

structure Span.Within (length : Nat) (span : Span) : Prop where
  start_le : span.start ≤ span.stop
  stop_le : span.stop ≤ length

theorem Span.of_prefix (span : Span) (text : Text) : span.of text <+: text.drop span.start :=
  List.take_prefix _ _

namespace State

structure Within (text : Text) (s : State) : Prop where
  text_eq : s.text = text
  position : s.position = s.before.length
  groups : ∀ g ∈ s.groups, g.2.Within text.length

variable {text : Text} {s : State}

theorem Within.position_le (h : s.Within text) : s.position ≤ text.length := by
  rw [h.position, ← h.text_eq, State.text, List.length_append, List.length_reverse]
  omega

theorem Within.span? (h : s.Within text) {number : Nat} {span : Span}
    (hspan : s.span? number = some span) : span.Within text.length := by
  unfold State.span? at hspan
  obtain ⟨g, hfind, rfl⟩ := Option.map_eq_some_iff.1 hspan
  exact h.groups g (List.mem_of_find?_eq_some hfind)

theorem Within.advance (h : s.Within text) :
    s.advance.Within text ∧ s.position ≤ s.advance.position := by
  unfold State.advance
  split
  · exact ⟨h, Nat.le_refl _⟩
  · rename_i c r hrest
    refine ⟨⟨?_, ?_, h.groups⟩, Nat.le_succ _⟩
    · have htext := h.text_eq
      simp only [State.text, hrest] at htext
      simpa [State.text] using htext
    · simp [h.position]

theorem Within.retreat (h : s.Within text) :
    s.retreat.Within text ∧ s.retreat.position = s.position - 1 := by
  have hposition := h.position
  unfold State.retreat
  split
  · rename_i hbefore
    refine ⟨h, ?_⟩
    simp only [hbefore, List.length_nil] at hposition
    omega
  · rename_i c b hbefore
    refine ⟨⟨?_, ?_, h.groups⟩, rfl⟩
    · have htext := h.text_eq
      simp only [State.text, hbefore] at htext
      simpa [State.text] using htext
    · simp [hposition, hbefore]

theorem Within.advanceBy (h : s.Within text) (n : Nat) :
    (s.advanceBy n).Within text ∧ s.position ≤ (s.advanceBy n).position := by
  induction n generalizing s with
  | zero => exact ⟨h, Nat.le_refl _⟩
  | succ n ih =>
    obtain ⟨hnext, hle⟩ := h.advance
    obtain ⟨hlast, hle'⟩ := ih hnext
    exact ⟨hlast, Nat.le_trans hle hle'⟩

theorem Within.retreatBy (h : s.Within text) (n : Nat) :
    (s.retreatBy n).Within text ∧ (s.retreatBy n).position = s.position - n := by
  induction n generalizing s with
  | zero => exact ⟨h, rfl⟩
  | succ n ih =>
    obtain ⟨hprev, hposition⟩ := h.retreat
    obtain ⟨hlast, hposition'⟩ := ih hprev
    refine ⟨hlast, ?_⟩
    rw [State.retreatBy, hposition', hposition]
    omega

theorem position_advanceBy {n : Nat} (hn : n ≤ s.rest.length) :
    (s.advanceBy n).position = s.position + n := by
  induction n generalizing s with
  | zero => rfl
  | succ n ih =>
    cases hrest : s.rest with
    | nil => simp [hrest] at hn
    | cons c r =>
      have hnext : s.advance.rest = r ∧ s.advance.position = s.position + 1 := by
        simp [State.advance, hrest]
      have hlast := ih (s := s.advance) (by rw [hnext.1]; simp [hrest] at hn; omega)
      rw [State.advanceBy, hlast, hnext.2]
      omega

end State

/-- What a step of matching hands on is a place of the same text, no further back. -/
def Forward (text : Text) (step : Next → Next) : Prop :=
  ∀ next s t, s.Within text → step next s = some t →
    ∃ u, u.Within text ∧ s.position ≤ u.position ∧ next u = some t

theorem givingBack_eq_some {next : Next} {n : Nat} {s t : State}
    (h : givingBack next n s = some t) : ∃ k ≤ n, next (s.retreatBy k) = some t := by
  induction n generalizing s with
  | zero => exact ⟨0, Nat.le_refl _, h⟩
  | succ n ih =>
    unfold givingBack at h
    split at h
    · rename_i u hu
      exact ⟨0, Nat.zero_le _, hu.trans h⟩
    · obtain ⟨k, hk, hnext⟩ := ih h
      exact ⟨k + 1, Nat.succ_le_succ hk, hnext⟩

theorem takingMore_eq_some {next : Next} {n : Nat} {s t : State}
    (h : takingMore next n s = some t) : ∃ k ≤ n, next (s.advanceBy k) = some t := by
  induction n generalizing s with
  | zero => exact ⟨0, Nat.le_refl _, h⟩
  | succ n ih =>
    unfold takingMore at h
    split at h
    · rename_i u hu
      exact ⟨0, Nat.zero_le _, hu.trans h⟩
    · obtain ⟨k, hk, hnext⟩ := ih h
      exact ⟨k + 1, Nat.succ_le_succ hk, hnext⟩

theorem runLength_le (test : CharTest) (max : Option Nat) (s : State) :
    runLength test max s ≤ s.rest.length := by
  have hrun := (List.takeWhile_prefix test.holds (l := s.rest)).length_le
  unfold runLength
  split
  · exact hrun
  · exact Nat.le_trans (Nat.min_le_right _ _) hrun

theorem forward_matchRepeatOne (text : Text) (test : CharTest) (min : Nat) (max : Option Nat)
    (greedy : Bool) : Forward text (matchRepeatOne test min max greedy) := by
  intro next s t hs h
  have hrun := runLength_le test max s
  unfold matchRepeatOne at h
  simp only at h
  split at h
  · cases h
  · rename_i hmin
    split at h
    · obtain ⟨k, hk, hnext⟩ := givingBack_eq_some h
      obtain ⟨hfar, -⟩ := hs.advanceBy (runLength test max s)
      obtain ⟨hback, hposition⟩ := hfar.retreatBy k
      refine ⟨_, hback, ?_, hnext⟩
      rw [hposition, State.position_advanceBy hrun]
      omega
    · obtain ⟨k, -, hnext⟩ := takingMore_eq_some h
      obtain ⟨hleast, hle⟩ := hs.advanceBy min
      obtain ⟨hmore, hle'⟩ := hleast.advanceBy k
      exact ⟨_, hmore, Nat.le_trans hle hle', hnext⟩

theorem forward_matchAgain (text : Text) (number : Nat) (rule : CaseRule) :
    Forward text (matchAgain number rule) := by
  intro next s t hs h
  unfold matchAgain at h
  split at h
  · cases h
  · simp only at h
    split at h
    · obtain ⟨hfar, hle⟩ := hs.advanceBy _
      exact ⟨_, hfar, hle, h⟩
    · cases h

theorem forward_afterLook {text : Text} {negated : Bool} (look : State → Option State)
    (hlook : ∀ s t, s.Within text → look s = some t → t.Within text) :
    Forward text fun next s => afterLook negated next s (look s) := by
  intro next s t hs h
  simp only [afterLook] at h
  split at h
  · rename_i found hfound
    have hfound' := hlook s found hs hfound
    exact ⟨{ s with groups := found.groups }, ⟨hs.text_eq, hs.position, hfound'.groups⟩,
      Nat.le_refl _, h⟩
  · exact ⟨s, hs, Nat.le_refl _, h⟩
  · cases h

theorem Forward.turns {text : Text} {body : Next → Next} (hbody : Forward text body) (min : Nat)
    (max : Option Nat) (greedy : Bool) (fuel count : Nat) (last : Option Nat) :
    Forward text fun next => turns body min max greedy next fuel count last := by
  intro next s t hs h
  induction fuel generalizing count last s with
  | zero => cases h
  | succ fuel ih =>
    have more : ∀ {count last}, body (Pattern.turns body min max greedy next fuel count last) s = some t →
        ∃ u, u.Within text ∧ s.position ≤ u.position ∧ next u = some t := by
      intro count last hmore
      obtain ⟨u, hu, hle, hrest⟩ := hbody _ _ _ hs hmore
      obtain ⟨v, hv, hle', hnext⟩ := ih _ _ _ hu hrest
      exact ⟨v, hv, Nat.le_trans hle hle', hnext⟩
    simp only [Pattern.turns] at h
    split at h
    · exact more h
    · split at h
      · split at h
        · split at h
          · rename_i found hfound
            exact more (hfound.trans h)
          · exact ⟨s, hs, Nat.le_refl _, h⟩
        · split at h
          · rename_i found hfound
            exact ⟨s, hs, Nat.le_refl _, hfound.trans h⟩
          · exact more h
      · exact ⟨s, hs, Nat.le_refl _, h⟩

/-- Every node hands on places of the text it is matched in. -/
theorem forward_run (text : Text) (n : Node) : Forward text n.run := by
  induction n with
  | empty => exact fun next s t hs h => ⟨s, hs, Nat.le_refl _, h⟩
  | one test =>
    intro next s t hs h
    simp only [Node.run] at h
    split at h
    · split at h
      · exact ⟨_, hs.advance.1, hs.advance.2, h⟩
      · cases h
    · cases h
  | anchor a =>
    intro next s t hs h
    simp only [Node.run] at h
    split at h
    · exact ⟨s, hs, Nat.le_refl _, h⟩
    · cases h
  | seq a b iha ihb =>
    intro next s t hs h
    obtain ⟨u, hu, hle, hb⟩ := iha _ _ _ hs h
    obtain ⟨v, hv, hle', hnext⟩ := ihb _ _ _ hu hb
    exact ⟨v, hv, Nat.le_trans hle hle', hnext⟩
  | alt a b iha ihb =>
    intro next s t hs h
    simp only [Node.run] at h
    split at h
    · rename_i found hfound
      exact iha _ _ _ hs (hfound.trans h)
    · exact ihb _ _ _ hs h
  | group number body ih =>
    intro next s t hs h
    obtain ⟨u, hu, hle, hnext⟩ := ih _ _ _ hs h
    refine ⟨{ u with groups := (number, ⟨s.position, u.position⟩) :: u.groups },
      ⟨hu.text_eq, hu.position, ?_⟩, hle, hnext⟩
    intro g hg
    rcases List.mem_cons.1 hg with rfl | hg
    · exact ⟨hle, hu.position_le⟩
    · exact hu.groups g hg
  | again number rule => exact forward_matchAgain text number rule
  | repeatOne test min max greedy => exact forward_matchRepeatOne text test min max greedy
  | repeatAny body min max greedy ih =>
    exact fun next s t hs h => ih.turns min max greedy _ _ _ next s t hs h
  | atomic body ih =>
    intro next s t hs h
    simp only [Node.run] at h
    split at h
    · rename_i first hfirst
      obtain ⟨u, hu, hle, hlast⟩ := ih _ _ _ hs hfirst
      obtain rfl := Option.some.inj hlast
      exact ⟨u, hu, hle, h⟩
    · cases h
  | conditional number yes no ihyes ihno =>
    intro next s t hs h
    simp only [Node.run] at h
    split at h
    · exact ihyes _ _ _ hs h
    · exact ihno _ _ _ hs h
  | ahead negated body ih =>
    refine forward_afterLook (body.run some) fun s t hs h => ?_
    obtain ⟨u, hu, -, hlast⟩ := ih _ _ _ hs h
    exact Option.some.inj hlast ▸ hu
  | behind negated width body ih =>
    intro next s t hs h
    simp only [Node.run] at h
    split at h
    · exact forward_afterLook (fun _ => none) (by simp) next s t hs h
    · refine forward_afterLook (fun s => body.run some (s.retreatBy width)) ?_ next s t hs h
      intro s t hs h
      obtain ⟨u, hu, -, hlast⟩ := ih _ _ _ (hs.retreatBy width).1 h
      exact Option.some.inj hlast ▸ hu

/-- A pattern whose groups, if it has any, are one around all of it. -/
def CapturesWhole (p : Pattern) : Prop :=
  p.groups = 0 ∨ p.groups = 1 ∧ ∃ body, p.node = .group 1 body

end Pattern

structure Match.Within (text : Text) (m : Match) : Prop where
  text_eq : m.text = text
  start : m.whole.start = 0
  stop_le : m.whole.stop ≤ text.length
  groups : ∀ span, some span ∈ m.groups → span.Within text.length

theorem Pattern.within_of_match? {p : Pattern} {text : Text} {m : Match}
    (h : p.match? text = some m) : m.Within text := by
  unfold Pattern.match? at h
  obtain ⟨t, hrun, rfl⟩ := Option.map_eq_some_iff.1 h
  have hstart : State.Within text { rest := text } := ⟨rfl, rfl, by simp⟩
  obtain ⟨u, hu, -, hlast⟩ := forward_run text p.node _ _ _ hstart hrun
  obtain rfl : u = t := Option.some.inj hlast
  refine ⟨rfl, rfl, hu.position_le, ?_⟩
  intro span hmem
  obtain ⟨n, -, hspan⟩ := List.mem_map.1 hmem
  exact hu.span? hspan

theorem Pattern.groups_of_match? {p : Pattern} (hp : p.CapturesWhole) {text : Text} {m : Match}
    (h : p.match? text = some m) : m.groups = [] ∨ m.groups = [some m.whole] := by
  unfold Pattern.match? at h
  obtain ⟨t, hrun, rfl⟩ := Option.map_eq_some_iff.1 h
  rcases hp with hnone | ⟨hone, body, hnode⟩
  · left
    simp [hnone]
  · right
    rw [hnode] at hrun
    have hstart : State.Within text { rest := text } := ⟨rfl, rfl, by simp⟩
    obtain ⟨u, -, -, hlast⟩ := forward_run text body _ _ _ hstart hrun
    obtain rfl := Option.some.inj hlast
    simp [hone, State.span?]

end LineLexer
