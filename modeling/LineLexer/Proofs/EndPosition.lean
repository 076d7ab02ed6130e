import LineLexer.Proofs.SourcePositions
import Mathlib

/-!
# Positions told at the end

The end of the input stands behind the last character and can be taken together with characters in
front of it. What is taken so leaves no trace in the position: the source stays in front of it,
while everything has been taken. So at the end the column falls short of the end of the text by the
characters that were taken along with it, and is right where there were none.
-/

namespace LineLexer.Source

open Input (visible)
open Text (lineBehind columnBehind)

namespace Request

def HidesNoNewline (q : Request) (s : Source) : Prop :=
  match q, (q.run s).1 with
  | accept n, .char _ => '\n' ∉ s.unaccepted.take (n.value.toNat - 1)
  | _, _ => True

def takenAlong (q : Request) (s : Source) : Text :=
  match q, (q.run s).1 with
  | accept _, .char none => s.unaccepted
  | _, _ => []

end Request

def HideNoNewline : List Request → Source → Prop
  | [], _ => True
  | q :: qs, s => q.HidesNoNewline s ∧ HideNoNewline qs (q.run s).2

def takenAlong : List Request → Source → Text
  | [], _ => []
  | q :: qs, s => q.takenAlong s ++ takenAlong qs (q.run s).2

theorem after_append (qs rs : List Request) (s : Source) : after (qs ++ rs) s = after rs (after qs s) :=
  List.foldl_append

section Places

variable {capacity : Nat} {text along : Text} {s : Source}

/-- The source tells the place behind a text, and in front of what was taken along with the end. -/
structure Tells (capacity : Nat) (text told along : Text) (s : Source) : Prop where
  spot : AtSpot capacity text ⟨(told ++ along).length, lineBehind told, columnBehind told⟩ s
  taken : told ++ along <+: text
  newline : '\n' ∉ along
  ended : along ≠ [] → told ++ along = text

variable {told : Text}

theorem Tells.append_unaccepted (h : Tells capacity text told along s) :
    told ++ along ++ s.unaccepted = text := by
  rw [h.spot.unaccepted]
  exact List.prefix_iff_eq_append.1 h.taken

theorem Tells.run (h : Tells capacity text told along s) (q : Request) (hnone : q.HidesNoNewline s) :
    ∃ told', Tells capacity text told' (along ++ q.takenAlong s) (q.run s).2 := by
  have htext := h.append_unaccepted
  have hstill {t : Source} (hspot : AtSpot capacity text
      ⟨(told ++ along).length, lineBehind told, columnBehind told⟩ t) :
      Tells capacity text told (along ++ []) t := by
    rw [List.append_nil]
    exact ⟨hspot, h.taken, h.newline, h.ended⟩
  cases q with
  | lookAhead n => exact ⟨told, hstill (h.spot.stands nofun)⟩
  | isEnd => exact ⟨told, hstill (h.spot.stands nofun)⟩
  | accept n =>
    have hends := h.spot.accepts n
    unfold Request.HidesNoNewline at hnone
    unfold Request.takenAlong
    generalize (Request.accept n).run s = x at hends hnone
    cases hends with
    | refused reply t hreply hspot =>
      cases reply with
      | char c? => exact absurd rfl (hreply c?)
      | _ => exact ⟨told, hstill hspot⟩
    | char m c t hn hlast hspot =>
      have hcharacter : s.unaccepted ≠ [] := by
        intro hnil
        simp [hnil] at hlast
      have halong : along = [] := by
        by_contra hsome
        have hend := h.ended hsome
        rw [← htext] at hend
        exact hcharacter (List.append_right_eq_self.1 hend.symm)
      subst halong
      rw [List.append_nil] at htext hspot
      have hline : '\n' ∉ s.unaccepted.take (n.value.toNat - 1) := hnone
      rw [hn, Nat.add_sub_cancel] at hline
      refine ⟨told ++ s.unaccepted.take (m + 1), ?_, ?_, List.not_mem_nil, nofun⟩
      · have hpass := Spot.pass_behind hlast hline told
        rw [List.append_nil, List.append_nil]
        rwa [← Spot.behind, hpass] at hspot
      · rw [List.append_nil, List.append_nil, ← htext, List.prefix_append_right_inj]
        exact List.take_prefix _ _
    | atEnd t hn hspot =>
      have hline : '\n' ∉ s.unaccepted.take (n.value.toNat - 1) := hnone
      rw [List.take_of_length_le (by omega)] at hline
      have hall : told ++ (along ++ s.unaccepted) = text := by rw [← List.append_assoc, htext]
      refine ⟨told, ?_, hall ▸ List.prefix_rfl, ?_, fun _ => hall⟩
      · rwa [hall]
      · simp only [List.mem_append, not_or]
        exact ⟨h.newline, hline⟩

theorem Tells.after {qs : List Request} (h : Tells capacity text told along s)
    (hnone : HideNoNewline qs s) :
    ∃ told', Tells capacity text told' (along ++ takenAlong qs s) (after qs s) := by
  induction qs generalizing told along s with
  | nil => exact ⟨told, by rwa [takenAlong, List.append_nil]⟩
  | cons q qs ih =>
    obtain ⟨hfirst, hrest⟩ := hnone
    obtain ⟨told', hnext⟩ := h.run q hfirst
    rw [takenAlong, ← List.append_assoc]
    exact ih hnext hrest

end Places

theorem unaccepted_of_atEnd {capacity : Nat} {text : Text} {p : Spot} {s : Source}
    (h : AtSpot capacity text p s) {n : Count} (hend : ((Request.accept n).run s).1 = .char none) :
    ((Request.accept n).run s).2.unaccepted = [] := by
  have hends := h.accepts n
  generalize (Request.accept n).run s = x at hends hend
  cases hends with
  | refused reply t hreply _ => exact absurd hend (hreply none)
  | char m c t _ _ _ => cases hend
  | atEnd t _ hspot => rw [hspot.unaccepted, List.drop_length]

/-- Over a stream that does not fail, whenever the end is taken the line is that of the end of the
visible text, and the column lacks what was ever taken along with the end. -/
theorem endPosition_ofStream {stream : Input.CharStream} {t : Text} (h : stream.Delivers t)
    {name : Option Text} {lookahead : Json} {config : Config} {s : Source}
    (hopen : ofStream stream name lookahead config = .ok s) (qs : List Request) (n : Count)
    (hnone : HideNoNewline (qs ++ [.accept n]) s)
    (hend : ((Request.accept n).run (after qs s)).1 = .char none) :
    let e := after (qs ++ [.accept n]) s
    let along := takenAlong (qs ++ [.accept n]) s
    along <:+ visible t ∧ e.line = lineBehind (visible t) ∧
      e.column + along.length = columnBehind (visible t) ∧
      ((e.line, e.column) = (lineBehind (visible t), columnBehind (visible t)) ↔ along = []) := by
  intro e along
  have hstart := behind_start h hopen
  have htells : Tells s.window.capacity (visible t) [] [] s :=
    ⟨hstart.spot, List.nil_prefix, List.not_mem_nil, nofun⟩
  obtain ⟨told, hlast⟩ := htells.after hnone
  rw [List.nil_append] at hlast
  have hrest : e.unaccepted = [] := by
    show (after (qs ++ [.accept n]) s).unaccepted = []
    rw [after_append]
    exact unaccepted_of_atEnd (hstart.spot.after qs) hend
  have hall : told ++ along = visible t := by
    rw [← hlast.append_unaccepted, hrest, List.append_nil]
  have hline : e.line = lineBehind (visible t) := by
    rw [← hall, hlast.spot.line, lineBehind, lineBehind, List.count_append,
      List.count_eq_zero.2 hlast.newline, Nat.add_zero]
  have hcolumn : e.column + along.length = columnBehind (visible t) := by
    rw [← hall, hlast.spot.column, Text.columnBehind_append_line hlast.newline]
  refine ⟨⟨told, hall⟩, hline, hcolumn, ?_⟩
  rw [Prod.mk.injEq, and_iff_right hline, ← List.length_eq_zero_iff]
  omega

theorem endPosition_ofStream_nextLine :
    ∃ s, ofStream (.memory { text := "a\r\nb".toList }) none (.int 2) {} = .ok s ∧
      HideNoNewline [.accept (2 : Nat), .accept (1 : Nat), .accept (1 : Nat)] s ∧
      ((Request.accept (1 : Nat)).run (after [.accept (2 : Nat), .accept (1 : Nat)] s)).1 = .char none ∧
      (after [.accept (2 : Nat), .accept (1 : Nat), .accept (1 : Nat)] s).line = 2 ∧
      (after [.accept (2 : Nat), .accept (1 : Nat), .accept (1 : Nat)] s).column = 2 := by
  have hdelivers : (Input.CharStream.memory { text := "a\r\nb".toList }).Delivers "a\r\nb".toList :=
    ⟨rfl, fun _ _ => rfl⟩
  obtain ⟨s, hopen, hnone, hend, halong⟩ : ∃ s,
      ofStream (.memory { text := "a\r\nb".toList }) none (.int 2) {} = .ok s ∧
      HideNoNewline [.accept (2 : Nat), .accept (1 : Nat), .accept (1 : Nat)] s ∧
      ((Request.accept (1 : Nat)).run (after [.accept (2 : Nat), .accept (1 : Nat)] s)).1 = .char none ∧
      takenAlong [.accept (2 : Nat), .accept (1 : Nat), .accept (1 : Nat)] s = [] :=
    ⟨_, rfl, ⟨by cbv; exact (by decide : '\n' ∉ ['a']), by cbv; exact List.not_mem_nil,
      by cbv; exact List.not_mem_nil, trivial⟩, by cbv, by cbv⟩
  obtain ⟨-, -, -, hposition⟩ := endPosition_ofStream hdelivers hopen
    [.accept (2 : Nat), .accept (1 : Nat)] (1 : Nat) hnone hend
  obtain ⟨hline, hcolumn⟩ := Prod.mk.inj (hposition.2 halong)
  exact ⟨s, hopen, hnone, hend, hline, hcolumn⟩

/-- A character is taken along with the end, and the position is still in front of it. -/
theorem endPosition_takenAlong :
    ∃ s, ofStream (.memory { text := ['a'] }) none (.int 2) {} = .ok s ∧
      HideNoNewline [.accept (2 : Nat)] s ∧
      ((Request.accept (2 : Nat)).run s).1 = .char none ∧
      (((Request.accept (2 : Nat)).run s).2.line, ((Request.accept (2 : Nat)).run s).2.column) = (1, 1) ∧
      (lineBehind (visible ['a']), columnBehind (visible ['a'])) = (1, 2) :=
  ⟨_, rfl, ⟨by cbv; exact (by decide : '\n' ∉ ['a']), trivial⟩, by cbv, by cbv, by cbv⟩

end LineLexer.Source
