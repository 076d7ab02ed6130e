import LineLexer.Location
import Mathlib.Data.List.Induction
import Mathlib.Data.List.TakeWhile

/-!
# Lines and columns of a text

The place behind a text is told by the newlines in it and by what follows the
last of them. Texts without a newline move a place to the right, texts that
end with one move it down. Two beginnings of one text that lead to the same
place are equal, so a line and a column denote at most one index.
-/

namespace LineLexer

namespace Text

def lineBehind (before : Text) : Nat := before.count '\n' + 1

def columnBehind (before : Text) : Nat := (before.reverse.takeWhile (· ≠ '\n')).length + 1

def WholeLines (u : Text) : Prop := u = [] ∨ u.getLast? = some '\n'

theorem WholeLines.newline_mem {u : Text} (h : u.WholeLines) (hu : u ≠ []) : '\n' ∈ u :=
  List.mem_of_getLast? (h.resolve_left hu)

theorem WholeLines.suffix {u v : Text} (h : u.WholeLines) (hv : v <:+ u) : v.WholeLines := by
  obtain ⟨w, rfl⟩ := hv
  by_cases hnil : v = []
  · exact .inl hnil
  · right
    have hlast := h.resolve_left (by simp [hnil])
    rw [List.getLast?_append, List.getLast?_eq_some_getLast hnil, Option.some_or] at hlast
    rw [List.getLast?_eq_some_getLast hnil, hlast]

theorem WholeLines.drop {u : Text} (h : u.WholeLines) (n : Nat) : WholeLines (u.drop n) :=
  h.suffix (List.drop_suffix n u)

def firstLine (u : Text) : Text := u.takeWhile (· ≠ '\n')

theorem not_newline {b : Text} (hb : '\n' ∉ b) : ∀ c ∈ b, decide (c ≠ '\n') = true := by
  intro c hc
  have hne : c ≠ '\n' := fun h => hb (h ▸ hc)
  simpa using hne

theorem newline_notMem_firstLine (u : Text) : '\n' ∉ u.firstLine := by
  intro h
  have hall := List.mem_takeWhile_imp h
  simp at hall

theorem firstLine_append_newline {b : Text} (hb : '\n' ∉ b) (v : Text) :
    firstLine (b ++ '\n' :: v) = b := by
  unfold firstLine
  rw [List.takeWhile_append_of_pos (not_newline hb)]
  simp

theorem firstLine_prefix (u : Text) : u.firstLine <+: u := List.takeWhile_prefix _

theorem take_firstLine {u : Text} {n : Nat} (hn : n ≤ u.firstLine.length) :
    u.firstLine.take n = u.take n := by
  obtain ⟨v, hv⟩ := u.firstLine_prefix
  have htake : (u.firstLine ++ v).take n = u.firstLine.take n := List.take_append_of_le_length hn
  rw [← htake, hv]

theorem eq_firstLine_append {u : Text} (h : '\n' ∈ u) :
    ∃ v, u = u.firstLine ++ '\n' :: v := by
  obtain ⟨a, v, rfl, ha⟩ := List.eq_append_cons_of_mem h
  exact ⟨v, by rw [firstLine_append_newline ha]⟩

theorem length_firstLine_lt {u : Text} (h : '\n' ∈ u) : u.firstLine.length < u.length := by
  obtain ⟨v, hv⟩ := eq_firstLine_append h
  have hlen := congrArg List.length hv
  rw [List.length_append, List.length_cons] at hlen
  omega

theorem firstLine_append {u : Text} (h : '\n' ∈ u) (v : Text) :
    (u ++ v).firstLine = u.firstLine := by
  obtain ⟨w, hu⟩ := eq_firstLine_append h
  have huv : u ++ v = u.firstLine ++ '\n' :: (w ++ v) := by
    rw [← List.cons_append, ← List.append_assoc, ← hu]
  rw [huv, firstLine_append_newline u.newline_notMem_firstLine]

theorem firstLine_concat_newline (u : Text) : firstLine (u ++ ['\n']) = u.firstLine := by
  by_cases hu : '\n' ∈ u
  · exact firstLine_append hu ['\n']
  · rw [firstLine_append_newline hu, firstLine, List.takeWhile_eq_self_iff.2 (not_newline hu)]

/-- Whether a text goes on with `t` on its first line. By itself the newline that ends the line
counts as well. -/
def goesOn (t u : Text) : Bool :=
  t.isPrefixOf u.firstLine || t == ['\n'] && u.head? == some '\n'

theorem prefix_of_goesOn {t u : Text} (h : goesOn t u = true) : t <+: u := by
  rcases Bool.or_eq_true_iff.1 h with hline | hnewline
  · exact (List.isPrefixOf_iff_prefix.1 hline).trans u.firstLine_prefix
  · obtain ⟨ht, hu⟩ := Bool.and_eq_true_iff.1 hnewline
    have ht : t = ['\n'] := by simpa using ht
    have hu : u.head? = some '\n' := by simpa using hu
    obtain ⟨v, hv⟩ := List.head?_eq_some_iff.1 hu
    exact ⟨v, by rw [ht, hv]; rfl⟩

theorem prefix_firstLine_of_goesOn {t : Text} {c : Char} {u : Text} (hc : c ≠ '\n')
    (h : goesOn t (c :: u) = true) : t <+: firstLine (c :: u) := by
  rcases Bool.or_eq_true_iff.1 h with hline | hnewline
  · exact List.isPrefixOf_iff_prefix.1 hline
  · simp [hc] at hnewline

theorem goesOn_append {u : Text} (h : u.WholeLines) (hu : u ≠ []) (t v : Text) :
    goesOn t (u ++ v) = goesOn t u := by
  have hline := firstLine_append (h.newline_mem hu) v
  obtain ⟨c, w, rfl⟩ := List.exists_cons_of_ne_nil hu
  rw [goesOn, goesOn, hline]
  rfl

theorem take_beq_eq_isPrefixOf (t u : Text) : (u.take t.length == t) = t.isPrefixOf u := by
  rw [Bool.eq_iff_iff, beq_iff_eq, List.isPrefixOf_iff_prefix, List.prefix_iff_eq_take, eq_comm]

theorem lineBehind_append (a b : Text) : lineBehind (a ++ b) = a.count '\n' + lineBehind b := by
  simp only [lineBehind, List.count_append]
  omega

theorem columnBehind_append_line {b : Text} (hb : '\n' ∉ b) (a : Text) :
    columnBehind (a ++ b) = columnBehind a + b.length := by
  have hrev : '\n' ∉ b.reverse := by simpa using hb
  simp only [columnBehind, List.reverse_append]
  rw [List.takeWhile_append_of_pos (not_newline hrev)]
  simp only [List.length_append, List.length_reverse]
  omega

theorem columnBehind_concat_newline (a : Text) : columnBehind (a ++ ['\n']) = 1 := by
  simp [columnBehind]

theorem columnBehind_append_newline (a b : Text) :
    columnBehind (a ++ '\n' :: b) = columnBehind ('\n' :: b) := by
  induction b using List.reverseRecOn with
  | nil => simp [columnBehind]
  | append_singleton b c ih =>
    by_cases hc : c = '\n'
    · subst hc
      have hl := columnBehind_concat_newline (a ++ '\n' :: b)
      have hr := columnBehind_concat_newline ('\n' :: b)
      simp only [List.append_assoc, List.cons_append] at hl hr ⊢
      rw [hl, hr]
    · have hmem : '\n' ∉ [c] := by simpa using fun h => hc h.symm
      have hl := columnBehind_append_line hmem (a ++ '\n' :: b)
      have hr := columnBehind_append_line hmem ('\n' :: b)
      simp only [List.append_assoc, List.cons_append] at hl hr ⊢
      rw [hl, hr, ih]

theorem columnBehind_append_of_wholeLines {a : Text} (ha : a.WholeLines)
    (b : Text) : columnBehind (a ++ b) = columnBehind b := by
  rcases ha with rfl | ha
  · rfl
  · obtain ⟨front, rfl⟩ := List.getLast?_eq_some_iff.1 ha
    have hsplit : front ++ ['\n'] ++ b = front ++ '\n' :: b := by simp
    rw [hsplit, columnBehind_append_newline]
    by_cases hb : '\n' ∈ b
    · obtain ⟨x, y, rfl⟩ := List.append_of_mem hb
      have hl := columnBehind_append_newline ('\n' :: x) y
      rw [columnBehind_append_newline x y]
      exact hl
    · have hl := columnBehind_append_line hb ['\n']
      have hr := columnBehind_append_line hb []
      simp only [List.cons_append, List.nil_append] at hl hr
      rw [hl, hr]
      simp [columnBehind]

end Text

namespace Location

open Text

def behind (file before : Text) : Location := ⟨file, lineBehind before, columnBehind before⟩

def down (l : Location) (lines : Nat) : Location := { l with line := l.line + lines }

@[simp] theorem offset_zero (l : Location) : l.offset 0 = l := by
  simp [offset]

theorem behind_append_line {b : Text} (hb : '\n' ∉ b) (file a : Text) :
    behind file (a ++ b) = (behind file a).offset b.length := by
  have hcount : b.count '\n' = 0 := List.count_eq_zero.2 hb
  have hcol := columnBehind_append_line hb a
  simp only [behind, offset, lineBehind, List.count_append, hcount, hcol]
  simp

theorem behind_append_take {u : Text} {n : Nat} (hn : n ≤ u.firstLine.length)
    (file before : Text) : behind file (before ++ u.take n) = (behind file before).offset n := by
  have hline : '\n' ∉ u.firstLine.take n :=
    fun h => u.newline_notMem_firstLine (List.mem_of_mem_take h)
  rw [← take_firstLine hn, behind_append_line hline, List.length_take, Nat.min_eq_left hn]

theorem behind_append_of_wholeLines {a : Text} (ha : a.WholeLines)
    (file b : Text) : behind file (a ++ b) = (behind file b).down (a.count '\n') := by
  have hline := lineBehind_append a b
  have hcol := columnBehind_append_of_wholeLines ha b
  simp only [behind, down, hline, hcol, Location.mk.injEq, true_and, and_true]
  omega

/-- A line and a column denote at most one index of a text. -/
theorem behind_injective {file text a b : Text} (ha : a <+: text) (hb : b <+: text)
    (h : behind file a = behind file b) : a = b := by
  have key : ∀ {x y : Text}, x <+: y → behind file x = behind file y → x = y := by
    rintro x _ ⟨d, rfl⟩ hxy
    have hline : (lineBehind x : Int) = lineBehind (x ++ d) := congrArg Location.line hxy
    have hcount : d.count '\n' = 0 := by
      simp only [lineBehind, List.count_append] at hline
      omega
    have hd := columnBehind_append_line (List.count_eq_zero.1 hcount) x
    have hcol : (columnBehind x : Int) = columnBehind (x ++ d) := congrArg Location.column hxy
    have hnil : d = [] := List.length_eq_zero_iff.1 (by omega)
    simp [hnil]
  rcases List.prefix_or_prefix_of_prefix ha hb with hab | hba
  · exact key hab h
  · exact (key hba h.symm).symm

end Location

def Fragment.down (f : Fragment) (lines : Nat) : Fragment := ⟨f.location.down lines, f.text⟩

end LineLexer
