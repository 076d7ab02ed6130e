import LineLexer.Proofs.Session
import LineLexer.Proofs.SourceRefinement
import Mathlib

/-!
# A source and a reader show the same text

One takes single characters through a window and drops the carriage returns,
the other holds a line and reads every line end as a newline. Where each
carriage return has its newline behind it these are one text, and both tell
the same characters, the same lines and the same columns all the way to its
end. A newline that the last line lacks is the reader's own.
-/

namespace LineLexer

open Input (normalize visible withFinalNewline)
open Text (lineBehind columnBehind firstLine)

namespace Input

/-- A newline stands behind every carriage return. -/
def ReturnsPaired (t : Text) : Prop := ∀ a b, t = a ++ '\r' :: b → b.head? = some '\n'

theorem ReturnsPaired.nil : ReturnsPaired [] := fun a b h => by simp at h

theorem ReturnsPaired.cons {c : Char} {t : Text} (hc : c = '\r' → t.head? = some '\n')
    (h : ReturnsPaired t) : ReturnsPaired (c :: t) := by
  intro a b hsplit
  cases a with
  | nil =>
    obtain ⟨rfl, rfl⟩ := List.cons.inj hsplit
    exact hc rfl
  | cons d a => exact h a b (List.cons.inj hsplit).2

theorem ReturnsPaired.tail {c : Char} {t : Text} (h : ReturnsPaired (c :: t)) : ReturnsPaired t :=
  fun a b hsplit => h (c :: a) b (by rw [hsplit]; rfl)

theorem normalize_eq_visible {t : Text} (h : ReturnsPaired t) : normalize t = visible t := by
  fun_induction normalize t with
  | case1 => rfl
  | case2 r ih =>
    have hr := ih h.tail.tail
    rw [hr, visible_cons_return, visible_cons (by decide)]
  | case3 r hr ih =>
    obtain ⟨r', hr'⟩ := List.head?_eq_some_iff.1 (h [] r rfl)
    exact absurd hr' (hr r')
  | case4 c r _ hc ih =>
    rw [ih h.tail, visible_cons hc]

end Input

def Reads (fs : FileSystem) (file : Text) (config : Config) (t : Text) : Prop :=
  ∃ feed notes, Reader.Opening.decoded fs file config [] = .ok feed notes ∧ feed.Clean ∧
    feed.pieces.flatten = t

theorem reads_of_chunk {fs : FileSystem} {file : Text} {config : Config} (text : Text)
    (notes : List Note)
    (h : Reader.Opening.decoded fs file config [] = .ok ⟨[.ok text], none⟩ notes) :
    Reads fs file config text :=
  ⟨_, notes, h, ⟨rfl, by simp⟩, by simp [Input.Feed.pieces]⟩

theorem Reads.decodesTo {fs : FileSystem} {file t : Text} {config : Config}
    (h : Reads fs file config t) (hpaired : Input.ReturnsPaired t) :
    DecodesTo fs file config (visible t) := by
  obtain ⟨feed, notes, hopen, hclean, rfl⟩ := h
  exact ⟨feed, notes, hopen, hclean, (Input.normalize_eq_visible hpaired).symm⟩

namespace Source

def spotOf (u : Text) (k : Nat) : Spot := ⟨k, lineBehind (u.take k), columnBehind (u.take k)⟩

theorem pass_spotOf {u : Text} {k : Nat} {c : Char} (hc : u[k]? = some c) :
    (spotOf u k).pass 1 c = spotOf u (k + 1) := by
  have htake : u.take (k + 1) = u.take k ++ [c] := by
    rw [List.take_add_one, hc]
    rfl
  rw [spotOf, spotOf, htake, Spot.pass]
  by_cases hn : c = '\n'
  · subst hn
    rw [if_pos rfl, Text.columnBehind_concat_newline]
    simp [lineBehind]
  · have hline : '\n' ∉ [c] := by simpa using Ne.symm hn
    rw [if_neg hn, Text.columnBehind_append_line hline]
    simp [lineBehind, hn]

def afterAccept (s : Source) : Source :=
  match accept (1 : Nat) s with
  | .ok _ t => t
  | .error _ t => t

section Steps

variable {size k : Nat} {u : Text} {s : Source} {c : Char}

theorem AtSpot.accept_one (h : AtSpot size u (spotOf u k) s) (hc : u[k]? = some c) :
    ∃ t, Source.accept (1 : Nat) s = .ok (some c) t ∧ AtSpot size u (spotOf u (k + 1)) t := by
  obtain ⟨i, hplace⟩ := h.place
  have hpos := h.capacity_pos
  have hcapacity := h.capacity
  have hlt : k < u.length := (List.getElem?_eq_some_iff.1 hc).1
  obtain ⟨t, j, haccept, hplace', hstays⟩ :=
    hplace.accept 0 (1 : Nat) rfl (by simp; omega) (Nat.zero_le _)
  have hfirst : (u.drop k)[0]? = some c := by rw [List.getElem?_drop]; exact hc
  rw [show (spotOf u k).index = k from rfl, hfirst] at haccept hstays
  rw [show (spotOf u k).index = k from rfl, List.drop_drop] at hplace'
  exact ⟨t, haccept, pass_spotOf hc ▸ h.pass hstays hlt hplace'⟩

theorem AtSpot.stepped (h : AtSpot size u (spotOf u 0) s) (hk : k ≤ u.length) :
    AtSpot size u (spotOf u k) (afterAccept^[k] s) := by
  induction k with
  | zero => exact h
  | succ k ih =>
    have hspot := ih (by omega)
    obtain ⟨t, haccept, hspot'⟩ := hspot.accept_one (List.getElem?_eq_getElem (by omega))
    rw [Function.iterate_succ_apply', afterAccept, haccept]
    exact hspot'

theorem AtSpot.lookAhead_of_lt (h : AtSpot size u (spotOf u k) s) {n : Nat} (hn : n < size) :
    ∃ t, Source.lookAhead n s = .ok u[k + n]? t := by
  obtain ⟨i, hplace⟩ := h.place
  have hcapacity := h.capacity
  obtain ⟨t, j, hlook, -, -, -⟩ :=
    hplace.lookAhead (n := (n : Nat)) (by simp) (by simp; omega)
  refine ⟨t, hlook.trans ?_⟩
  rw [List.getElem?_drop]
  rfl

end Steps

end Source

namespace Reader

variable {text : Text} {r : Reader} {k : Nat}

theorem At.stepped (h : At [] text r) (hk : k ≤ text.length) :
    At (text.take k) (text.drop k) ((Op.after Reader.next)^[k] r) := by
  induction k with
  | zero => exact h
  | succ k ih =>
    have hplace := ih (by omega)
    have hlt : k < text.length := by omega
    rw [List.drop_eq_getElem_cons hlt] at hplace
    obtain ⟨s, hs, hplace', -⟩ := hplace.next
    rw [Function.iterate_succ_apply', Op.after_of_ok hs, List.take_add_one,
      List.getElem?_eq_getElem hlt]
    exact hplace'

end Reader

/-- At one index of a text both tell the same place and the same character, and see the same of
the line. Behind the last line a newline is added for one of them only. -/
structure Agree (size : Nat) (u : Text) (k : Nat) (s : Source) (r : Reader) : Prop where
  line : r.lineNumber = s.line
  column : r.column = s.column
  taken : ∃ c s' r', u[k]? = some c ∧ s.accept (1 : Nat) = .ok (some c) s' ∧
    Reader.next r = .ok (some c) r'
  ahead : ∀ n < size, n ≤ (firstLine (u.drop k)).length → k + n < u.length →
    ∃ c s', u[k + n]? = some c ∧ s.lookAhead n = .ok (some c) s' ∧ r.lookAhead n = .ok (some c)
  added : ∀ n < size, '\n' ∉ u.drop k → k + n = u.length →
    ∃ s', s.lookAhead n = .ok none s' ∧ r.lookAhead n = .ok (some '\n')

section Agreement

variable {size k : Nat} {u : Text} {s : Source} {r : Reader}

theorem Input.withFinalNewline_cases (u : Text) :
    (u.WholeLines ∧ withFinalNewline u = u) ∨
      ¬u.WholeLines ∧ withFinalNewline u = u ++ ['\n'] := by
  unfold withFinalNewline Text.WholeLines
  by_cases hu : u.isEmpty || u.getLast? == some '\n'
  · rw [if_pos hu]
    simp only [Bool.or_eq_true, List.isEmpty_iff, beq_iff_eq] at hu
    exact .inl ⟨hu, rfl⟩
  · rw [if_neg hu]
    simp only [Bool.or_eq_true, List.isEmpty_iff, beq_iff_eq] at hu
    exact .inr ⟨hu, rfl⟩

theorem Input.getElem?_withFinalNewline (hk : k < u.length) : (withFinalNewline u)[k]? = u[k]? := by
  obtain ⟨-, hu⟩ | ⟨-, hu⟩ := withFinalNewline_cases u
  · rw [hu]
  · rw [hu, List.getElem?_append_left hk]

theorem Input.take_withFinalNewline (hk : k ≤ u.length) :
    (withFinalNewline u).take k = u.take k := by
  obtain ⟨-, hu⟩ | ⟨-, hu⟩ := withFinalNewline_cases u
  · rw [hu]
  · rw [hu, List.take_append_of_le_length hk]

theorem Input.firstLine_drop_withFinalNewline (hk : k ≤ u.length) :
    firstLine ((withFinalNewline u).drop k) = firstLine (u.drop k) := by
  obtain ⟨-, hu⟩ | ⟨-, hu⟩ := withFinalNewline_cases u
  · rw [hu]
  · rw [hu, List.drop_append_of_le_length hk, Text.firstLine_concat_newline]

theorem Input.drop_withFinalNewline_ne_nil (hk : k < u.length) :
    (withFinalNewline u).drop k ≠ [] := by
  have hc := (getElem?_withFinalNewline hk).trans (List.getElem?_eq_getElem hk)
  have hlt := (List.getElem?_eq_some_iff.1 hc).1
  rw [Ne, List.drop_eq_nil_iff]
  omega

theorem Input.getElem?_length_withFinalNewline (hk : k < u.length) (h : '\n' ∉ u.drop k) :
    (withFinalNewline u)[u.length]? = some '\n' := by
  obtain ⟨hlines, -⟩ | ⟨-, hu⟩ := withFinalNewline_cases u
  · have hne : u.drop k ≠ [] := by
      rw [Ne, List.drop_eq_nil_iff]
      omega
    exact absurd ((hlines.drop k).newline_mem hne) h
  · rw [hu, List.getElem?_concat_length]

section Reading

variable (hr : Reader.At ((withFinalNewline u).take k) ((withFinalNewline u).drop k) r)
  (hk : k < u.length)

include hr hk

theorem Reader.At.location_of_lt : r.location = .behind r.file (u.take k) := by
  have hplace := hr.location
  rwa [Location.between_of_ne_nil (Input.drop_withFinalNewline_ne_nil hk),
    Input.take_withFinalNewline (Nat.le_of_lt hk)] at hplace

theorem Reader.At.next_of_lt : ∃ r', Reader.next r = .ok (some u[k]) r' := by
  have hc := (Input.getElem?_withFinalNewline hk).trans (List.getElem?_eq_getElem hk)
  obtain ⟨hlt, hchar⟩ := List.getElem?_eq_some_iff.1 hc
  rw [List.drop_eq_getElem_cons hlt, hchar] at hr
  obtain ⟨r', hnext, -, -⟩ := hr.next
  exact ⟨r', hnext⟩

theorem Reader.At.lookAhead_of_le {n : Nat} (hn : n ≤ (firstLine (u.drop k)).length) :
    r.lookAhead n = .ok (withFinalNewline u)[k + n]? := by
  have hlook := hr.lookAhead n
  have hempty : ((withFinalNewline u).drop k).isEmpty = false := by
    simpa using Input.drop_withFinalNewline_ne_nil hk
  rwa [hempty, if_neg Bool.false_ne_true, Input.firstLine_drop_withFinalNewline (Nat.le_of_lt hk),
    if_pos hn, List.getElem?_drop] at hlook

end Reading

theorem agree_of_spots (hs : s.AtSpot size u (Source.spotOf u k))
    (hr : Reader.At ((withFinalNewline u).take k) ((withFinalNewline u).drop k) r)
    (hk : k < u.length) : Agree size u k s r := by
  have hplace := hr.location_of_lt hk
  have hc : u[k]? = some u[k] := List.getElem?_eq_getElem hk
  refine ⟨?_, ?_, ?_, ?_, ?_⟩
  · have hreader := congrArg Location.line hplace
    have hsource : s.line = lineBehind (u.take k) := hs.line
    simp only [Reader.location, Location.behind] at hreader
    omega
  · have hreader := congrArg Location.column hplace
    have hsource : s.column = columnBehind (u.take k) := hs.column
    simp only [Reader.location, Location.behind] at hreader
    omega
  · obtain ⟨s', haccept, -⟩ := hs.accept_one hc
    obtain ⟨r', hnext⟩ := hr.next_of_lt hk
    exact ⟨u[k], s', r', hc, haccept, hnext⟩
  · intro n hn hline hlt
    obtain ⟨s', hsource⟩ := hs.lookAhead_of_lt hn
    have hreader := hr.lookAhead_of_le hk hline
    have hchar : u[k + n]? = some u[k + n] := List.getElem?_eq_getElem hlt
    rw [Input.getElem?_withFinalNewline hlt, hchar] at hreader
    exact ⟨u[k + n], s', hchar, hchar ▸ hsource, hreader⟩
  · intro n hn hnone hend
    have hline : n ≤ (firstLine (u.drop k)).length := by
      rw [firstLine, List.takeWhile_eq_self_iff.2 (Text.not_newline hnone), List.length_drop]
      omega
    obtain ⟨s', hsource⟩ := hs.lookAhead_of_lt hn
    have hreader := hr.lookAhead_of_le hk hline
    rw [hend, Input.getElem?_length_withFinalNewline hk hnone] at hreader
    rw [hend, List.getElem?_eq_none (Nat.le_refl _)] at hsource
    exact ⟨s', hsource, hreader⟩

structure Reader.EndsBehind (u : Text) (r : Reader) : Prop where
  whole : u.WholeLines → r.ended = true
  lacking : ¬u.WholeLines →
    r.ended = false ∧ ∃ r', Reader.next r = .ok (some '\n') r' ∧ r'.ended = true

theorem Reader.At.endsBehind (h : Reader.At ((withFinalNewline u).take u.length)
    ((withFinalNewline u).drop u.length) r) : r.EndsBehind u := by
  obtain ⟨hu, htext⟩ | ⟨hu, htext⟩ := Input.withFinalNewline_cases u
  · rw [htext, List.drop_length] at h
    exact ⟨fun _ => h.ended, fun hnot => absurd hu hnot⟩
  · rw [htext, List.drop_left] at h
    obtain ⟨r', hnext, hend, -⟩ := h.next
    exact ⟨fun hwhole => absurd hwhole hu, fun _ => ⟨h.ended, r', hnext, hend.ended⟩⟩

end Agreement

/-- The source of a stream and the reader of a file that hold the same text agree at each of its
characters. Behind the last the source is at its end, and so is the reader once it has given the
newline that the last line lacks. -/
theorem agree_of_returnsPaired {fs : FileSystem} {file t : Text} {stream : Input.CharStream}
    {config : Config} (hstream : stream.Delivers t) (hfile : Reads fs file config t)
    (hpaired : Input.ReturnsPaired t) (name : Option Text) (settings : Config) {size : Nat}
    (hsize : 1 ≤ size) :
    match Source.ofStream stream name (.int size) settings with
    | .error _ => Fifo.memoryLimit ≤ size
    | .ok s => ∃ r, Reader.ofFile fs file config = .ok r ∧
        (∀ k < (visible t).length, Agree size (visible t) k (Source.afterAccept^[k] s)
          ((Op.after Reader.next)^[k] r)) ∧
        (∃ s', Source.isEnd (Source.afterAccept^[(visible t).length] s) = .ok true s') ∧
        ((Op.after Reader.next)^[(visible t).length] r).EndsBehind (visible t) := by
  have hstart := Source.atSpot_ofStream hstream name settings hsize
  cases hopen : Source.ofStream stream name (.int size) settings with
  | error _ =>
    rw [hopen] at hstart
    exact hstart
  | ok s =>
    rw [hopen] at hstart
    obtain ⟨r, hreader, hplace, -⟩ := Reader.ofFile_of_decodesTo (hfile.decodesTo hpaired)
    have hlength : (visible t).length ≤ (withFinalNewline (visible t)).length := by
      obtain ⟨-, htext⟩ | ⟨-, htext⟩ := Input.withFinalNewline_cases (visible t) <;> simp [htext]
    have hend := hstart.stepped (k := (visible t).length) (Nat.le_refl _)
    obtain ⟨j, hlast⟩ := hend.place
    obtain ⟨s', -, hisEnd, -, -⟩ := hlast.isEnd (hend.capacity ▸ hend.capacity_pos)
    have hempty : ((visible t).drop (visible t).length).isEmpty = true := by simp
    refine ⟨r, hreader, fun k hk => ?_, ⟨s', hempty ▸ hisEnd⟩, (hplace.stepped hlength).endsBehind⟩
    exact agree_of_spots (hstart.stepped (Nat.le_of_lt hk)) (hplace.stepped (by omega)) hk

theorem agree_of_returnsPaired_twoLines :
    ∃ s r, Source.ofStream (.memory { text := "a\r\nb".toList }) none (.int 2) {} = .ok s ∧
      Reader.ofFile (({} : FileSystem).addFile ['f'] [0x61, 0x0D, 0x0A, 0x62]) ['f'] {} = .ok r ∧
      (∀ k < 3, Agree 2 "a\nb".toList k (Source.afterAccept^[k] s)
        ((Op.after Reader.next)^[k] r)) ∧
      ∃ r', Reader.next ((Op.after Reader.next)^[3] r) = .ok (some '\n') r' ∧ r'.ended = true := by
  have hstream : (Input.CharStream.memory { text := "a\r\nb".toList }).Delivers "a\r\nb".toList :=
    ⟨rfl, fun _ _ => rfl⟩
  have hfile : Reads (({} : FileSystem).addFile ['f'] [0x61, 0x0D, 0x0A, 0x62]) ['f'] {}
      "a\r\nb".toList :=
    reads_of_chunk "a\r\nb".toList [.openingPlain ['f'] 8192] (by cbv)
  have hpaired : Input.ReturnsPaired "a\r\nb".toList :=
    .cons (by decide) (.cons (by decide) (.cons (by decide) (.cons (by decide) .nil)))
  obtain ⟨r, hreader, hagree, -, hend⟩ :=
    agree_of_returnsPaired hstream hfile hpaired none {} (by decide : 1 ≤ 2)
  have hlacking : ¬Text.WholeLines (visible "a\r\nb".toList) := by
    rintro (h | h) <;> exact absurd h (by decide)
  obtain ⟨-, hnewline⟩ := hend.lacking hlacking
  exact ⟨_, r, rfl, hreader, hagree, hnewline⟩

end LineLexer
