import LineLexer.CommandLine
import Mathlib

/-!
# Reading a listing back

What is printed for a fragment is one line. Its text is behind the last tab, for escaping leaves no
tab in it, and the numbers of its line and column are behind the last two colons before that. So a
listing tells its fragments, whatever is in their texts and in the name of their file, but for the
newlines that a name would have to hold.
-/

namespace LineLexer

namespace Text

def unescape : Text → Option Text
  | [] => some []
  | '\\' :: 'n' :: s => (unescape s).map ('\n' :: ·)
  | '\\' :: 't' :: s => (unescape s).map ('\t' :: ·)
  | '\\' :: '\\' :: s => (unescape s).map ('\\' :: ·)
  | '\\' :: _ => none
  | c :: s => (unescape s).map (c :: ·)

theorem escapeChar_of_plain {c : Char} (hn : c ≠ '\n') (ht : c ≠ '\t') (hb : c ≠ '\\') :
    escapeChar c = [c] := by
  unfold escapeChar
  split <;> first | rfl | contradiction

theorem unescape_cons_of_plain {c : Char} (hb : c ≠ '\\') (s : Text) :
    unescape (c :: s) = (unescape s).map (c :: ·) := by
  rw [unescape]
  · exact fun _ hc => absurd hc hb
  · exact fun _ hc => absurd hc hb
  · exact fun _ hc => absurd hc hb
  · exact hb

theorem unescape_escape (s : Text) : unescape s.escape = some s := by
  induction s with
  | nil => rfl
  | cons c s ih =>
    rw [escape_cons]
    by_cases hn : c = '\n'
    · subst hn
      simp [escapeChar, unescape, ih]
    by_cases ht : c = '\t'
    · subst ht
      simp [escapeChar, unescape, ih]
    by_cases hb : c = '\\'
    · subst hb
      simp [escapeChar, unescape, ih]
    rw [escapeChar_of_plain hn ht hb, List.singleton_append, unescape_cons_of_plain hb, ih]
    rfl

theorem escape_injective : Function.Injective escape := by
  intro s t h
  have hback := unescape_escape s
  rw [h, unescape_escape t] at hback
  exact (Option.some.inj hback).symm

theorem notMem_escape (s : Text) : '\n' ∉ s.escape ∧ '\t' ∉ s.escape := by
  induction s with
  | nil => simp
  | cons c s ih =>
    have hc : '\n' ∉ escapeChar c ∧ '\t' ∉ escapeChar c := by
      unfold escapeChar
      split
      · decide
      · decide
      · decide
      · rename_i hn ht _
        simp only [List.mem_singleton]
        exact ⟨fun h => hn h.symm, fun h => ht h.symm⟩
    simp only [escape_cons, List.mem_append, not_or]
    exact ⟨⟨hc.1, ih.1⟩, ⟨hc.2, ih.2⟩⟩

def splitLast (c : Char) (s : Text) : Option (Text × Text) :=
  match s.reverse.dropWhile (· ≠ c) with
  | [] => none
  | _ :: before => some (before.reverse, (s.reverse.takeWhile (· ≠ c)).reverse)

theorem splitLast_append {c : Char} {t : Text} (h : c ∉ t) (s : Text) :
    splitLast c (s ++ c :: t) = some (s, t) := by
  have hplain : ∀ d ∈ t.reverse, decide (d ≠ c) = true := by
    intro d hd
    have hne : d ≠ c := fun hdc => h (hdc ▸ List.mem_reverse.1 hd)
    simpa using hne
  have hreverse : (s ++ c :: t).reverse = t.reverse ++ c :: s.reverse := by simp
  rw [splitLast, hreverse, List.dropWhile_append_of_pos hplain, List.takeWhile_append_of_pos hplain]
  simp

end Text

namespace Location

theorem mem_decimal {n : Int} {c : Char} (h : c ∈ decimal n) : c = '-' ∨ c.isDigit = true := by
  have hdigits (m : Nat) (hc : c ∈ m.repr.toList) : c.isDigit = true := by
    rw [Nat.repr_eq_ofList_toDigits, String.toList_ofList] at hc
    exact Nat.isDigit_of_mem_toDigits (by decide) (by decide) hc
  change c ∈ n.repr.toList at h
  rw [Int.repr_eq_if] at h
  split at h
  · exact .inr (hdigits _ h)
  · rw [String.toList_append, List.mem_append] at h
    exact h.imp (by simp) (hdigits _)

theorem notMem_decimal {c : Char} (hc : c ≠ '-') (hdigit : c.isDigit = false) (n : Int) :
    c ∉ decimal n := by
  intro h
  rcases mem_decimal h with rfl | htrue
  · exact hc rfl
  · rw [hdigit] at htrue
    cases htrue

def readDecimal (digits : Text) : Option Int := (String.ofList digits).toInt?

theorem readDecimal_decimal (n : Int) : readDecimal (decimal n) = some n := by
  rw [readDecimal, decimal, String.ofList_toList]
  exact Int.toInt?_repr n

end Location

namespace CommandLine

open Location (decimal readDecimal)
open Text (splitLast)

def lineText (f : Fragment) : Text := f.location.toText ++ '\t' :: f.text.escape

def readLine (line : Text) : Option Fragment := do
  let (place, text) ← splitLast '\t' line
  let (before, column) ← splitLast ':' place
  let (file, number) ← splitLast ':' before
  return ⟨⟨file, ← readDecimal number, ← readDecimal column⟩, ← text.unescape⟩

def readListing (output : Text) : Option (List Fragment) :=
  (output.splitOn '\n').dropLast.mapM readLine

theorem readLine_lineText (f : Fragment) : readLine (lineText f) = some f := by
  obtain ⟨⟨file, line, column⟩, text⟩ := f
  have hcolon (n : Int) : ':' ∉ decimal n := Location.notMem_decimal (by decide) (by decide) n
  have htab : '\t' ∉ text.escape := text.notMem_escape.2
  have hplace : (⟨file, line, column⟩ : Location).toText =
      (file ++ ':' :: decimal line) ++ ':' :: decimal column := rfl
  simp only [readLine, lineText]
  rw [Text.splitLast_append htab, hplace]
  simp only [Option.bind_eq_bind, Option.bind_some]
  rw [Text.splitLast_append (hcolon column)]
  simp only [Option.bind_some]
  rw [Text.splitLast_append (hcolon line)]
  simp only [Option.bind_some, Location.readDecimal_decimal, Text.unescape_escape]
  rfl

theorem notMem_lineText {f : Fragment} (hfile : '\n' ∉ f.location.file) : '\n' ∉ lineText f := by
  have hdecimal (n : Int) : '\n' ∉ decimal n := Location.notMem_decimal (by decide) (by decide) n
  simp [lineText, Location.toText, hfile, hdecimal, f.text.notMem_escape.1]

theorem toList_fragmentLine (f : Fragment) : (fragmentLine f).toList = lineText f ++ ['\n'] := by
  simp [fragmentLine, lineText]

def listing (found : List Fragment) : String := String.join (found.map fragmentLine)

theorem splitOn_listing {found : List Fragment} (hfile : ∀ f ∈ found, '\n' ∉ f.location.file) :
    (listing found).toList.splitOn '\n' = found.map lineText ++ [[]] := by
  induction found with
  | nil => rfl
  | cons f found ih =>
    obtain ⟨hf, hfound⟩ := List.forall_mem_cons.1 hfile
    have hfirst : (listing (f :: found)).toList = lineText f ++ '\n' :: (listing found).toList := by
      simp [listing, String.join_cons, toList_fragmentLine]
    rw [hfirst, List.splitOn_append_cons_self_of_not_mem (notMem_lineText hf), ih hfound]
    rfl

theorem readListing_listing {found : List Fragment} (hfile : ∀ f ∈ found, '\n' ∉ f.location.file) :
    readListing (listing found).toList = some found := by
  rw [readListing, splitOn_listing hfile, List.dropLast_concat]
  clear hfile
  induction found with
  | nil => rfl
  | cons f found ih =>
    rw [List.map_cons, List.mapM_cons, readLine_lineText, ih]
    rfl

theorem listing_injective {found other : List Fragment}
    (hfile : ∀ f ∈ found, '\n' ∉ f.location.file) (hother : ∀ f ∈ other, '\n' ∉ f.location.file)
    (h : listing found = listing other) : found = other := by
  have hback := readListing_listing hfile
  rw [h, readListing_listing hother] at hback
  exact (Option.some.inj hback).symm

end CommandLine
end LineLexer
