import LineLexer.Proofs.Cursor
import Mathlib

/-!
# A reader is an index into its text

Looking, moving and telling the place are requests to a reader. A machine that
holds the whole text and an index into it answers them as well: every sequence
of requests, put to the reader of a file that decodes, gets the answers of the
index that starts at zero, failures included.
-/

namespace LineLexer

open Input (withFinalNewline)
open Text (lineBehind columnBehind goesOn)

inductive Request
  | lookAhead (n : Int)
  | next
  | accept (n : Int)
  | acceptText (t : Text)
  | substring (n : Int)
  | cacheRemainder
  | remainder
  | isEnd
  | isEndOfLine
  | position
  | location

inductive Answer
  | done
  | char (c : Option Char)
  | text (t : Text)
  | truth (b : Bool)
  | position (line column : Nat)
  | location (l : Location)

namespace Request

def reply {α : Type} (f : α → Answer) : EStateM.Result Fault Reader α → Except Fault Answer × Reader
  | .ok a r => (.ok (f a), r)
  | .error fault r => (.error fault, r)

def run (q : Request) (r : Reader) : Except Fault Answer × Reader :=
  match q with
  | lookAhead n => ((r.lookAhead n).map .char, r)
  | next => reply .char (Reader.next r)
  | accept n => reply (fun _ => .done) (Reader.accept n r)
  | acceptText t => reply .truth (Reader.acceptText t r)
  | substring n => ((r.substring n).map .text, r)
  | cacheRemainder => reply .text (Reader.cacheRemainder r)
  | remainder => reply .text (Reader.remainder r)
  | isEnd => (.ok (.truth r.ended), r)
  | isEndOfLine => (r.isEndOfLine.map .truth, r)
  | position => (.ok (.position r.lineNumber r.column), r)
  | location => (.ok (.location r.location), r)

def beforeIndex (text : Text) (i : Nat) : Text := text.take (min i (text.length - 1))

def lineAt (text : Text) (i : Nat) : Text := Text.firstLine (text.drop i)

def lookAheadAt (text : Text) (i : Nat) (n : Int) : Except Fault Answer :=
  if n < 0 then .error (.breach (.negativeLookahead n))
  else if i = text.length then .ok (.char none)
  else if n ≤ (lineAt text i).length then .ok (.char text[i + n.toNat]?)
  else .error (.breach (.beyondLine n (lineBehind (beforeIndex text i))))

def runAt (file text : Text) (q : Request) (i : Nat) : Except Fault Answer × Nat :=
  match q with
  | lookAhead n => (lookAheadAt text i n, i)
  | next => (.ok (.char text[i]?), min (i + 1) text.length)
  | accept n => (.ok .done, min (i + n.toNat) text.length)
  | acceptText t =>
    (.ok (.truth (goesOn t (text.drop i))), if goesOn t (text.drop i) then i + t.length else i)
  | substring n =>
    (if n < 0 then .error (.breach (.negativeLength n))
      else .ok (.text ((lineAt text i).take n.toNat)), i)
  | cacheRemainder | remainder => (.ok (.text (lineAt text i)), i)
  | isEnd => (.ok (.truth (i == text.length)), i)
  | isEndOfLine => (.ok (.truth (text[i]? == some '\n')), i)
  | position =>
    (.ok (.position (lineBehind (beforeIndex text i)) (columnBehind (beforeIndex text i))), i)
  | location => (.ok (.location (.behind file (beforeIndex text i))), i)

end Request

def Reader.answers : List Request → Reader → List (Except Fault Answer)
  | [], _ => []
  | q :: qs, r => (q.run r).1 :: Reader.answers qs (q.run r).2

def Request.answersAt (file text : Text) : List Request → Nat → List (Except Fault Answer)
  | [], _ => []
  | q :: qs, i => (q.runAt file text i).1 :: answersAt file text qs (q.runAt file text i).2

namespace Reader

/-- The reader of a file that stands at an index of its text. -/
structure AtIndex (file text : Text) (i : Nat) (r : Reader) : Prop where
  le : i ≤ text.length
  place : At (text.take i) (text.drop i) r
  file : r.file = file

section Requests

variable {file text : Text} {i : Nat} {r : Reader}

theorem AtIndex.isEmpty_drop (h : AtIndex file text i r) :
    (text.drop i).isEmpty = (i == text.length) := by
  have hle := h.le
  rw [Bool.eq_iff_iff, List.isEmpty_iff, List.drop_eq_nil_iff, beq_iff_eq]
  omega

theorem AtIndex.location (h : AtIndex file text i r) :
    r.location = .behind file (Request.beforeIndex text i) := by
  have hle := h.le
  rw [h.place.location, h.file, Location.between, h.isEmpty_drop, Request.beforeIndex]
  by_cases hi : i = text.length
  · subst hi
    simp [List.dropLast_eq_take]
  · have hmin : min i (text.length - 1) = i := by omega
    simp [hi, hmin]

theorem AtIndex.lineNumber (h : AtIndex file text i r) :
    r.lineNumber = lineBehind (Request.beforeIndex text i) := by
  have hline := congrArg Location.line h.location
  simp only [Reader.location, Location.behind] at hline
  omega

theorem AtIndex.column (h : AtIndex file text i r) :
    r.column = columnBehind (Request.beforeIndex text i) := by
  have hcolumn := congrArg Location.column h.location
  simp only [Reader.location, Location.behind] at hcolumn
  omega

theorem AtIndex.moved {s : Reader} {k : Nat} (h : AtIndex file text i r) (hkeeps : Keeps r s)
    (hplace : At (text.take i ++ (text.drop i).take k) ((text.drop i).drop k) s) :
    AtIndex file text (min (i + k) text.length) s := by
  have hle := h.le
  refine ⟨by omega, ?_, hkeeps.file.trans h.file⟩
  rw [← List.take_add, List.drop_drop] at hplace
  by_cases hk : i + k ≤ text.length
  · rw [Nat.min_eq_left hk]
    exact hplace
  · have hover : text.length ≤ i + k := by omega
    rw [Nat.min_eq_right hover, List.take_length, List.drop_length]
    rwa [List.take_of_length_le hover, List.drop_eq_nil_of_le hover] at hplace

theorem AtIndex.lookAhead (h : AtIndex file text i r) (n : Int) :
    (r.lookAhead n).map Answer.char = Request.lookAheadAt text i n := by
  unfold Request.lookAheadAt
  split
  · rename_i hn
    simp [Reader.lookAhead, hn, Except.map]
  · rename_i hn
    have hcast : (n.toNat : Int) = n := Int.toNat_of_nonneg (by omega)
    have hlook := h.place.lookAhead n.toNat
    rw [hcast, h.isEmpty_drop, List.getElem?_drop] at hlook
    rw [hlook, h.lineNumber]
    have hle : n.toNat ≤ (Request.lineAt text i).length ↔ n ≤ (Request.lineAt text i).length := by
      omega
    rw [Request.lineAt] at hle ⊢
    by_cases hi : i = text.length
    · simp [hi, Except.map]
    · by_cases hn' : n.toNat ≤ (Text.firstLine (text.drop i)).length
      · simp [hi, hn', hle.1 hn', Except.map]
      · have hn'' : ¬n ≤ (Text.firstLine (text.drop i)).length := fun hcon => hn' (hle.2 hcon)
        simp only [hi, hn', hn'', beq_iff_eq, if_false, Except.map]

theorem AtIndex.substring (h : AtIndex file text i r) (n : Int) :
    (r.substring n).map Answer.text = if n < 0 then .error (.breach (.negativeLength n))
      else .ok (.text ((Request.lineAt text i).take n.toNat)) := by
  split
  · rename_i hn
    simp [Reader.substring, hn, Except.map]
  · rename_i hn
    have hcast : (n.toNat : Int) = n := Int.toNat_of_nonneg (by omega)
    have hsub := h.place.substring n.toNat
    rw [hcast] at hsub
    rw [hsub]
    rfl

theorem AtIndex.isEndOfLine (h : AtIndex file text i r) :
    r.isEndOfLine = .ok (text[i]? == some '\n') := by
  have hhead : text[i]? = (text.drop i).head? := by rw [List.head?_drop]
  have hlook := h.place.lookAhead 0
  rw [hhead]
  cases hu : text.drop i with
  | nil =>
    have hlook : r.lookAhead 0 = .ok none := by simpa [hu] using hlook
    simp [Reader.isEndOfLine, hlook, bind, Except.bind, pure, Except.pure]
  | cons c u =>
    have hlook : r.lookAhead 0 = .ok (some c) := by simpa [hu] using hlook
    simp [Reader.isEndOfLine, hlook, bind, Except.bind, pure, Except.pure]

theorem AtIndex.next (h : AtIndex file text i r) :
    ∃ s, next r = .ok text[i]? s ∧ AtIndex file text (min (i + 1) text.length) s := by
  have hhead : text[i]? = (text.drop i).head? := by rw [List.head?_drop]
  have hplace := h.place
  rw [hhead]
  cases hu : text.drop i with
  | nil =>
    have hended : r.ended = true := by simp [hplace.ended, hu]
    refine ⟨r, next_of_ended hended, h.moved (.refl r) ?_⟩
    simpa [hu] using hplace
  | cons c u =>
    rw [hu] at hplace
    obtain ⟨s, hs, hplace', hkeeps⟩ := hplace.next
    refine ⟨s, hs, h.moved hkeeps ?_⟩
    simpa [hu] using hplace'

theorem AtIndex.acceptText (h : AtIndex file text i r) (t : Text) :
    ∃ s, acceptText t r = .ok (goesOn t (text.drop i)) s ∧
      AtIndex file text (if goesOn t (text.drop i) then i + t.length else i) s := by
  obtain ⟨s, hs, hkeeps, hplace⟩ := h.place.acceptText t
  refine ⟨s, hs, ?_⟩
  split at hplace
  · rename_i hgo
    have hbegins := Text.prefix_of_goesOn hgo
    have htake := List.prefix_iff_eq_take.1 hbegins
    have hlen := hbegins.length_le
    rw [List.length_drop] at hlen
    have hmin : min (i + t.length) text.length = i + t.length := by
      have hle := h.le
      omega
    rw [if_pos hgo, ← hmin]
    exact h.moved hkeeps (by rwa [← htake])
  · rename_i hgo
    rw [if_neg hgo, hplace]
    exact h

/-- One request is answered as the index tells, and leaves the reader where the index goes. -/
theorem AtIndex.run (h : AtIndex file text i r) (q : Request) :
    (q.run r).1 = (q.runAt file text i).1 ∧
      AtIndex file text (q.runAt file text i).2 (q.run r).2 := by
  cases q with
  | lookAhead n => exact ⟨h.lookAhead n, h⟩
  | next =>
    obtain ⟨s, hs, hs'⟩ := h.next
    have hrun : Request.next.run r = (.ok (.char text[i]?), s) := by rw [Request.run, hs]; rfl
    rw [hrun]
    exact ⟨rfl, hs'⟩
  | accept n =>
    obtain ⟨s, hs, hplace, hkeeps⟩ := h.place.accept n
    have hrun : (Request.accept n).run r = (.ok .done, s) := by rw [Request.run, hs]; rfl
    rw [hrun]
    exact ⟨rfl, h.moved hkeeps hplace⟩
  | acceptText t =>
    obtain ⟨s, hs, hs'⟩ := h.acceptText t
    have hrun : (Request.acceptText t).run r = (.ok (.truth (goesOn t (text.drop i))), s) := by
      rw [Request.run, hs]; rfl
    rw [hrun]
    exact ⟨rfl, hs'⟩
  | substring n => exact ⟨h.substring n, h⟩
  | cacheRemainder =>
    obtain ⟨s, hs, hplace, hkeeps⟩ := h.place.cacheRemainder
    have hrun : Request.cacheRemainder.run r = (.ok (.text (Request.lineAt text i)), s) := by
      rw [Request.run, hs]; rfl
    rw [hrun]
    exact ⟨rfl, h.le, hplace, hkeeps.file.trans h.file⟩
  | remainder =>
    obtain ⟨s, hs, hplace, hkeeps⟩ := h.place.remainder
    have hrun : Request.remainder.run r = (.ok (.text (Request.lineAt text i)), s) := by
      rw [Request.run, hs]; rfl
    rw [hrun]
    exact ⟨rfl, h.le, hplace, hkeeps.file.trans h.file⟩
  | isEnd =>
    have hended : r.ended = (i == text.length) := h.place.ended.trans h.isEmpty_drop
    exact ⟨by rw [Request.run, hended]; rfl, h⟩
  | isEndOfLine => exact ⟨by rw [Request.run, h.isEndOfLine]; rfl, h⟩
  | position => exact ⟨by rw [Request.run, h.lineNumber, h.column]; rfl, h⟩
  | location => exact ⟨by rw [Request.run, h.location]; rfl, h⟩

theorem AtIndex.answers (h : AtIndex file text i r) (qs : List Request) :
    answers qs r = Request.answersAt file text qs i := by
  induction qs generalizing i r with
  | nil => rfl
  | cons q qs ih =>
    obtain ⟨hanswer, hplace⟩ := h.run q
    simp only [Reader.answers, Request.answersAt, hanswer, ih hplace]

end Requests

/-- The reader of a file that decodes is an index into the decoded text, which starts at zero. -/
theorem answers_ofFile {fs : FileSystem} {file source : Text} {config : Config}
    (h : DecodesTo fs file config source) :
    ∃ r, ofFile fs file config = .ok r ∧
      ∀ qs, answers qs r = Request.answersAt file (withFinalNewline source) qs 0 := by
  obtain ⟨r, hopen, hplace, hfile, -, -, -⟩ := ofFile_of_decodesTo h
  have hindex : AtIndex file (withFinalNewline source) 0 r := ⟨Nat.zero_le _, hplace, hfile⟩
  exact ⟨r, hopen, hindex.answers⟩

theorem answers_ofFile_returnInside :
    ∃ r, ofFile (({} : FileSystem).addFile ['f'] [0x62, 0x0D, 0x63]) ['f'] {} = .ok r ∧
      ∀ qs, answers qs r = Request.answersAt ['f'] ['b', '\n', 'c', '\n'] qs 0 := by
  have hdecodes : DecodesTo (({} : FileSystem).addFile ['f'] [0x62, 0x0D, 0x63]) ['f'] {}
      ['b', '\n', 'c'] :=
    decodesTo_of_chunk ['b', '\r', 'c'] [.openingPlain ['f'] 8192] (by cbv) (by cbv)
  exact answers_ofFile hdecodes

end Reader
end LineLexer
