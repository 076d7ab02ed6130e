import LineLexer.Proofs.Cursor
import LineLexer.Scan

/-!
# Blanks and comments at the front of a text

A piece is what a scan takes off the front of a text in one go. Whether a
blank or a comment stands there, and how far it goes, is told by the text
alone, and by the whole lines that it stands on: it stays the same when more
lines follow.
-/

namespace LineLexer

open Text (firstLine goesOn)

/-- A part of a text, with what is found in it: texts with the numbers of characters before
them. -/
structure Piece where
  text : Text
  found : List (Nat × Text)
  deriving DecidableEq

def Piece.textOf (ps : List Piece) : Text := (ps.map Piece.text).flatten

@[simp] theorem Piece.textOf_nil : textOf [] = [] := rfl

@[simp] theorem Piece.textOf_cons (p : Piece) (ps : List Piece) :
    textOf (p :: ps) = p.text ++ textOf ps := rfl

theorem Piece.textOf_append (ps qs : List Piece) :
    textOf (ps ++ qs) = textOf ps ++ textOf qs := by
  simp [textOf]

/-- Why nothing can be taken: a lexical error some characters further on, or a pattern that
cannot be read. -/
inductive Halt
  | lexical (kind : LexicalKind) (offset : Nat)
  | refused (fault : Fault)

inductive Cut
  | nothing
  | piece (p : Piece)
  | failure (h : Halt)

structure Delimiters where
  opener : Text
  closer : Text
  marker : Text
  opener_ne_nil : opener ≠ []
  closer_ne_nil : closer ≠ []
  marker_ne_nil : marker ≠ []

structure Config.Delimits (config : Config) (d : Delimiters) : Prop where
  opener : config.opener = .text d.opener
  closer : config.closer = .text d.closer
  lineComment : config.lineComment = .text d.marker

namespace Delimiters

def usual : Delimiters where
  opener := "/*".toList
  closer := "*/".toList
  marker := "//".toList
  opener_ne_nil := by decide
  closer_ne_nil := by decide
  marker_ne_nil := by decide

theorem delimits_usual : ({} : Config).Delimits usual := ⟨rfl, rfl, rfl⟩

def body (d : Delimiters) : Text → Except Nat Text
  | [] => .ok []
  | c :: u =>
    if goesOn d.closer (c :: u) then .ok d.closer
    else if d.opener.isPrefixOf (firstLine (c :: u)) then .error 0
    else match d.body u with
      | .ok t => .ok (c :: t)
      | .error n => .error (n + 1)

def comment (keep : Bool) (t : Text) : Piece := ⟨t, if keep then [(0, t)] else []⟩

def block (d : Delimiters) (keep : Bool) (u : Text) : Cut :=
  let inner := u.drop d.opener.length
  match d.body inner with
  | .error n => .failure (.lexical .nestedBlockComment (d.opener.length + n))
  | .ok t =>
    if t.length = inner.length then .failure (.lexical .unexpectedEnd u.length)
    else .piece (comment keep (d.opener ++ t))

theorem prefix_of_body {d : Delimiters} {u t : Text} (h : d.body u = .ok t) : t <+: u := by
  induction u generalizing t with
  | nil =>
    obtain rfl := Except.ok.inj h
    exact List.prefix_rfl
  | cons c u ih =>
    unfold body at h
    split at h
    · rename_i hcloser
      obtain rfl := Except.ok.inj h
      exact Text.prefix_of_goesOn hcloser
    · split at h
      · cases h
      · split at h
        · rename_i t' ht'
          obtain rfl := Except.ok.inj h
          exact List.cons_prefix_cons.2 ⟨rfl, ih ht'⟩
        · cases h

theorem body_append {d : Delimiters} {u t : Text} (hu : u.WholeLines) (h : d.body u = .ok t)
    (hlt : t.length < u.length) (v : Text) : d.body (u ++ v) = .ok t := by
  -- Every character of whole lines has its newline behind it, so no turn looks further than that.
  induction u generalizing t with
  | nil => simp at hlt
  | cons c u ih =>
    have hne : c :: u ≠ [] := List.cons_ne_nil c u
    have hcloser := Text.goesOn_append hu hne d.closer v
    have hline := Text.firstLine_append (hu.newline_mem hne) v
    unfold body at h
    rw [List.cons_append] at hcloser hline ⊢
    unfold body
    rw [hcloser, hline]
    split at h
    · rename_i hgo
      rw [if_pos hgo]
      exact h
    · rename_i hgo
      rw [if_neg hgo]
      split at h
      · cases h
      · rename_i hopener
        rw [if_neg hopener]
        split at h
        · rename_i t' ht'
          obtain rfl := Except.ok.inj h
          have hlt' : t'.length < u.length := by simpa using hlt
          rw [ih (hu.suffix (List.suffix_cons c u)) ht' hlt']
        · cases h

theorem block_eq_piece {d : Delimiters} {keep : Bool} {u : Text} {p : Piece}
    (hgo : goesOn d.opener u = true) (h : d.block keep u = .piece p) :
    ∃ t, t ≠ [] ∧ t <+: u ∧ p = comment keep t := by
  unfold block at h
  simp only at h
  split at h
  · cases h
  · rename_i t ht
    split at h
    · cases h
    · obtain rfl := Cut.piece.inj h
      refine ⟨d.opener ++ t, by simp [d.opener_ne_nil], ?_, rfl⟩
      obtain ⟨v, hv⟩ := Text.prefix_of_goesOn hgo
      rw [← hv, List.prefix_append_right_inj]
      have hbody := prefix_of_body ht
      rwa [← hv, List.drop_left] at hbody

theorem block_append {d : Delimiters} {keep : Bool} {u : Text} (hu : u.WholeLines)
    (hgo : goesOn d.opener u = true) (hok : ∀ f, d.block keep u ≠ .failure f) (v : Text) :
    d.block keep (u ++ v) = d.block keep u := by
  have hlen := (Text.prefix_of_goesOn hgo).length_le
  cases hbody : d.body (u.drop d.opener.length) with
  | error n =>
    have hfail : d.block keep u = .failure (.lexical .nestedBlockComment (d.opener.length + n)) := by
      simp [block, hbody]
    exact absurd hfail (hok _)
  | ok t =>
    by_cases hall : t.length = (u.drop d.opener.length).length
    · have hfail : d.block keep u = .failure (.lexical .unexpectedEnd u.length) := by
        simp only [block, hbody, hall, if_true]
      exact absurd hfail (hok _)
    · have hlt := lt_of_le_of_ne (prefix_of_body hbody).length_le hall
      have happend := body_append (hu.drop _) hbody hlt v
      have hall' : t.length ≠ (u.drop d.opener.length ++ v).length := by
        rw [List.length_append]
        omega
      simp only [block, List.drop_append_of_le_length hlen, happend, hbody, hall, hall', if_false]

def trivia (d : Delimiters) (keep : Bool) : Text → Cut
  | [] => .nothing
  | c :: u =>
    if Text.isBlank c then .piece ⟨[c], []⟩
    else if goesOn d.opener (c :: u) then d.block keep (c :: u)
    else if goesOn d.marker (c :: u) then
      .piece (comment keep (d.marker ++ firstLine ((c :: u).drop d.marker.length)))
    else .nothing

theorem trivia_eq_piece {d : Delimiters} {keep : Bool} {u : Text} {p : Piece}
    (h : d.trivia keep u = .piece p) :
    (∃ c, Text.isBlank c = true ∧ [c] <+: u ∧ p = ⟨[c], []⟩) ∨
      ∃ t, t ≠ [] ∧ t <+: u ∧ p = comment keep t := by
  cases u with
  | nil => cases h
  | cons c u =>
    simp only [trivia] at h
    split at h
    · rename_i hblank
      obtain rfl := Cut.piece.inj h
      exact .inl ⟨c, hblank, ⟨u, rfl⟩, rfl⟩
    · split at h
      · rename_i hgo
        exact .inr (block_eq_piece hgo h)
      · split at h
        · rename_i hgo
          obtain rfl := Cut.piece.inj h
          refine .inr ⟨_, by simp [d.marker_ne_nil], ?_, rfl⟩
          obtain ⟨v, hv⟩ := Text.prefix_of_goesOn hgo
          rw [← hv, List.prefix_append_right_inj, List.drop_left]
          exact Text.firstLine_prefix v
        · cases h

theorem prefix_of_trivia {d : Delimiters} {keep : Bool} {u : Text} {p : Piece}
    (h : d.trivia keep u = .piece p) : p.text <+: u ∧ p.text ≠ [] := by
  rcases trivia_eq_piece h with ⟨c, -, hc, rfl⟩ | ⟨t, ht, hbegins, rfl⟩
  · exact ⟨hc, List.cons_ne_nil c []⟩
  · exact ⟨hbegins, ht⟩

theorem trivia_ne_refused {d : Delimiters} {keep : Bool} {u : Text} {fault : Fault} :
    d.trivia keep u ≠ .failure (.refused fault) := by
  cases u with
  | nil => simp [trivia]
  | cons c u =>
    simp only [trivia, block]
    repeat' split
    all_goals simp

/-- What is skipped in front of a text that ends with a newline is told by that text, unless an
error is met in it. -/
theorem trivia_append {d : Delimiters} (keep : Bool) {u : Text} (hu : u.WholeLines)
    (hne : u ≠ []) (hok : ∀ f, d.trivia keep u ≠ .failure f) (v : Text) :
    d.trivia keep (u ++ v) = d.trivia keep u := by
  obtain ⟨c, w, rfl⟩ := List.exists_cons_of_ne_nil hne
  have hopener := Text.goesOn_append hu hne d.opener v
  have hmarker := Text.goesOn_append hu hne d.marker v
  rw [List.cons_append] at hopener hmarker ⊢
  simp only [trivia] at hok ⊢
  rw [hopener, hmarker]
  by_cases hblank : Text.isBlank c = true
  · rw [if_pos hblank, if_pos hblank]
  · rw [if_neg hblank] at hok
    rw [if_neg hblank, if_neg hblank]
    by_cases hgo : goesOn d.opener (c :: w) = true
    · rw [if_pos hgo] at hok
      rw [if_pos hgo, if_pos hgo]
      exact block_append hu hgo hok v
    · rw [if_neg hgo, if_neg hgo]
      by_cases hgo' : goesOn d.marker (c :: w) = true
      · have hc : c ≠ '\n' := by
          rintro rfl
          exact hblank Text.isBlank_newline
        have hlen := (Text.prefix_firstLine_of_goesOn hc hgo').length_le
        have hsize := Text.length_firstLine_lt (hu.newline_mem hne)
        have hrest : (c :: w).drop d.marker.length ≠ [] := by
          rw [Ne, List.drop_eq_nil_iff]
          omega
        have hline := Text.firstLine_append ((hu.drop d.marker.length).newline_mem hrest) v
        have hmarker_le : d.marker.length ≤ (c :: w).length := by omega
        have hdrop : (c :: (w ++ v)).drop d.marker.length = (c :: w).drop d.marker.length ++ v :=
          List.drop_append_of_le_length hmarker_le
        rw [if_pos hgo', if_pos hgo', hdrop, hline]
      · rw [if_neg hgo', if_neg hgo']

end Delimiters

end LineLexer
