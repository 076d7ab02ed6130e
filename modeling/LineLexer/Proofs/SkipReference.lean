import LineLexer.Proofs.Session
import LineLexer.Proofs.SkipSegmentation
import Mathlib

/-!
# Skipping, told by where delimiters stand

Delimiters without a newline are found by their first index in the unread
text, wherever its lines end. Blanks and comments cut off by first indices are
those that skipping takes, in every state that a session reaches: skipping
ends behind the longest chain of them, or with the error that ends the chain.
-/

namespace LineLexer

open Input (withFinalNewline)
open Text (firstLine goesOn)

namespace Text

def firstIndex? (w u : Text) : Option Nat := u.tails.findIdx? fun v => w.isPrefixOf v

theorem firstIndex?_nil {w : Text} (hw : w ≠ []) : firstIndex? w [] = none := by
  simpa [firstIndex?] using hw

theorem firstIndex?_cons (w : Text) (c : Char) (u : Text) :
    firstIndex? w (c :: u) =
      if w.isPrefixOf (c :: u) then some 0 else (firstIndex? w u).map (· + 1) := by
  simp [firstIndex?, List.findIdx?_cons]

theorem prefix_drop_of_firstIndex? {w u : Text} {n : Nat} (h : firstIndex? w u = some n) :
    w <+: u.drop n := by
  induction u generalizing n with
  | nil =>
    by_cases hw : w = []
    · exact hw ▸ List.nil_prefix
    · rw [firstIndex?_nil hw] at h
      cases h
  | cons c u ih =>
    rw [firstIndex?_cons] at h
    split at h
    · rename_i hbegins
      obtain rfl := Option.some.inj h
      exact List.isPrefixOf_iff_prefix.1 hbegins
    · obtain ⟨m, hm, rfl⟩ := Option.map_eq_some_iff.1 h
      exact ih hm

theorem isPrefixOf_firstLine {w : Text} (hw : '\n' ∉ w) (u : Text) :
    w.isPrefixOf u.firstLine = w.isPrefixOf u := by
  rw [Bool.eq_iff_iff, List.isPrefixOf_iff_prefix, List.isPrefixOf_iff_prefix]
  constructor
  · exact fun h => h.trans u.firstLine_prefix
  · rintro ⟨v, rfl⟩
    rw [firstLine, List.takeWhile_append_of_pos (not_newline hw)]
    exact List.prefix_append _ _

theorem goesOn_eq_isPrefixOf {w : Text} (hw : '\n' ∉ w) (u : Text) :
    goesOn w u = w.isPrefixOf u := by
  have hne : w ≠ ['\n'] := by
    rintro rfl
    exact hw List.mem_cons_self
  simp [goesOn, isPrefixOf_firstLine hw, hne]

theorem WholeLines.lt_length {w u : Text} {n : Nat} (hu : u.WholeLines) (hw : '\n' ∉ w)
    (hne : w ≠ []) (h : w <+: u.drop n) : n + w.length < u.length := by
  obtain ⟨v, hv⟩ := h
  have hlen := congrArg List.length hv
  have hpos := List.length_pos_iff.2 hne
  rw [List.length_append, List.length_drop] at hlen
  have hv' : v ≠ [] := by
    rintro rfl
    rw [List.append_nil] at hv
    have hlast := (hu.drop n).resolve_left (by rw [← hv]; exact hne)
    rw [← hv] at hlast
    exact hw (List.mem_of_getLast? hlast)
  have hpos' := List.length_pos_iff.2 hv'
  omega

theorem WholeLines.length_take_lt {w u : Text} {n : Nat} (hu : u.WholeLines) (hw : '\n' ∉ w)
    (hne : w ≠ []) (h : firstIndex? w u = some n) : (u.take (n + w.length)).length < u.length := by
  have hlt := hu.lt_length hw hne (prefix_drop_of_firstIndex? h)
  rw [List.length_take]
  omega

end Text

open Text (firstIndex?)

def Piece.kept (keep : Bool) (p : Piece) : Piece := ⟨p.text, if keep then p.found else []⟩

def Cut.kept (keep : Bool) : Cut → Cut
  | piece p => piece (p.kept keep)
  | cut => cut

theorem Piece.textOf_kept (keep : Bool) (ps : List Piece) :
    textOf (ps.map (kept keep)) = textOf ps := by
  induction ps with
  | nil => rfl
  | cons p ps ih => simp [ih, kept]

theorem locate_kept (keep : Bool) (file before : Text) (ps : List Piece) :
    locate file before (ps.map (Piece.kept keep)) = if keep then locate file before ps else [] := by
  induction ps generalizing before with
  | nil => simp [locate]
  | cons p ps ih => cases keep <;> simp_all [locate, Piece.kept, Piece.fragments]

theorem Chain.kept {cut : Text → Cut} {u v : Text} {ps : List Piece} (keep : Bool)
    (h : Chain cut u ps v) : Chain (fun w => (cut w).kept keep) u (ps.map (Piece.kept keep)) v := by
  induction h with
  | nil u => exact .nil u
  | cons head _ ih => exact .cons (by simp only [head, Cut.kept]) ih

theorem Chain.congr_of_wholeLines {cut cut' : Text → Cut} {u v : Text} {ps : List Piece}
    (hcut : ∀ w : Text, w.WholeLines → cut w = cut' w) (hu : u.WholeLines) (h : Chain cut u ps v) :
    Chain cut' u ps v := by
  induction h with
  | nil u => exact .nil u
  | cons head _ ih => exact .cons ((hcut _ hu).symm.trans head) (ih (hu.drop _))

namespace Delimiters

theorem exists_of_block {config : Config} {opener closer : Text}
    (hopener : config.opener = .text opener) (hcloser : config.closer = .text closer) :
    ∃ d : Delimiters, d.opener = opener ∧ d.closer = closer := by
  have hopens := config.opener_isTruthy
  have hcloses := config.closer_isTruthy
  rw [hopener, Json.isTruthy, Bool.not_eq_true', List.isEmpty_eq_false_iff] at hopens
  rw [hcloser, Json.isTruthy, Bool.not_eq_true', List.isEmpty_eq_false_iff] at hcloses
  exact ⟨⟨opener, closer, opener, hopens, hcloses, hopens⟩, rfl, rfl⟩

structure WithinLine (d : Delimiters) : Prop where
  opener : '\n' ∉ d.opener
  closer : '\n' ∉ d.closer
  marker : '\n' ∉ d.marker

/-- A block comment goes from its opener through the first closer behind it. Another opener that
stands before that closer is an error, and so is the lack of both. -/
def blockReference (d : Delimiters) (u : Text) : Cut :=
  let inner := u.drop d.opener.length
  match firstIndex? d.opener inner, firstIndex? d.closer inner with
  | none, none => .failure (.lexical .unexpectedEnd u.length)
  | some k, none => .failure (.lexical .nestedBlockComment (d.opener.length + k))
  | none, some j => .piece (comment true (d.opener ++ inner.take (j + d.closer.length)))
  | some k, some j =>
    if k < j then .failure (.lexical .nestedBlockComment (d.opener.length + k))
    else .piece (comment true (d.opener ++ inner.take (j + d.closer.length)))

/-- What is skipped at the front of a text: a blank, else a block comment, else a line comment. -/
def reference (d : Delimiters) : Text → Cut
  | [] => .nothing
  | c :: u =>
    if Text.isBlank c then .piece ⟨[c], []⟩
    else if d.opener.isPrefixOf (c :: u) then d.blockReference (c :: u)
    else if d.marker.isPrefixOf (c :: u) then
      .piece (comment true (d.marker ++ firstLine ((c :: u).drop d.marker.length)))
    else .nothing

theorem comment_kept (keep : Bool) (t : Text) : (comment true t).kept keep = comment keep t := by
  cases keep <;> rfl

theorem prefix_of_reference {d : Delimiters} {u : Text} {p : Piece} (h : d.reference u = .piece p) :
    p.text <+: u ∧ p.text ≠ [] := by
  have hcomment : ∀ {w t : Text}, w ≠ [] → w.isPrefixOf u = true → t <+: u.drop w.length →
      (comment true (w ++ t)).text <+: u ∧ (comment true (w ++ t)).text ≠ [] := by
    intro w t hne hw ht
    have hsplit := List.prefix_iff_eq_append.1 (List.isPrefixOf_iff_prefix.1 hw)
    have hwhole : w ++ t <+: w ++ u.drop w.length := (List.prefix_append_right_inj w).2 ht
    rw [hsplit] at hwhole
    exact ⟨hwhole, fun hnil => hne (List.append_eq_nil_iff.1 hnil).1⟩
  cases u with
  | nil => cases h
  | cons c u =>
    simp only [reference] at h
    split at h
    · obtain rfl := Cut.piece.inj h
      exact ⟨⟨u, rfl⟩, List.cons_ne_nil c []⟩
    · split at h
      · rename_i hopener
        simp only [blockReference] at h
        split at h
        · cases h
        · cases h
        · obtain rfl := Cut.piece.inj h
          exact hcomment d.opener_ne_nil hopener (List.take_prefix _ _)
        · split at h
          · cases h
          · obtain rfl := Cut.piece.inj h
            exact hcomment d.opener_ne_nil hopener (List.take_prefix _ _)
      · split at h
        · rename_i hmarker
          obtain rfl := Cut.piece.inj h
          exact hcomment d.marker_ne_nil hmarker (Text.firstLine_prefix _)
        · cases h

/-- Looking for the delimiters line by line finds them where they stand first. -/
theorem body_eq {d : Delimiters} (hopener : '\n' ∉ d.opener) (hcloser : '\n' ∉ d.closer) (u : Text) :
    d.body u = match firstIndex? d.opener u, firstIndex? d.closer u with
      | none, none => .ok u
      | some k, none => .error k
      | none, some j => .ok (u.take (j + d.closer.length))
      | some k, some j => if k < j then .error k else .ok (u.take (j + d.closer.length)) := by
  -- Behind a character that begins neither delimiter both indices are one more than behind it.
  induction u with
  | nil => simp [body, Text.firstIndex?_nil d.opener_ne_nil, Text.firstIndex?_nil d.closer_ne_nil]
  | cons c u ih =>
    unfold body
    rw [Text.goesOn_eq_isPrefixOf hcloser, Text.isPrefixOf_firstLine hopener,
      Text.firstIndex?_cons, Text.firstIndex?_cons, ih]
    by_cases hcloses : d.closer.isPrefixOf (c :: u) = true
    · have htake := List.prefix_iff_eq_take.1 (List.isPrefixOf_iff_prefix.1 hcloses)
      cases firstIndex? d.opener u <;> by_cases hopens : d.opener.isPrefixOf (c :: u) = true <;>
        simp [hcloses, hopens, ← htake]
    · by_cases hopens : d.opener.isPrefixOf (c :: u) = true
      · cases firstIndex? d.closer u <;> simp [hcloses, hopens]
      · cases hk : firstIndex? d.opener u with
        | none => cases firstIndex? d.closer u <;> simp [hcloses, hopens, Nat.add_right_comm]
        | some k =>
          cases firstIndex? d.closer u with
          | none => simp [hcloses, hopens]
          | some j => by_cases hlt : k < j <;> simp [hcloses, hopens, hlt, Nat.add_right_comm]

section WithinLine

variable {d : Delimiters} (hline : d.WithinLine)

include hline

theorem block_eq_reference {u : Text} (hu : u.WholeLines) (keep : Bool) :
    d.block keep u = (d.blockReference u).kept keep := by
  have hends : ∀ {j : Nat}, firstIndex? d.closer (u.drop d.opener.length) = some j →
      ((u.drop d.opener.length).take (j + d.closer.length)).length ≠
        (u.drop d.opener.length).length := fun hj =>
    Nat.ne_of_lt ((hu.drop d.opener.length).length_take_lt hline.closer d.closer_ne_nil hj)
  simp only [block, blockReference, body_eq hline.opener hline.closer]
  cases hk : firstIndex? d.opener (u.drop d.opener.length) with
  | none =>
    cases hj : firstIndex? d.closer (u.drop d.opener.length) with
    | none => simp [Cut.kept]
    | some j => simp only [hends hj, if_false, Cut.kept, comment_kept]
  | some k =>
    cases hj : firstIndex? d.closer (u.drop d.opener.length) with
    | none => rfl
    | some j =>
      by_cases hlt : k < j
      · simp only [hlt, if_true, Cut.kept]
      · simp only [hlt, hends hj, if_false, Cut.kept, comment_kept]

theorem trivia_eq_reference {u : Text} (hu : u.WholeLines) (keep : Bool) :
    d.trivia keep u = (d.reference u).kept keep := by
  cases u with
  | nil => rfl
  | cons c u =>
    simp only [trivia, reference]
    rw [Text.goesOn_eq_isPrefixOf hline.opener, Text.goesOn_eq_isPrefixOf hline.marker]
    split
    · cases keep <;> rfl
    · split
      · exact block_eq_reference hline hu keep
      · split
        · simp only [Cut.kept, comment_kept]
        · rfl

end WithinLine

end Delimiters

namespace Trivia

theorem skip_of_chain {t : Trivia} {d : Delimiters} {before u v : Text} {r : Reader}
    {ps : List Piece} (hd : t.config.Delimits d) (hline : d.WithinLine) (hr : r.config = t.config)
    (h : Reader.At before u r) (hu : u.WholeLines) (hchain : Chain d.reference u ps v)
    (hv : (d.reference v).Final) :
    match d.reference v with
    | .nothing => ∃ s, t.skip r = .ok (if t.keepComments then locate r.file before ps else []) s ∧
        Reader.At (before ++ Piece.textOf ps) v s ∧ Reader.Carries r s
    | .failure f => ∃ s, t.skip r = .error (f.fault r.file (before ++ Piece.textOf ps) v) s ∧
        f.Leaves (before ++ Piece.textOf ps) v s
    | .piece _ => False := by
  have htext := hchain.text_eq fun _ _ hp => (Delimiters.prefix_of_reference hp).1
  have hlines : v.WholeLines := hu.suffix ⟨_, htext⟩
  have hsame := Delimiters.trivia_eq_reference hline hlines t.keepComments
  have hkept : Chain (d.trivia t.keepComments) u (ps.map (Piece.kept t.keepComments)) v :=
    (hchain.kept t.keepComments).congr_of_wholeLines
      (fun w hw => (Delimiters.trivia_eq_reference hline hw t.keepComments).symm) hu
  cases hcut : d.reference v with
  | nothing =>
    rw [hcut] at hsame
    obtain ⟨s, hs, hplace, hcarries⟩ := skip_of_nothing hd h hr hkept hsame
    rw [locate_kept] at hs
    rw [Piece.textOf_kept] at hplace
    exact ⟨s, hs, hplace, hcarries⟩
  | failure f =>
    rw [hcut] at hsame
    obtain ⟨s, hs, hleaves⟩ := skip_of_failure hd h hr hkept hsame
    rw [Piece.textOf_kept] at hs hleaves
    exact ⟨s, hs, hleaves⟩
  | piece p =>
    rw [hcut] at hv
    exact hv

/-- Wherever a session has led, skipping takes the longest chain of blanks and comments in front
of the unread text, and returns the comments when they are kept. -/
theorem skip_of_reached {fs : FileSystem} {file source : Text} {config : Config} {d : Delimiters}
    {start r : Reader} (h : DecodesTo fs file config source)
    (hopen : Reader.ofFile fs file config = .ok start)
    (hr : Reached Operation.LeavesText start r) (hd : config.Delimits d) (hline : d.WithinLine)
    (keep : Bool) :
    ∃ before u ps v, before ++ u = withFinalNewline source ∧ r.unreadText = u ∧
      r.location = .between file before u ∧ Chain d.reference u ps v ∧
      (∀ qs w, Chain d.reference u qs w → qs <+: ps) ∧
      match d.reference v with
      | .nothing => ∃ s, skip ⟨config, keep⟩ r = .ok (if keep then locate file before ps else []) s ∧
          s.unreadText = v ∧ s.location = .between file (before ++ Piece.textOf ps) v
      | .failure f => ∃ s, skip ⟨config, keep⟩ r =
          .error (f.fault file (before ++ Piece.textOf ps) v) s ∧ f.Leaves (before ++ Piece.textOf ps) v s
      | .piece _ => False := by
  obtain ⟨before, u, htext, hplace, rfl, rfl⟩ := Reader.inside_of_reached h hopen hr
  have hu : u.WholeLines := (Text.wholeLines_withFinalNewline source).suffix ⟨before, htext⟩
  obtain ⟨ps, v, hchain, hv⟩ :=
    Chain.exists_final d.reference (fun _ _ => Delimiters.prefix_of_reference) u
  have hskip := skip_of_chain (t := ⟨r.config, keep⟩) hd hline rfl hplace hu hchain hv
  refine ⟨before, u, ps, v, htext, hplace.unreadText, hplace.location, hchain,
    fun qs w => hchain.prefix_of_final hv, ?_⟩
  cases hcut : d.reference v with
  | nothing =>
    rw [hcut] at hskip
    obtain ⟨s, hs, hplace', hcarries⟩ := hskip
    refine ⟨s, hs, hplace'.unreadText, ?_⟩
    rw [hplace'.location, hcarries.file]
  | failure f =>
    rw [hcut] at hskip
    exact hskip
  | piece p =>
    rw [hcut] at hskip
    exact hskip

theorem skip_of_reached_behindName :
    ∃ start s, Reader.ofFile (({} : FileSystem).addFile ['f']
        [0x61, 0x20, 0x2F, 0x2A, 0x78, 0x0A, 0x2A, 0x2F, 0x62]) ['f'] {} = .ok start ∧
      skip ⟨{}, true⟩ (Operation.next.after start) =
        .ok [⟨⟨['f'], 1, 3⟩, "/*x\n*/".toList⟩] s ∧
      s.unreadText = "b\n".toList ∧ s.location = ⟨['f'], 2, 3⟩ := by
  have hdecodes : DecodesTo (({} : FileSystem).addFile ['f']
      [0x61, 0x20, 0x2F, 0x2A, 0x78, 0x0A, 0x2A, 0x2F, 0x62]) ['f'] {} "a /*x\n*/b".toList :=
    decodesTo_of_chunk "a /*x\n*/b".toList [.openingPlain ['f'] 8192] (by cbv) (by cbv)
  obtain ⟨start, hopen, hplace, -⟩ := Reader.ofFile_of_decodesTo hdecodes
  have htext : withFinalNewline "a /*x\n*/b".toList = 'a' :: " /*x\n*/b\n".toList := rfl
  obtain ⟨t, ht, hnext, -⟩ := (htext ▸ hplace).next
  have hafter : Operation.next.after start = t := Op.after_of_ok ht
  obtain ⟨before, u, ps, v, hbefore, hu, -, hchain, hlongest, hskip⟩ :=
    skip_of_reached hdecodes hopen (.step .start .next trivial) Delimiters.delimits_usual
      ⟨by decide, by decide, by decide⟩ true
  rw [hafter, hnext.unreadText] at hu
  subst hu
  obtain rfl : before = ['a'] := List.append_cancel_right (hbefore.trans htext)
  have htaken : Chain Delimiters.usual.reference " /*x\n*/b\n".toList
      [⟨[' '], []⟩, ⟨"/*x\n*/".toList, [(0, "/*x\n*/".toList)]⟩] "b\n".toList :=
    .cons rfl (.cons rfl (.nil _))
  have hstop : Delimiters.usual.reference "b\n".toList = .nothing := rfl
  have hv : (Delimiters.usual.reference v).Final := by
    cases hcut : Delimiters.usual.reference v with
    | piece p =>
      rw [hcut] at hskip
      exact hskip
    | nothing => trivial
    | failure f => trivial
  obtain ⟨rfl, rfl⟩ := hchain.unique hv htaken (by rw [hstop]; trivial)
  rw [hstop] at hskip
  obtain ⟨s, hs, hunread, hlocation⟩ := hskip
  exact ⟨start, s, hopen, hafter ▸ hs, hunread, hlocation⟩

end Trivia
end LineLexer
