import LineLexer.Proofs.ScanSegmentation
import LineLexer.Proofs.SkipReference

/-!
# Where block comments end

Behind its opener a block comment goes through the first closer, however many lines that is away
and whatever the delimiters have in common. An opener that stands before every closer is an error
there, and the lack of both is one at the end of input. Keeping the comment changes nothing else.
-/

namespace LineLexer.Reader

open Input (withFinalNewline)
open Text (firstIndex?)

section Ends

variable (file before u : Text) (r s : Reader)

structure BlockTaken (opener : Text) (n : Nat) : Prop where
  returned : ∀ keep, blockComment keep r = .ok (if keep then some (opener ++ u.take n) else none) s
  unread : s.unreadText = u.drop n
  location : s.location = .between file (before ++ u.take n) (u.drop n)
  queue : s.queue = r.queue

structure BlockRefused (kind : LexicalKind) (n : Nat) : Prop where
  failed : ∀ keep, blockComment keep r = .error (.lexical kind s.location none) s
  unread : s.unreadText = u.drop n
  location : s.location = .between file (before ++ u.take n) (u.drop n)
  queue : s.queue = []

end Ends

section Delimited

variable {file text before u : Text} {config : Config} {r : Reader} {d : Delimiters}
  (h : At before u r) (hopener : r.config.opener = .text d.opener)
  (hcloser : r.config.closer = .text d.closer)

include h hopener hcloser

theorem At.exists_blockTaken {n : Nat} (hbody : d.body u = .ok (u.take n))
    (hlt : (u.take n).length < u.length) : ∃ s, BlockTaken r.file before u r s d.opener n := by
  obtain ⟨s, hs, hplace, hcarries⟩ :=
    h.blockComment_of_closed hopener hcloser hbody (Nat.ne_of_lt hlt)
  have hdrop : u.drop (u.take n).length = u.drop n := by
    rw [List.length_take] at hlt ⊢
    rw [Nat.min_eq_left (by omega)]
  rw [hdrop] at hplace
  exact ⟨s, hs, hplace.unreadText, by rw [hplace.location, hcarries.file], hcarries.queue⟩

theorem At.exists_blockRefused (hinside : Inside file text config r) {kind : LexicalKind} {n : Nat}
    (hbody : d.body u = .error n ∧ kind = .nestedBlockComment ∨
      d.body u = .ok u ∧ kind = .unexpectedEnd ∧ n = u.length) :
    ∃ s, BlockRefused file before u r s kind n := by
  obtain ⟨s, hs, hplace, hqueue⟩ : ∃ s, (∀ keep, blockComment keep r = .error (.lexical kind
      (.between r.file (before ++ u.take n) (u.drop n)) none) s) ∧
      At (before ++ u.take n) (u.drop n) s ∧ s.queue = [] := by
    obtain ⟨hn, rfl⟩ | ⟨hall, rfl, rfl⟩ := hbody
    · exact h.blockComment_of_nested hopener hcloser hn
    · rw [List.take_length, List.drop_length]
      exact h.blockComment_of_open hopener hcloser hall rfl
  have hafter := (stable_inside file text config).after (o := .blockComment true) trivial hinside
  rw [show Operation.after r (.blockComment true) = s from Op.after_of_error (hs true)] at hafter
  obtain ⟨-, -, -, -, hfile, -⟩ := hinside
  obtain ⟨-, -, -, -, hfile', -⟩ := hafter
  have hlocation := hplace.location
  rw [hfile'] at hlocation
  exact ⟨s, fun keep => by rw [hs keep, hlocation, hfile], hplace.unreadText, hlocation, hqueue⟩

end Delimited

/-- Wherever a session has led, a block comment ends with the closer if that stands first, and
otherwise fails at the opener that stands first, or at the end of input. -/
theorem blockComment_of_reached {fs : FileSystem} {file source opener closer : Text}
    {config : Config} {start r : Reader} (h : DecodesTo fs file config source)
    (hopen : ofFile fs file config = .ok start) (hr : Reached Operation.LeavesText start r)
    (hopener : config.opener = .text opener) (hcloser : config.closer = .text closer)
    (hopenerLine : '\n' ∉ opener) (hcloserLine : '\n' ∉ closer) :
    ∃ before u, before ++ u = withFinalNewline source ∧ r.unreadText = u ∧
      r.location = .between file before u ∧
      ∃ s, match firstIndex? closer u, firstIndex? opener u with
        | some j, none => BlockTaken file before u r s opener (j + closer.length)
        | some j, some k =>
          if j ≤ k then BlockTaken file before u r s opener (j + closer.length)
          else BlockRefused file before u r s .nestedBlockComment k
        | none, some k => BlockRefused file before u r s .nestedBlockComment k
        | none, none => BlockRefused file before u r s .unexpectedEnd u.length := by
  have hinside := inside_of_reached h hopen hr
  obtain ⟨before, u, htext, hplace, rfl, rfl⟩ := id hinside
  obtain ⟨d, rfl, rfl⟩ := Delimiters.exists_of_block hopener hcloser
  have hu : u.WholeLines := (Text.wholeLines_withFinalNewline source).suffix ⟨before, htext⟩
  have hbody := Delimiters.body_eq hopenerLine hcloserLine u
  have htaken {j : Nat} (hj : firstIndex? d.closer u = some j)
      (hbody : d.body u = .ok (u.take (j + d.closer.length))) :=
    hplace.exists_blockTaken hopener hcloser hbody (hu.length_take_lt hcloserLine d.closer_ne_nil hj)
  have hrefused {kind : LexicalKind} {n : Nat} (hends : d.body u = .error n ∧
      kind = .nestedBlockComment ∨ d.body u = .ok u ∧ kind = .unexpectedEnd ∧ n = u.length) :=
    hplace.exists_blockRefused hopener hcloser hinside hends
  refine ⟨before, u, htext, hplace.unreadText, hplace.location, ?_⟩
  cases hj : firstIndex? d.closer u with
  | none =>
    cases hk : firstIndex? d.opener u with
    | none =>
      simp only [hj, hk] at hbody
      exact hrefused (.inr ⟨hbody, rfl, rfl⟩)
    | some k =>
      simp only [hj, hk] at hbody
      exact hrefused (.inl ⟨hbody, rfl⟩)
  | some j =>
    cases hk : firstIndex? d.opener u with
    | none =>
      simp only [hj, hk] at hbody
      exact htaken hj hbody
    | some k =>
      simp only [hj, hk] at hbody
      by_cases hle : j ≤ k
      · rw [if_neg (Nat.not_lt.2 hle)] at hbody
        simp only [hle, if_true]
        exact htaken hj hbody
      · rw [if_pos (Nat.lt_of_not_le hle)] at hbody
        simp only [hle, if_false]
        exact hrefused (.inl ⟨hbody, rfl⟩)

theorem blockComment_of_reached_sharedStar :
    ∃ start r s, ofFile (({} : FileSystem).addFile ['f']
        [0x61, 0x20, 0x62, 0x0A, 0x2F, 0x2A, 0x2F]) ['f'] {} = .ok start ∧
      Operation.after (Operation.after start
        (.matchPattern (.ready ⟨.one (.literal 'a' .exact), 0⟩) none)) (.accept 1) = r ∧
      (∀ keep, blockComment keep r = .error (.lexical .nestedBlockComment ⟨['f'], 2, 1⟩ none) s) ∧
      s.unreadText = "/*/\n".toList ∧ s.queue = [] := by
  have hdecodes : DecodesTo (({} : FileSystem).addFile ['f']
      [0x61, 0x20, 0x62, 0x0A, 0x2F, 0x2A, 0x2F]) ['f'] {} "a b\n/*/".toList :=
    decodesTo_of_chunk "a b\n/*/".toList [.openingPlain ['f'] 8192] (by cbv) (by cbv)
  obtain ⟨start, hopen, hplace, -⟩ := ofFile_of_decodesTo hdecodes
  let pattern : Pattern := ⟨.one (.literal 'a' .exact), 0⟩
  let matching := Operation.matchPattern (.ready pattern) none
  have hreached : Reached Operation.LeavesText start (Operation.after start matching) :=
    .step .start matching trivial
  have hready : (Pattern.Source.ready pattern).resolve = .ok pattern := rfl
  obtain ⟨t, ht, hplace, -⟩ := hplace.matchPattern hready
  obtain ⟨r, hr, hplace, -⟩ := hplace.accept 1
  have hmatched : Operation.after start matching = t := Op.after_of_ok ht
  have haccepted : Operation.after t (.accept 1) = r := Op.after_of_ok hr
  obtain ⟨before, u, hbefore, hu, -, s, hs⟩ :=
    blockComment_of_reached hdecodes hopen (hreached.step (.accept 1) trivial)
      Delimiters.delimits_usual.opener Delimiters.delimits_usual.closer (by decide) (by decide)
  rw [hmatched, haccepted] at hu hs
  rw [hplace.unreadText] at hu
  subst hu
  obtain rfl : before = ['a'] := List.append_cancel_right hbefore
  have hs : BlockRefused ['f'] ['a'] " b\n/*/\n".toList r s .nestedBlockComment 3 := hs
  have hlocation : s.location = ⟨['f'], 2, 1⟩ := hs.location
  refine ⟨start, r, s, hopen, by rw [hmatched, haccepted], ?_, hs.unread, hs.queue⟩
  rw [← hlocation]
  exact hs.failed

end LineLexer.Reader
