import LineLexer.Proofs.BlockEnds
import Mathlib

/-!
# A closer in sight is found

A delimiter of several characters is compared with what the line reads before its newline, and one
of a single character with the next character, which may be that newline. So a closer is in sight
where it stands within a line, and where it is a newline itself and the text goes on behind it. A
block comment with a closer in sight never runs into the end of input; a closer of which a newline
is only a part is never in sight, and the comment never ends.
-/

namespace LineLexer

open Input (withFinalNewline)
open Text (goesOn)

namespace Text

/-- Somewhere in whole lines this word can be seen, with something behind it. -/
def InSight (w u : Text) : Prop := '\n' ∉ w ∧ w <:+: u ∨ w = ['\n'] ∧ '\n' ∈ u.dropLast

theorem exists_goesOn_of_inSight {w u : Text} (hu : u.WholeLines) (hne : w ≠ []) (h : InSight w u) :
    ∃ j, goesOn w (u.drop j) = true ∧ j + w.length < u.length := by
  obtain ⟨hline, a, b, hab⟩ | ⟨rfl, hmem⟩ := h
  · have hbegins : w <+: u.drop a.length := by
      rw [← hab, List.append_assoc, List.drop_left]
      exact List.prefix_append w b
    refine ⟨a.length, ?_, hu.lt_length hline hne hbegins⟩
    rw [goesOn_eq_isPrefixOf hline]
    exact List.isPrefixOf_iff_prefix.2 hbegins
  · have hsome : u ≠ [] := by
      rintro rfl
      cases hmem
    obtain ⟨body, c, rfl⟩ : ∃ body c, u = body ++ [c] := ⟨_, _, (List.dropLast_concat_getLast hsome).symm⟩
    rw [List.dropLast_concat] at hmem
    obtain ⟨a, b, rfl⟩ := List.append_of_mem hmem
    refine ⟨a.length, ?_, ?_⟩
    · rw [List.append_assoc, List.drop_left]
      exact Bool.or_eq_true_iff.2 (.inr rfl)
    · simp only [List.length_append, List.length_cons, List.length_nil]
      omega

theorem goesOn_of_overNewline {w : Text} (hmem : '\n' ∈ w) (hne : w ≠ ['\n']) (u : Text) :
    goesOn w u = false := by
  rw [goesOn, Bool.or_eq_false_iff, Bool.and_eq_false_iff]
  refine ⟨?_, .inl (by simpa using hne)⟩
  rw [Bool.eq_false_iff, Ne, List.isPrefixOf_iff_prefix]
  exact fun hbegins => u.newline_notMem_firstLine (hbegins.subset hmem)

end Text

namespace Delimiters

variable {d : Delimiters} {u t : Text}

theorem length_lt_of_body {j : Nat} (hgo : goesOn d.closer (u.drop j) = true)
    (hlt : j + d.closer.length < u.length) (h : d.body u = .ok t) : t.length < u.length := by
  induction u generalizing t j with
  | nil => simp at hlt
  | cons c u ih =>
    unfold body at h
    split at h
    · obtain rfl := Except.ok.inj h
      omega
    · rename_i hnot
      split at h
      · cases h
      · split at h
        · rename_i t' ht'
          obtain rfl := Except.ok.inj h
          cases j with
          | zero => exact absurd hgo hnot
          | succ j =>
            have hlt' : j + d.closer.length < u.length := by
              rw [List.length_cons] at hlt
              omega
            simpa using ih hgo hlt' ht'
        · cases h

theorem eq_of_body (hnever : ∀ v, goesOn d.closer v = false) (h : d.body u = .ok t) : t = u := by
  induction u generalizing t with
  | nil => exact (Except.ok.inj h).symm
  | cons c u ih =>
    unfold body at h
    rw [hnever, if_neg Bool.false_ne_true] at h
    split at h
    · cases h
    · split at h
      · rename_i t' ht'
        obtain rfl := Except.ok.inj h
        rw [ih ht']
      · cases h

end Delimiters

namespace Reader

def BlockFails (keep : Bool) (r : Reader) (kind : LexicalKind) : Prop :=
  ∃ location s, blockComment keep r = .error (.lexical kind location none) s

section Reached

variable {fs : FileSystem} {file source opener closer : Text} {config : Config} {start r : Reader}

theorem exists_body_of_reached (h : DecodesTo fs file config source)
    (hopen : ofFile fs file config = .ok start) (hr : Reached Operation.LeavesText start r)
    (hopener : config.opener = .text opener) (hcloser : config.closer = .text closer) (keep : Bool) :
    r.unreadText.WholeLines ∧ ∃ d : Delimiters, d.closer = closer ∧
      match d.body r.unreadText with
      | .ok t =>
        if t.length < r.unreadText.length then ∃ kept s, blockComment keep r = .ok kept s
        else r.BlockFails keep .unexpectedEnd
      | .error _ => r.BlockFails keep .nestedBlockComment := by
  have hinside := inside_of_reached h hopen hr
  obtain ⟨before, u, htext, hplace, rfl, rfl⟩ := id hinside
  obtain ⟨d, rfl, rfl⟩ := Delimiters.exists_of_block hopener hcloser
  rw [hplace.unreadText]
  refine ⟨(Text.wholeLines_withFinalNewline source).suffix ⟨before, htext⟩, d, rfl, ?_⟩
  cases hbody : d.body u with
  | error n =>
    obtain ⟨s, hs⟩ := hplace.exists_blockRefused hopener hcloser hinside (.inl ⟨hbody, rfl⟩)
    exact ⟨_, s, hs.failed keep⟩
  | ok t =>
    have htake : t = u.take t.length := List.prefix_iff_eq_take.1 (Delimiters.prefix_of_body hbody)
    by_cases hlt : t.length < u.length
    · simp only [if_pos hlt]
      rw [htake] at hbody hlt
      obtain ⟨s, hs⟩ := hplace.exists_blockTaken hopener hcloser hbody hlt
      exact ⟨_, s, hs.returned keep⟩
    · simp only [if_neg hlt]
      rw [List.take_of_length_le (Nat.le_of_not_lt hlt)] at htake
      obtain ⟨s, hs⟩ :=
        hplace.exists_blockRefused hopener hcloser hinside (.inr ⟨htake ▸ hbody, rfl, rfl⟩)
      exact ⟨_, s, hs.failed keep⟩

/-- Wherever a session has led, a closer in sight is met, unless an opener is met before it. -/
theorem blockComment_of_inSight (h : DecodesTo fs file config source)
    (hopen : ofFile fs file config = .ok start) (hr : Reached Operation.LeavesText start r)
    (hopener : config.opener = .text opener) (hcloser : config.closer = .text closer)
    (hsight : closer.InSight r.unreadText) (keep : Bool) :
    (∃ t s, blockComment keep r = .ok t s) ∨ r.BlockFails keep .nestedBlockComment := by
  obtain ⟨hlines, d, rfl, hends⟩ := exists_body_of_reached h hopen hr hopener hcloser keep
  obtain ⟨j, hgo, hlt⟩ := Text.exists_goesOn_of_inSight hlines d.closer_ne_nil hsight
  cases hbody : d.body r.unreadText with
  | ok t =>
    simp only [hbody, if_pos (Delimiters.length_lt_of_body hgo hlt hbody)] at hends
    exact .inl hends
  | error n =>
    simp only [hbody] at hends
    exact .inr hends

theorem blockComment_of_inSight_newline :
    ∃ start, DecodesTo (({} : FileSystem).addFile ['f'] [0x61, 0x0A, 0x62]) ['f']
        { closer := .text ['\n'] } "a\nb".toList ∧
      ofFile (({} : FileSystem).addFile ['f'] [0x61, 0x0A, 0x62]) ['f'] { closer := .text ['\n'] } = .ok start ∧
      Text.InSight ['\n'] start.unreadText ∧ ¬start.BlockFails true .nestedBlockComment ∧
      ∃ t s, blockComment true start = .ok t s := by
  have hdecodes : DecodesTo (({} : FileSystem).addFile ['f'] [0x61, 0x0A, 0x62]) ['f']
      { closer := .text ['\n'] } "a\nb".toList :=
    decodesTo_of_chunk "a\nb".toList [.openingPlain ['f'] 8192] (by cbv) (by cbv)
  obtain ⟨start, s, hopen, hunread, hruns⟩ : ∃ start s,
      ofFile (({} : FileSystem).addFile ['f'] [0x61, 0x0A, 0x62]) ['f'] { closer := .text ['\n'] } = .ok start ∧
      start.unreadText = "a\nb\n".toList ∧ blockComment true start = .ok (some "/*a\n".toList) s :=
    ⟨_, _, by cbv, by cbv, by cbv⟩
  have hsight : Text.InSight ['\n'] start.unreadText := by
    rw [hunread]
    exact .inr ⟨rfl, by decide⟩
  have hends := blockComment_of_inSight hdecodes hopen .start rfl rfl hsight true
  have hpasses : ¬start.BlockFails true .nestedBlockComment := by
    rintro ⟨location, t, hfails⟩
    rw [hruns] at hfails
    cases hfails
  exact ⟨start, hdecodes, hopen, hsight, hpasses, hends.resolve_right hpasses⟩

/-- A closer of which a newline is only a part is never met, wherever it stands. -/
theorem blockFails_of_overNewline (h : DecodesTo fs file config source)
    (hopen : ofFile fs file config = .ok start) (hr : Reached Operation.LeavesText start r)
    (hopener : config.opener = .text opener) (hcloser : config.closer = .text closer)
    (hmem : '\n' ∈ closer) (hne : closer ≠ ['\n']) (keep : Bool) :
    r.BlockFails keep .unexpectedEnd ∨ r.BlockFails keep .nestedBlockComment := by
  obtain ⟨-, d, rfl, hends⟩ := exists_body_of_reached h hopen hr hopener hcloser keep
  cases hbody : d.body r.unreadText with
  | ok t =>
    obtain rfl := Delimiters.eq_of_body (Text.goesOn_of_overNewline hmem hne) hbody
    simp only [hbody, if_neg (Nat.lt_irrefl _)] at hends
    exact .inl hends
  | error n =>
    simp only [hbody] at hends
    exact .inr hends

/-- A closer of which a newline is a part stands in the text, and the comment runs into the end. -/
theorem blockComment_overNewline :
    ∃ start s, ofFile (({} : FileSystem).addFile ['f'] [0x78, 0x20, 0x2A, 0x0A, 0x79]) ['f']
        { closer := .text ['*', '\n'] } = .ok start ∧
      ['*', '\n'] <:+: start.unreadText ∧
      blockComment true start = .error (.lexical .unexpectedEnd ⟨['f'], 2, 2⟩ none) s := by
  obtain ⟨start, s, hopen, hunread, hruns⟩ : ∃ start s,
      ofFile (({} : FileSystem).addFile ['f'] [0x78, 0x20, 0x2A, 0x0A, 0x79]) ['f']
        { closer := .text ['*', '\n'] } = .ok start ∧
      start.unreadText = "x *\ny\n".toList ∧
      blockComment true start = .error (.lexical .unexpectedEnd ⟨['f'], 2, 2⟩ none) s :=
    ⟨_, _, by cbv, by cbv, by cbv⟩
  refine ⟨start, s, hopen, ?_, hruns⟩
  rw [hunread]
  exact ⟨['x', ' '], ['y', '\n'], rfl⟩

end Reached

end Reader
end LineLexer
