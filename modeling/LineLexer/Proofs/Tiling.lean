import LineLexer.Proofs.ScanSegmentation
import Mathlib

/-!
# Fragments stand in the text, and tile it

Whatever the patterns capture, a fragment is a part of the text of its file
and stands where its location says. With comments kept, and patterns that
capture nothing but all that they match, the fragments and the blanks between
them are the whole text.
-/

namespace LineLexer

open Input (withFinalNewline)

/-- A fragment is a part of the text of a file, and its location is that of this part and of no
other place in the text. -/
def Fragment.StandsIn (file text : Text) (f : Fragment) : Prop :=
  ∃ before after, text = before ++ f.text ++ after ∧ f.location = .behind file before ∧
    ∀ other, other <+: text → f.location = .behind file other → other = before

def Piece.StandsIn (u : Text) (p : Piece) : Prop :=
  ∀ x ∈ p.found, x.1 ≤ u.firstLine.length ∧ x.2 <+: u.drop x.1

namespace Piece

variable {u : Text} {p : Piece}

theorem standsIn_front {t : Text} (h : t <+: u) (text : Text) :
    Piece.StandsIn u ⟨text, [(0, t)]⟩ := by
  intro x hx
  obtain rfl := List.mem_singleton.1 hx
  exact ⟨Nat.zero_le _, h⟩

theorem standsIn_comment {t : Text} (h : t <+: u) (keep : Bool) :
    (Delimiters.comment keep t).StandsIn u := by
  cases keep with
  | true => exact standsIn_front h t
  | false => exact fun x hx => absurd hx List.not_mem_nil

theorem standsIn_match {m : Match} {c : Char} {w : Text} (hm : m.Within (Text.firstLine (c :: w))) :
    (m.piece c).StandsIn (c :: w) := by
  have hfound : ∀ x ∈ m.found,
      x.1 ≤ (Text.firstLine (c :: w)).length ∧ x.2 <+: (c :: w).drop x.1 := by
    intro x hx
    obtain ⟨hle, hbegins⟩ := hm.found x hx
    exact ⟨hle, hbegins.trans (List.IsPrefix.drop (Text.firstLine_prefix _) x.1)⟩
  unfold Match.piece
  split
  · intro x hx
    rcases List.mem_append.1 hx with hx | hx
    · exact hfound x hx
    · exact standsIn_front ⟨w, rfl⟩ [c] x hx
  · exact hfound

theorem standsIn_of_cut {s : Scan} {d : Delimiters} (h : s.cut d u = .piece p) :
    p.StandsIn u := by
  rcases Scan.cut_eq_piece h with htrivia | htoken
  · rcases Delimiters.trivia_eq_piece htrivia with ⟨c, -, -, rfl⟩ | ⟨t, -, ht, rfl⟩
    · exact fun x hx => absurd hx List.not_mem_nil
    · exact standsIn_comment ht s.keepComments
  · obtain ⟨c, w, rfl, ⟨-, rfl⟩ | ⟨m, hm, rfl⟩⟩ := Scan.token_eq_piece htoken
    · exact standsIn_front ⟨w, rfl⟩ [c]
    · obtain ⟨_, -, _, -, hmatch⟩ := firstMatch_eq_some hm
      exact standsIn_match (Pattern.within_of_match? hmatch)

theorem StandsIn.fragments (h : p.StandsIn u) (file before : Text) :
    ∀ f ∈ p.fragments file before, f.StandsIn file (before ++ u) := by
  intro f hf
  obtain ⟨x, hx, rfl⟩ := List.mem_map.1 hf
  obtain ⟨hle, after, hafter⟩ := h x hx
  have htext : before ++ u = before ++ u.take x.1 ++ x.2 ++ after := by
    rw [List.append_assoc, hafter, List.append_assoc, List.take_append_drop]
  have hlocation := Location.behind_append_take hle file before
  refine ⟨before ++ u.take x.1, after, htext, hlocation.symm, ?_⟩
  intro other hother heq
  -- Two places in one text differ in their line or in their column.
  refine Location.behind_injective hother ?_ (heq.symm.trans hlocation.symm)
  rw [htext, List.append_assoc]
  exact List.prefix_append _ _

end Piece

theorem standsIn_of_chain {s : Scan} {d : Delimiters} {u v : Text} {ps : List Piece}
    (h : Chain (s.cut d) u ps v) (file before : Text) :
    ∀ f ∈ locate file before ps, f.StandsIn file (before ++ u) := by
  induction h generalizing before with
  | nil => exact fun f hf => absurd hf List.not_mem_nil
  | @cons u v p ps head _ ih =>
    intro f hf
    rcases List.mem_append.1 hf with hf | hf
    · exact (Piece.standsIn_of_cut head).fragments file before f hf
    · have hsplit : p.text ++ u.drop p.text.length = u :=
        List.prefix_iff_eq_append.1 (Scan.prefix_of_cut head).1
      have hrest := ih (before ++ p.text) f hf
      rwa [List.append_assoc, hsplit] at hrest

/-- Fragments tile the rest of a text: each stands behind the one before it, with nothing but
blanks between them. -/
inductive Tiles (file : Text) : Text → List Fragment → Text → Prop
  | nil {before rest : Text} (blank : ∀ c ∈ rest, Text.isBlank c = true) :
      Tiles file before [] rest
  | cons {before gap after : Text} {f : Fragment} {fs : List Fragment}
      (blank : ∀ c ∈ gap, Text.isBlank c = true)
      (location : f.location = .behind file (before ++ gap))
      (tail : Tiles file (before ++ gap ++ f.text) fs after) :
      Tiles file before (f :: fs) (gap ++ f.text ++ after)

theorem Tiles.blank {file before rest : Text} {fs : List Fragment} {c : Char}
    (hc : Text.isBlank c = true) (h : Tiles file (before ++ [c]) fs rest) :
    Tiles file before fs (c :: rest) := by
  generalize hplace : before ++ [c] = place at h
  cases h with
  | nil blank => exact .nil (by simpa [hc] using blank)
  | @cons _ gap after f fs blank location tail =>
    subst hplace
    have hgap : before ++ [c] ++ gap = before ++ c :: gap := by simp
    rw [hgap] at location tail
    show Tiles file before (f :: fs) (c :: gap ++ f.text ++ after)
    exact .cons (by simpa [hc] using blank) location tail

theorem Tiles.front {file rest : Text} {fs : List Fragment} (before text : Text)
    (h : Tiles file (before ++ text) fs rest) :
    Tiles file before (⟨.behind file before, text⟩ :: fs) (text ++ rest) := by
  show Tiles file before _ ([] ++ text ++ rest)
  exact .cons (by simp) (by simp) (by simpa using h)

inductive Piece.Tiled : Piece → Prop
  | blank {c : Char} (hc : Text.isBlank c = true) : Tiled ⟨[c], []⟩
  | whole (t : Text) : Tiled ⟨t, [(0, t)]⟩
  | afterEmpty (t : Text) : Tiled ⟨t, [(0, []), (0, t)]⟩

theorem singleCharacter_capturesWhole {p : Pattern}
    (h : Scan.singleCharacter.resolve = .ok p) : p.CapturesWhole := by
  have hsingle : Scan.singleCharacter.resolve =
      .ok ⟨.group 1 (.one (.oneOf false [.category .blank false true] .exact)), 1⟩ := by rfl
  obtain rfl := Except.ok.inj (hsingle.symm.trans h)
  exact .inr ⟨rfl, _, rfl⟩

theorem Match.found_of_capturesWhole {p : Pattern} (hp : p.CapturesWhole) {line : Text} {m : Match}
    (h : p.match? line = some m) :
    m.found = [(0, m.wholeText)] ∨ m.whole.stop = 0 ∧ m.found = [] := by
  have hwithin := Pattern.within_of_match? h
  rcases Pattern.groups_of_match? hp h with hgroups | hgroups
  · by_cases hstop : m.whole.stop = 0
    · right
      have hnil : m.wholeText = [] := List.length_eq_zero_iff.1 (hwithin.length_wholeText.trans hstop)
      simp [found, hgroups, Reader.keptSpans, hnil, hstop]
    · left
      have hne : m.wholeText ≠ [] := by
        intro hnil
        exact hstop (hwithin.length_wholeText.symm.trans (by rw [hnil]; rfl))
      simp [found, hgroups, Reader.keptSpans, hne]
  · left
    simp [found, hgroups, Reader.keptSpans, hwithin.start, wholeText]

theorem Match.tiled_piece {p : Pattern} (hp : p.CapturesWhole) {line : Text} {m : Match}
    (h : p.match? line = some m) (c : Char) : (m.piece c).Tiled := by
  have hwithin := Pattern.within_of_match? h
  unfold piece
  split
  · rename_i hstop
    have hnil : m.wholeText = [] := List.length_eq_zero_iff.1 (hwithin.length_wholeText.trans hstop)
    rcases found_of_capturesWhole hp h with hfound | ⟨-, hfound⟩
    · rw [hfound, hnil]
      exact .afterEmpty [c]
    · rw [hfound]
      exact .whole [c]
  · rename_i hstop
    rcases found_of_capturesWhole hp h with hfound | ⟨hzero, -⟩
    · rw [hfound]
      exact .whole _
    · exact absurd hzero hstop

namespace Scan

variable {s : Scan} {d : Delimiters}

theorem tiled_of_cut {u : Text} {p : Piece} (hkeep : s.keepComments = true)
    (hpatterns : ∀ source ∈ s.patterns, ∀ p, source.resolve = .ok p → p.CapturesWhole)
    (h : s.cut d u = .piece p) : p.Tiled := by
  rcases cut_eq_piece h with htrivia | htoken
  · rcases Delimiters.trivia_eq_piece htrivia with ⟨c, hc, -, rfl⟩ | ⟨t, -, -, rfl⟩
    · exact .blank hc
    · rw [hkeep]
      exact .whole t
  · obtain ⟨c, w, rfl, ⟨-, rfl⟩ | ⟨m, hm, rfl⟩⟩ := token_eq_piece htoken
    · exact .whole [c]
    · obtain ⟨source, hsource, p, hp, hmatch⟩ := firstMatch_eq_some hm
      refine Match.tiled_piece ?_ hmatch c
      rcases List.mem_append.1 hsource with hmem | hmem
      · exact hpatterns source hmem p hp
      · rw [List.mem_singleton.1 hmem] at hp
        exact singleCharacter_capturesWhole hp

theorem tiles_of_chain {u v : Text} {ps : List Piece} (hkeep : s.keepComments = true)
    (hpatterns : ∀ source ∈ s.patterns, ∀ p, source.resolve = .ok p → p.CapturesWhole)
    (h : Chain (s.cut d) u ps v) (hv : v = []) (file before : Text) :
    Tiles file before (locate file before ps) u := by
  induction h generalizing before with
  | nil u =>
    subst hv
    exact .nil (by simp)
  | @cons u v p ps head _ ih =>
    have hrest := ih hv (before ++ p.text)
    have hsplit : p.text ++ u.drop p.text.length = u :=
      List.prefix_iff_eq_append.1 (prefix_of_cut head).1
    rw [← hsplit]
    cases tiled_of_cut hkeep hpatterns head with
    | blank hc => exact hrest.blank hc
    | whole t =>
      have hfront := Tiles.front before t hrest
      simpa [locate, Piece.fragments] using hfront
    | afterEmpty t =>
      have hfront := Tiles.front before [] (by simpa using Tiles.front before t hrest)
      simpa [locate, Piece.fragments] using hfront

theorem cut_eq_nothing {u : Text} (h : s.cut d u = .nothing) : u = [] := by
  by_contra hne
  by_cases htrivia : d.trivia s.keepComments u = .nothing
  · rw [cut_of_token htrivia] at h
    exact token_ne_nothing hne h
  · rw [cut_of_trivia htrivia] at h
    exact htrivia h

theorem chain_of_run {fs : FileSystem} {file source : Text} {found : List Fragment}
    (h : DecodesTo fs file s.config source) (hd : s.config.Delimits d)
    (hrun : (s.run fs file).result = .ok found) :
    ∃ ps, Chain (s.cut d) (withFinalNewline source) ps [] ∧ found = locate file [] ps := by
  obtain ⟨ps, v, hchain, hfinal, hresult⟩ := exists_chain h hd
  rw [hresult, verdict] at hrun
  cases hcut : s.cut d v with
  | piece p =>
    rw [hcut] at hfinal
    exact hfinal.elim
  | failure f =>
    rw [hcut] at hrun
    cases hrun
  | nothing =>
    rw [hcut] at hrun
    obtain rfl := cut_eq_nothing hcut
    exact ⟨ps, hchain, (Except.ok.inj hrun).symm⟩

/-- Every fragment of a scan stands in the text of the file at its location. -/
theorem standsIn_of_run {fs : FileSystem} {file source : Text} {found : List Fragment}
    (h : DecodesTo fs file s.config source) (hd : s.config.Delimits d)
    (hrun : (s.run fs file).result = .ok found) :
    ∀ f ∈ found, f.StandsIn file (withFinalNewline source) := by
  obtain ⟨ps, hchain, rfl⟩ := chain_of_run h hd hrun
  exact standsIn_of_chain hchain file []

theorem standsIn_of_run_lookAhead :
    Fragment.StandsIn ['f'] ['a', 'b', '\n'] ⟨⟨['f'], 1, 2⟩, ['b']⟩ := by
  let s : Scan := { config := {}, patterns := [.written "(a)(?=(b))".toList] }
  have hdecodes : DecodesTo (({} : FileSystem).addFile ['f'] [0x61, 0x62]) ['f'] s.config
      ['a', 'b'] :=
    decodesTo_of_chunk ['a', 'b'] [.openingPlain ['f'] 8192] (by cbv) (by cbv)
  have hchain : Chain (s.cut .usual) (withFinalNewline ['a', 'b'])
      [⟨['a'], [(0, ['a']), (1, ['b'])]⟩, ⟨['b'], [(0, ['b'])]⟩, ⟨['\n'], []⟩] [] :=
    .cons rfl (.cons rfl (.cons rfl (.nil [])))
  have hd : s.config.Delimits .usual := Delimiters.delimits_usual
  have hmem : (⟨⟨['f'], 1, 2⟩, ['b']⟩ : Fragment) ∈
      locate ['f'] [] [⟨['a'], [(0, ['a']), (1, ['b'])]⟩, ⟨['b'], [(0, ['b'])]⟩, ⟨['\n'], []⟩] := by
    decide
  exact standsIn_of_run hdecodes hd (run_of_chain hdecodes hd hchain trivial) _ hmem

/-- A scan that keeps comments neither loses nor repeats anything but blanks. -/
theorem tiles_of_run {fs : FileSystem} {file source : Text} {found : List Fragment}
    (h : DecodesTo fs file s.config source) (hd : s.config.Delimits d)
    (hkeep : s.keepComments = true)
    (hpatterns : ∀ source ∈ s.patterns, ∀ p, source.resolve = .ok p → p.CapturesWhole)
    (hrun : (s.run fs file).result = .ok found) :
    Tiles file [] found (withFinalNewline source) := by
  obtain ⟨ps, hchain, rfl⟩ := chain_of_run h hd hrun
  exact tiles_of_chain hkeep hpatterns hchain rfl file []

theorem tiles_of_run_comment :
    Tiles ['f'] [] [⟨⟨['f'], 1, 2⟩, ['a']⟩, ⟨⟨['f'], 1, 3⟩, "/*\n*/".toList⟩, ⟨⟨['f'], 2, 3⟩, ['b']⟩]
      " a/*\n*/b\n".toList := by
  let s : Scan := { config := {}, keepComments := true, patterns := [.written "(\\w+)".toList] }
  have hdecodes : DecodesTo (({} : FileSystem).addFile ['f']
      [0x20, 0x61, 0x2F, 0x2A, 0x0A, 0x2A, 0x2F, 0x62]) ['f'] s.config " a/*\n*/b".toList :=
    decodesTo_of_chunk " a/*\n*/b".toList [.openingPlain ['f'] 8192] (by cbv) (by cbv)
  have hchain : Chain (s.cut .usual) (withFinalNewline " a/*\n*/b".toList)
      [⟨[' '], []⟩, ⟨['a'], [(0, ['a'])]⟩, ⟨"/*\n*/".toList, [(0, "/*\n*/".toList)]⟩,
        ⟨['b'], [(0, ['b'])]⟩, ⟨['\n'], []⟩] [] :=
    .cons rfl (.cons rfl (.cons rfl (.cons rfl (.cons rfl (.nil [])))))
  have hword : ∀ source ∈ s.patterns, ∀ p, source.resolve = .ok p → p.CapturesWhole := by
    intro source hsource p hp
    obtain rfl := List.mem_singleton.1 hsource
    have hresolve : Pattern.Source.resolve (.written "(\\w+)".toList) =
        .ok ⟨.group 1 (.repeatOne (.oneOf false [.category .word false false] .exact) 1 none true), 1⟩ := by
      rfl
    obtain rfl := Except.ok.inj (hresolve.symm.trans hp)
    exact .inr ⟨rfl, _, rfl⟩
  have hd : s.config.Delimits .usual := Delimiters.delimits_usual
  exact tiles_of_run hdecodes hd rfl hword (run_of_chain hdecodes hd hchain trivial)

end Scan
end LineLexer
