import LineLexer.Proofs.Lexemes
import LineLexer.Proofs.SkipReference
import LineLexer.Proofs.Tiling

/-!
# Scanning with the usual patterns

Where nothing is to be skipped, the usual patterns and the single characters
behind them take the name, the number or the character at the front of the
text. A scan without a lexical error therefore returns these tokens of its
text one after another, none of them empty, blank or overlapping another.
-/

namespace LineLexer

open Input (withFinalNewline)
open Text (firstLine isBlank isDigit fraction numeral lexeme)

namespace Text

variable {p : Char → Bool}

theorem takeWhile_firstLine (hp : p '\n' = false) (u : Text) :
    u.firstLine.takeWhile p = u.takeWhile p := by
  rw [firstLine, List.takeWhile_takeWhile]
  congr 1
  funext c
  by_cases hc : c = '\n'
  · simp [hc, hp]
  · simp [hc]

theorem firstLine_cons {c : Char} (hc : c ≠ '\n') (u : Text) :
    firstLine (c :: u) = c :: firstLine u := by
  simp [firstLine, hc]

theorem dropWhile_firstLine (hp : p '\n' = false) (u : Text) :
    u.firstLine.dropWhile p = firstLine (u.dropWhile p) := by
  induction u with
  | nil => rfl
  | cons c u ih =>
    by_cases hc : p c = true
    · have hne : c ≠ '\n' := by
        rintro rfl
        simp [hp] at hc
      rw [firstLine_cons hne, List.dropWhile_cons_of_pos hc, List.dropWhile_cons_of_pos hc, ih]
    · rw [List.dropWhile_cons_of_neg hc]
      cases hline : firstLine (c :: u) with
      | nil => rfl
      | cons d w =>
        obtain ⟨v, hv⟩ := hline ▸ firstLine_prefix (c :: u)
        obtain ⟨rfl, -⟩ := List.cons.inj hv
        exact List.dropWhile_cons_of_neg hc

theorem fraction_of_ne {c : Char} (hc : c ≠ '.') (u : Text) : fraction (c :: u) = [] := by
  unfold fraction
  split
  · rename_i h
    exact absurd (List.cons.inj h).1 hc
  · rfl

theorem fraction_firstLine (u : Text) : fraction u.firstLine = fraction u := by
  have hdigit : isDigit '\n' = false := by decide
  cases u with
  | nil => rfl
  | cons c u =>
    by_cases hn : c = '\n'
    · subst hn
      rw [fraction_of_ne (by decide)]
      rfl
    rw [firstLine_cons hn]
    by_cases hc : c = '.'
    · subst hc
      cases u with
      | nil => rfl
      | cons d w =>
        by_cases hd : d = '\n'
        · subst hd
          have hline : firstLine ('\n' :: w) = [] := rfl
          simp [hline, fraction, hdigit]
        · have hrun := takeWhile_firstLine hdigit (d :: w)
          rw [firstLine_cons hd] at hrun ⊢
          simp only [fraction, hrun]
    · rw [fraction_of_ne hc, fraction_of_ne hc]

theorem numeral_firstLine (u : Text) : numeral u.firstLine = numeral u := by
  have hdigit : isDigit '\n' = false := by decide
  rw [numeral, takeWhile_firstLine hdigit, dropWhile_firstLine hdigit, fraction_firstLine, numeral]

theorem lexeme_firstLine {c : Char} (hc : c ≠ '\n') (u : Text) :
    lexeme (c :: firstLine u) = lexeme (c :: u) := by
  simp only [lexeme]
  rw [← firstLine_cons hc, takeWhile_firstLine (by decide), numeral_firstLine]

end Text

theorem Match.piece_of_capturesWhole {p : Pattern} (hp : p.CapturesWhole) {line t : Text}
    {m : Match} (h : p.match? line = some m) (ht : t <+: line) (hne : t ≠ [])
    (hstop : m.whole.stop = t.length) (c : Char) : m.piece c = ⟨t, [(0, t)]⟩ := by
  have hpos := List.length_pos_iff.2 hne
  have hwhole : m.wholeText = t := by
    rw [(Pattern.within_of_match? h).wholeText, hstop]
    exact (List.prefix_iff_eq_take.1 ht).symm
  have hfound : m.found = [(0, t)] := by
    rcases Match.found_of_capturesWhole hp h with hfound | ⟨hzero, -⟩
    · rw [hfound, hwhole]
    · omega
  rw [Match.piece, if_neg (by omega), hwhole, hfound]

namespace Delimiters

theorem isBlank_of_reference {d : Delimiters} {c : Char} {u : Text}
    (h : d.reference (c :: u) = .nothing) : isBlank c = false := by
  simp only [reference] at h
  split at h
  · cases h
  · rename_i hblank
    exact Bool.eq_false_iff.2 hblank

def lexing (d : Delimiters) (u : Text) : Cut :=
  match d.reference u with
  | .nothing => if u = [] then .nothing else .piece ⟨lexeme u, [(0, lexeme u)]⟩
  | cut => cut.kept false

end Delimiters

namespace Scan

def usual (config : Config) : Scan := { config, patterns := usualPatterns.map (.written ·) }

theorem firstMatch_usual (line : Text) :
    firstMatch line (usualPatterns.map (.written ·) ++ [singleCharacter]) =
      .ok ((Pattern.name.match? line).or
        ((Pattern.number.match? line).or (Pattern.visible.match? line))) := by
  simp only [usualPatterns, List.map_cons, List.map_nil, List.cons_append, List.nil_append,
    firstMatch, Pattern.resolve_name, Pattern.resolve_number, Pattern.resolve_singleCharacter]
  cases Pattern.name.match? line <;> cases Pattern.number.match? line <;>
    cases Pattern.visible.match? line <;> rfl

theorem exists_firstMatch_usual {c : Char} (hc : isBlank c = false) (line : Text) :
    ∃ p m, Pattern.CapturesWhole p ∧ p.match? (c :: line) = some m ∧
      m.whole.stop = (lexeme (c :: line)).length ∧
      firstMatch (c :: line) (usualPatterns.map (.written ·) ++ [singleCharacter]) = .ok (some m) := by
  rw [firstMatch_usual]
  by_cases hname : Text.beginsName c = true
  · obtain ⟨m, hm, hstop⟩ := Pattern.match?_name line hname
    refine ⟨Pattern.name, m, .inr ⟨rfl, _, rfl⟩, hm, ?_, by rw [hm]; rfl⟩
    simp only [lexeme, hname, if_true, hstop]
  · rw [Bool.not_eq_true] at hname
    rw [Pattern.match?_name_eq_none line hname]
    by_cases hdigit : isDigit c = true
    · obtain ⟨m, hm, hstop⟩ := Pattern.match?_number line hdigit
      refine ⟨Pattern.number, m, .inr ⟨rfl, _, rfl⟩, hm, ?_, by rw [hm]; rfl⟩
      simp [lexeme, hname, hdigit, hstop]
    · rw [Bool.not_eq_true] at hdigit
      rw [Pattern.match?_number_eq_none line hdigit]
      obtain ⟨m, hm, hstop⟩ := Pattern.match?_visible line hc
      refine ⟨Pattern.visible, m, .inr ⟨rfl, _, rfl⟩, hm, ?_, by rw [hm]; rfl⟩
      simp [lexeme, hname, hdigit, hstop]

variable {config : Config} {d : Delimiters}

theorem token_usual {c : Char} (hc : isBlank c = false) (u : Text) :
    (usual config).token (c :: u) = .piece ⟨lexeme (c :: u), [(0, lexeme (c :: u))]⟩ := by
  have hn : c ≠ '\n' := by
    rintro rfl
    exact absurd hc (by decide)
  obtain ⟨p, m, hp, hm, hstop, hfirst⟩ := exists_firstMatch_usual hc (firstLine u)
  have hpiece := Match.piece_of_capturesWhole hp hm (Text.lexeme_isPrefix _)
    (Text.lexeme_ne_nil c _) hstop c
  rw [Text.lexeme_firstLine hn] at hpiece
  simp only [token, usual, Text.firstLine_cons hn, hfirst, hpiece]

theorem cut_usual (hline : d.WithinLine) {u : Text} (hu : u.WholeLines) :
    (usual config).cut d u = d.lexing u := by
  have htrivia : d.trivia (usual config).keepComments u = (d.reference u).kept false :=
    Delimiters.trivia_eq_reference hline hu false
  unfold Delimiters.lexing
  cases hcut : d.reference u with
  | nothing =>
    rw [hcut] at htrivia
    rw [cut_of_token htrivia]
    cases u with
    | nil => rfl
    | cons c u =>
      rw [token_usual (Delimiters.isBlank_of_reference hcut), if_neg (List.cons_ne_nil c u)]
  | piece p =>
    rw [hcut] at htrivia
    rw [cut_of_trivia (by simp [htrivia, Cut.kept]), htrivia]
  | failure f =>
    rw [hcut] at htrivia
    rw [cut_of_trivia (by simp [htrivia, Cut.kept]), htrivia]

theorem cut_usual_ne_refused (hline : d.WithinLine) {u : Text} (hu : u.WholeLines)
    (fault : Fault) : (usual config).cut d u ≠ .failure (.refused fault) := by
  have htrivia := Delimiters.trivia_eq_reference hline hu false
  rw [cut_usual hline hu, Delimiters.lexing]
  cases hcut : d.reference u with
  | nothing => by_cases hnil : u = [] <;> simp [hnil]
  | piece p => simp [Cut.kept]
  | failure f =>
    intro hrefused
    obtain rfl : f = .refused fault := Cut.failure.inj hrefused
    rw [hcut] at htrivia
    exact Delimiters.trivia_ne_refused htrivia

theorem chain_of_usual {fs : FileSystem} {file source : Text}
    (h : DecodesTo fs file config source) (hd : config.Delimits d) (hline : d.WithinLine)
    (hlexical : ∀ kind place doing,
      ((usual config).run fs file).result ≠ .error (.lexical kind place doing)) :
    ∃ ps, Chain d.lexing (withFinalNewline source) ps [] ∧
      ((usual config).run fs file).result = .ok (locate file [] ps) := by
  obtain ⟨ps, v, hchain, hv, hresult⟩ := exists_chain (s := usual config) h hd
  have hlines := Text.wholeLines_withFinalNewline source
  have hrest : v.WholeLines :=
    hlines.suffix ⟨_, hchain.text_eq fun _ _ hp => (prefix_of_cut hp).1⟩
  rw [verdict] at hresult
  cases hcut : (usual config).cut d v with
  | piece p =>
    rw [hcut] at hv
    exact hv.elim
  | failure f =>
    rw [hcut] at hresult
    cases f with
    | lexical kind n => exact absurd hresult (hlexical _ _ _)
    | refused fault => exact absurd hcut (cut_usual_ne_refused hline hrest fault)
  | nothing =>
    rw [hcut] at hresult
    obtain rfl := cut_eq_nothing hcut
    exact ⟨ps, hchain.congr_of_wholeLines (fun _ hw => cut_usual hline hw) hlines, hresult⟩

end Scan

/-- The second of two fragments stands behind the whole of the first, which is on one line. -/
def Fragment.Precedes (f g : Fragment) : Prop :=
  f.location.line < g.location.line ∨
    f.location.line = g.location.line ∧ f.location.column + f.text.length ≤ g.location.column

theorem Location.precedes_behind {t : Text} (ht : '\n' ∉ t) (file before between s : Text) :
    Fragment.Precedes ⟨.behind file before, t⟩ ⟨.behind file (before ++ t ++ between), s⟩ := by
  by_cases hbetween : '\n' ∈ between
  · left
    have hpos := List.count_pos_iff.2 hbetween
    simp only [behind, Text.lineBehind, List.count_append]
    omega
  · right
    rw [behind_append_line hbetween, behind_append_line ht]
    refine ⟨rfl, ?_⟩
    simp [offset]

namespace Delimiters

variable {d : Delimiters}

theorem lexing_eq_piece {u : Text} {p : Piece} (h : d.lexing u = .piece p) :
    (p.text <+: u ∧ p.found = []) ∨
      ∃ c v, u = c :: v ∧ isBlank c = false ∧ p = ⟨lexeme u, [(0, lexeme u)]⟩ := by
  unfold lexing at h
  split at h
  · rename_i hnothing
    split at h
    · cases h
    · rename_i hne
      obtain ⟨c, v, rfl⟩ := List.exists_cons_of_ne_nil hne
      exact .inr ⟨c, v, rfl, isBlank_of_reference hnothing, (Cut.piece.inj h).symm⟩
  · rename_i hcut
    cases hp : d.reference u with
    | nothing => exact absurd hp hcut
    | failure f =>
      rw [hp] at h
      cases h
    | piece q =>
      rw [hp] at h
      obtain rfl := Cut.piece.inj h
      exact .inl ⟨(prefix_of_reference hp).1, rfl⟩

theorem prefix_of_lexing {u : Text} {p : Piece} (h : d.lexing u = .piece p) : p.text <+: u := by
  obtain ⟨hbegins, -⟩ | ⟨c, v, rfl, -, rfl⟩ := lexing_eq_piece h
  · exact hbegins
  · exact Text.lexeme_isPrefix (c :: v)

theorem mem_locate_lexing {u v file : Text} {ps : List Piece} (h : Chain d.lexing u ps v)
    (before : Text) : ∀ f ∈ locate file before ps,
      (∃ between, f.location = .behind file (before ++ between)) ∧
        f.text ≠ [] ∧ ∀ c ∈ f.text, isBlank c = false := by
  induction h generalizing before with
  | nil => exact fun f hf => absurd hf List.not_mem_nil
  | @cons u v p ps head _ ih =>
    intro f hf
    rcases List.mem_append.1 hf with hf | hf
    · obtain ⟨-, hnone⟩ | ⟨c, w, rfl, hc, rfl⟩ := lexing_eq_piece head
      · simp [Piece.fragments, hnone] at hf
      · simp only [Piece.fragments, List.map_cons, List.map_nil, List.mem_singleton] at hf
        subst hf
        exact ⟨⟨[], by simp⟩, Text.lexeme_ne_nil c w, fun _ => Text.isBlank_of_mem_lexeme hc⟩
    · obtain ⟨⟨between, hplace⟩, htext⟩ := ih (before ++ p.text) f hf
      exact ⟨⟨p.text ++ between, by rw [hplace, List.append_assoc]⟩, htext⟩

theorem pairwise_locate_lexing {u v file : Text} {ps : List Piece} (h : Chain d.lexing u ps v)
    (before : Text) : (locate file before ps).Pairwise Fragment.Precedes := by
  induction h generalizing before with
  | nil => exact .nil
  | @cons u v p ps head tail ih =>
    have hrest := ih (before ++ p.text)
    obtain ⟨-, hnone⟩ | ⟨c, w, rfl, hc, rfl⟩ := lexing_eq_piece head
    · simpa [locate, Piece.fragments, hnone] using hrest
    · have hline : '\n' ∉ lexeme (c :: w) :=
        fun hmem => absurd (Text.isBlank_of_mem_lexeme hc hmem) (by decide)
      simp only [locate, Piece.fragments, List.map_cons, List.map_nil, List.singleton_append,
        Nat.cast_zero, Location.offset_zero]
      refine List.pairwise_cons.2 ⟨fun g hg => ?_, hrest⟩
      obtain ⟨⟨between, hplace⟩, -⟩ := mem_locate_lexing tail _ g hg
      rw [show g = ⟨g.location, g.text⟩ from rfl, hplace]
      exact Location.precedes_behind hline file before between g.text

end Delimiters

/-! The newline put behind a last line is a blank, and hides nothing in front of it. -/

namespace Text

theorem isPrefixOf_concat_newline {w : Text} (hw : '\n' ∉ w) (u : Text) :
    w.isPrefixOf (u ++ ['\n']) = w.isPrefixOf u := by
  rw [← isPrefixOf_firstLine hw, firstLine_concat_newline, isPrefixOf_firstLine hw]

theorem firstIndex?_concat_newline {w : Text} (hw : '\n' ∉ w) (hne : w ≠ []) (u : Text) :
    firstIndex? w (u ++ ['\n']) = firstIndex? w u := by
  induction u with
  | nil =>
    have hbegins := isPrefixOf_concat_newline hw []
    rw [List.nil_append] at hbegins ⊢
    rw [firstIndex?_cons, hbegins, firstIndex?_nil hne]
    simp [hne]
  | cons c u ih =>
    have hbegins := isPrefixOf_concat_newline hw (c :: u)
    rw [List.cons_append] at hbegins ⊢
    rw [firstIndex?_cons, firstIndex?_cons, hbegins, ih]

theorem lexeme_concat_newline {u : Text} (hu : u ≠ []) : lexeme (u ++ ['\n']) = lexeme u := by
  obtain ⟨c, w, rfl⟩ := List.exists_cons_of_ne_nil hu
  by_cases hc : c = '\n'
  · subst hc
    rfl
  · rw [List.cons_append, ← lexeme_firstLine hc, firstLine_concat_newline, lexeme_firstLine hc]

end Text

namespace Delimiters

variable {d : Delimiters}

theorem blockReference_ne_nothing (u : Text) : d.blockReference u ≠ .nothing := by
  simp only [blockReference]
  repeat' split
  all_goals simp

variable (hline : d.WithinLine)

include hline

theorem blockReference_concat_newline {u : Text} {p : Piece} (hopener : d.opener <+: u)
    (h : d.blockReference (u ++ ['\n']) = .piece p) : d.blockReference u = .piece p := by
  have hdrop : (u ++ ['\n']).drop d.opener.length = u.drop d.opener.length ++ ['\n'] :=
    List.drop_append_of_le_length hopener.length_le
  have htake {j : Nat} (hj : Text.firstIndex? d.closer (u.drop d.opener.length) = some j) :
      (u.drop d.opener.length ++ ['\n']).take (j + d.closer.length) =
        (u.drop d.opener.length).take (j + d.closer.length) := by
    have hle := (Text.prefix_drop_of_firstIndex? hj).length_le
    have hpos := List.length_pos_iff.2 d.closer_ne_nil
    rw [List.length_drop] at hle
    exact List.take_append_of_le_length (by omega)
  simp only [blockReference, hdrop, Text.firstIndex?_concat_newline hline.opener d.opener_ne_nil,
    Text.firstIndex?_concat_newline hline.closer d.closer_ne_nil] at h ⊢
  cases hk : Text.firstIndex? d.opener (u.drop d.opener.length) with
  | none =>
    cases hj : Text.firstIndex? d.closer (u.drop d.opener.length) with
    | none => simp [hk, hj] at h
    | some j => simpa [hk, hj, htake hj] using h
  | some k =>
    cases hj : Text.firstIndex? d.closer (u.drop d.opener.length) with
    | none => simp [hk, hj] at h
    | some j => simpa [hk, hj, htake hj] using h

theorem lexing_concat_newline {u : Text} (hu : u ≠ []) {p : Piece}
    (h : d.lexing (u ++ ['\n']) = .piece p) : d.lexing u = .piece p := by
  have hlexeme := Text.lexeme_concat_newline hu
  obtain ⟨c, w, rfl⟩ := List.exists_cons_of_ne_nil hu
  have hopener := Text.isPrefixOf_concat_newline hline.opener (c :: w)
  have hmarker := Text.isPrefixOf_concat_newline hline.marker (c :: w)
  rw [List.cons_append] at hopener hmarker hlexeme h
  simp only [lexing, reference, hopener, hmarker, hlexeme] at h ⊢
  by_cases hblank : isBlank c = true
  · simpa [hblank] using h
  by_cases hopens : d.opener.isPrefixOf (c :: w) = true
  · rw [if_neg hblank, if_pos hopens] at h ⊢
    cases hcut : d.blockReference (c :: (w ++ ['\n'])) with
    | nothing => exact absurd hcut (blockReference_ne_nothing _)
    | failure f =>
      rw [hcut] at h
      cases h
    | piece q =>
      rw [hcut] at h
      rw [blockReference_concat_newline hline (List.isPrefixOf_iff_prefix.1 hopens) hcut]
      exact h
  by_cases hmarks : d.marker.isPrefixOf (c :: w) = true
  · have hle := (List.isPrefixOf_iff_prefix.1 hmarks).length_le
    have hrest : firstLine ((c :: (w ++ ['\n'])).drop d.marker.length) =
        firstLine ((c :: w).drop d.marker.length) := by
      rw [← Text.firstLine_concat_newline ((c :: w).drop d.marker.length),
        ← List.drop_append_of_le_length hle]
      rfl
    simpa [hblank, hopens, hmarks, hrest] using h
  · simpa [hblank, hopens, hmarks] using h

theorem chain_lexing_of_concat_newline {u : Text} {ps : List Piece}
    (h : Chain d.lexing (u ++ ['\n']) ps []) :
    ∃ qs, ps = qs ++ [⟨['\n'], []⟩] ∧ Chain d.lexing u qs [] := by
  generalize hw : u ++ ['\n'] = w at h
  generalize hv : ([] : Text) = v at h
  induction h generalizing u with
  | nil =>
    subst hw
    simp at hv
  | @cons w v p ps head tail ih =>
    subst hw hv
    by_cases hu : u = []
    · subst hu
      obtain rfl : p = ⟨['\n'], []⟩ := (Cut.piece.inj head).symm
      cases tail with
      | nil => exact ⟨[], rfl, .nil []⟩
      | cons head' _ => cases head'
    · have hcut := lexing_concat_newline hline hu head
      have hbegins := prefix_of_lexing hcut
      obtain ⟨qs, rfl, hchain⟩ :=
        ih (u := u.drop p.text.length) (List.drop_append_of_le_length hbegins.length_le).symm rfl
      exact ⟨p :: qs, rfl, .cons hcut hchain⟩

end Delimiters

/-- Without a lexical error, a scan with the usual patterns returns the names, the numbers and the
single characters of the text, in order and apart from each other. -/
theorem Scan.tokens_of_usual {fs : FileSystem} {file source : Text} {config : Config}
    {d : Delimiters} (h : DecodesTo fs file config source) (hd : config.Delimits d)
    (hline : d.WithinLine)
    (hlexical : ∀ kind place doing,
      ((usual config).run fs file).result ≠ .error (.lexical kind place doing)) :
    ∃ ps, Chain d.lexing source ps [] ∧
      (∀ qs w, Chain d.lexing source qs w → qs <+: ps) ∧
      ((usual config).run fs file).result = .ok (locate file [] ps) ∧
      (∀ f ∈ locate file [] ps, f.text ≠ [] ∧ ∀ c ∈ f.text, isBlank c = false) ∧
      (locate file [] ps).Pairwise Fragment.Precedes := by
  obtain ⟨ps, hchain, hresult⟩ := chain_of_usual h hd hline hlexical
  have hsource : ∃ qs, Chain d.lexing source qs [] ∧ locate file [] ps = locate file [] qs := by
    rw [withFinalNewline] at hchain
    split at hchain
    · exact ⟨ps, hchain, rfl⟩
    · obtain ⟨qs, rfl, hqs⟩ := Delimiters.chain_lexing_of_concat_newline hline hchain
      exact ⟨qs, hqs, by simp [locate_append, locate, Piece.fragments]⟩
  obtain ⟨qs, hqs, hlocate⟩ := hsource
  rw [hlocate] at hresult
  exact ⟨qs, hqs, fun rs w => hqs.prefix_of_final trivial, hresult,
    fun f hf => (Delimiters.mem_locate_lexing hqs [] f hf).2,
    Delimiters.pairwise_locate_lexing hqs []⟩

theorem Scan.tokens_of_usual_numberName :
    ∃ ps, Chain Delimiters.usual.lexing "12ab.".toList ps [] ∧
      ((usual {}).run (({} : FileSystem).addFile ['f'] [0x31, 0x32, 0x61, 0x62, 0x2E])
        ['f']).result = .ok (locate ['f'] [] ps) ∧
      locate ['f'] [] ps =
        [⟨⟨['f'], 1, 1⟩, "12".toList⟩, ⟨⟨['f'], 1, 3⟩, "ab".toList⟩, ⟨⟨['f'], 1, 5⟩, ['.']⟩] ∧
      (locate ['f'] [] ps).Pairwise Fragment.Precedes := by
  have hdecodes : DecodesTo (({} : FileSystem).addFile ['f'] [0x31, 0x32, 0x61, 0x62, 0x2E]) ['f']
      {} "12ab.".toList :=
    decodesTo_of_chunk "12ab.".toList [.openingPlain ['f'] 8192] (by cbv) (by cbv)
  have hcut : Chain ((usual {}).cut .usual) (withFinalNewline "12ab.".toList)
      [⟨"12".toList, [(0, "12".toList)]⟩, ⟨"ab".toList, [(0, "ab".toList)]⟩,
        ⟨['.'], [(0, ['.'])]⟩, ⟨['\n'], []⟩] [] :=
    .cons rfl (.cons rfl (.cons rfl (.cons rfl (.nil []))))
  have hrun : ((usual {}).run (({} : FileSystem).addFile ['f'] [0x31, 0x32, 0x61, 0x62, 0x2E])
      ['f']).result = .ok [⟨⟨['f'], 1, 1⟩, "12".toList⟩, ⟨⟨['f'], 1, 3⟩, "ab".toList⟩,
        ⟨⟨['f'], 1, 5⟩, ['.']⟩] :=
    run_of_chain hdecodes Delimiters.delimits_usual hcut trivial
  obtain ⟨ps, hchain, -, hresult, -, hpairwise⟩ :=
    tokens_of_usual hdecodes Delimiters.delimits_usual ⟨by decide, by decide, by decide⟩
      fun _ _ _ hlexical => by cases hrun.symm.trans hlexical
  exact ⟨ps, hchain, hresult, Except.ok.inj (hresult.symm.trans hrun), hpairwise⟩

end LineLexer
