import LineLexer.Proofs.MatchSpans
import LineLexer.Proofs.Pieces

/-!
# Cutting a text into pieces

What a scan takes off the front of a text in one go is a blank, a comment,
what the first pattern to match covers, or a single character. Pieces taken
one after another form a chain, which ends where nothing can be taken, and
more lines behind the text leave the chain as it is.
-/

namespace LineLexer

open Text (firstLine)

def firstMatch (line : Text) : List Pattern.Source → Except Fault (Option Match)
  | [] => .ok none
  | p :: ps => match p.resolve with
    | .error fault => .error fault
    | .ok pattern => match pattern.match? line with
      | some m => .ok (some m)
      | none => firstMatch line ps

theorem firstMatch_eq_some {line : Text} {ps : List Pattern.Source} {m : Match}
    (h : firstMatch line ps = .ok (some m)) :
    ∃ source ∈ ps, ∃ p, source.resolve = .ok p ∧ p.match? line = some m := by
  induction ps with
  | nil => cases h
  | cons source ps ih =>
    unfold firstMatch at h
    split at h
    · cases h
    · rename_i p hp
      split at h
      · rename_i m' hm'
        obtain rfl := Option.some.inj (Except.ok.inj h)
        exact ⟨source, List.mem_cons_self, p, hp, hm'⟩
      · obtain ⟨source', hmem, hrest⟩ := ih h
        exact ⟨source', List.mem_cons_of_mem _ hmem, hrest⟩

theorem Pattern.Source.resolve_eq_error {source : Pattern.Source} {fault : LineLexer.Fault}
    (h : source.resolve = .error fault) : ∃ f, fault = .pattern f := by
  cases source with
  | ready p => cases h
  | written text named =>
    simp only [Pattern.Source.resolve] at h
    cases hparse : Pattern.parse {} text named with
    | ok p =>
      rw [hparse] at h
      cases h
    | error f =>
      rw [hparse] at h
      exact ⟨f, (Except.error.inj h).symm⟩

theorem firstMatch_eq_error {line : Text} {ps : List Pattern.Source} {fault : Fault}
    (h : firstMatch line ps = .error fault) : ∃ f, fault = .pattern f := by
  induction ps with
  | nil => cases h
  | cons source ps ih =>
    unfold firstMatch at h
    split at h
    · rename_i fault' hresolve
      obtain rfl := Except.error.inj h
      exact Pattern.Source.resolve_eq_error hresolve
    · split at h
      · cases h
      · exact ih h

theorem Reader.mem_keptSpans {groups : List (Option Pattern.Span)} {previous : Option Nat}
    {span : Pattern.Span} (h : span ∈ keptSpans previous groups) : some span ∈ groups := by
  induction groups generalizing previous with
  | nil => cases h
  | cons g groups ih =>
    cases g with
    | none => exact List.mem_cons_of_mem _ (ih h)
    | some s =>
      unfold keptSpans at h
      split at h
      · exact List.mem_cons_of_mem _ (ih h)
      · rcases List.mem_cons.1 h with rfl | hrest
        · exact List.mem_cons_self
        · exact List.mem_cons_of_mem _ (ih hrest)

namespace Match

def found (m : Match) : List (Nat × Text) :=
  match (Reader.keptSpans none m.groups).map fun span => (span.start, span.of m.text) with
  | [] => if m.wholeText.isEmpty then [] else [(0, m.wholeText)]
  | found => found

def piece (m : Match) (c : Char) : Piece :=
  if m.whole.stop = 0 then ⟨[c], m.found ++ [(0, [c])]⟩ else ⟨m.wholeText, m.found⟩

variable {line : Text} {m : Match}

theorem Within.wholeText (h : m.Within line) : m.wholeText = line.take m.whole.stop := by
  simp [Match.wholeText, Pattern.Span.of, h.text_eq, h.start]

theorem Within.length_wholeText (h : m.Within line) : m.wholeText.length = m.whole.stop := by
  rw [h.wholeText, List.length_take, Nat.min_eq_left h.stop_le]

theorem Within.found (h : m.Within line) :
    ∀ x ∈ m.found, x.1 ≤ line.length ∧ x.2 <+: line.drop x.1 := by
  intro x hx
  unfold Match.found at hx
  split at hx
  · split at hx
    · cases hx
    · obtain rfl := List.mem_singleton.1 hx
      refine ⟨Nat.zero_le _, ?_⟩
      rw [h.wholeText]
      exact List.take_prefix _ _
  · obtain ⟨span, hspan, rfl⟩ := List.mem_map.1 hx
    have hwithin := h.groups span (Reader.mem_keptSpans hspan)
    rw [h.text_eq]
    exact ⟨hwithin.start_le.trans hwithin.stop_le, span.of_prefix line⟩

end Match

namespace Scan

def token (s : Scan) : Text → Cut
  | [] => .nothing
  | c :: u => match firstMatch (firstLine (c :: u)) (s.patterns ++ [singleCharacter]) with
    | .error fault => .failure (.refused fault)
    | .ok none => .piece ⟨[c], [(0, [c])]⟩
    | .ok (some m) => .piece (m.piece c)

theorem token_eq_piece {s : Scan} {u : Text} {p : Piece} (h : s.token u = .piece p) :
    ∃ c w, u = c :: w ∧
      ((firstMatch u.firstLine (s.patterns ++ [singleCharacter]) = .ok none ∧
          p = ⟨[c], [(0, [c])]⟩) ∨
        ∃ m, firstMatch u.firstLine (s.patterns ++ [singleCharacter]) = .ok (some m) ∧
          p = m.piece c) := by
  cases u with
  | nil => cases h
  | cons c w =>
    refine ⟨c, w, rfl, ?_⟩
    simp only [token] at h
    split at h
    · cases h
    · rename_i hnone
      exact .inl ⟨hnone, (Cut.piece.inj h).symm⟩
    · rename_i m hm
      exact .inr ⟨m, hm, (Cut.piece.inj h).symm⟩

theorem token_ne_nothing {s : Scan} {u : Text} (hne : u ≠ []) : s.token u ≠ .nothing := by
  obtain ⟨c, w, rfl⟩ := List.exists_cons_of_ne_nil hne
  simp only [token]
  split <;> simp

theorem token_append {s : Scan} {u : Text} (hu : u.WholeLines) (hne : u ≠ []) (v : Text) :
    s.token (u ++ v) = s.token u := by
  have hline := Text.firstLine_append (hu.newline_mem hne) v
  obtain ⟨c, w, rfl⟩ := List.exists_cons_of_ne_nil hne
  rw [List.cons_append] at hline ⊢
  rw [token, token, hline]

def cut (s : Scan) (d : Delimiters) (u : Text) : Cut :=
  match d.trivia s.keepComments u with
  | .nothing => s.token u
  | cut => cut

theorem cut_of_trivia {s : Scan} {d : Delimiters} {u : Text}
    (h : d.trivia s.keepComments u ≠ .nothing) : s.cut d u = d.trivia s.keepComments u := by
  unfold cut
  split
  · rename_i hnothing
    exact absurd hnothing h
  · rfl

theorem cut_of_token {s : Scan} {d : Delimiters} {u : Text}
    (h : d.trivia s.keepComments u = .nothing) : s.cut d u = s.token u := by
  unfold cut
  rw [h]

theorem cut_eq_piece {s : Scan} {d : Delimiters} {u : Text} {p : Piece}
    (h : s.cut d u = .piece p) : d.trivia s.keepComments u = .piece p ∨ s.token u = .piece p := by
  by_cases htrivia : d.trivia s.keepComments u = .nothing
  · rw [cut_of_token htrivia] at h
    exact .inr h
  · rw [cut_of_trivia htrivia] at h
    exact .inl h

theorem cut_eq_refused {s : Scan} {d : Delimiters} {u : Text} {fault : Fault}
    (h : s.cut d u = .failure (.refused fault)) : ∃ f, fault = .pattern f := by
  by_cases htrivia : d.trivia s.keepComments u = .nothing
  · rw [cut_of_token htrivia] at h
    cases u with
    | nil => cases h
    | cons c w =>
      simp only [token] at h
      split at h
      · rename_i fault' hm
        obtain rfl := Halt.refused.inj (Cut.failure.inj h)
        exact firstMatch_eq_error hm
      · cases h
      · cases h
  · rw [cut_of_trivia htrivia] at h
    exact absurd h Delimiters.trivia_ne_refused

/-- A piece stays the same when more lines follow. -/
theorem cut_append {s : Scan} {d : Delimiters} {u : Text} {p : Piece} (hu : u.WholeLines)
    (h : s.cut d u = .piece p) (v : Text) : s.cut d (u ++ v) = .piece p := by
  have hne : u ≠ [] := by
    rintro rfl
    cases h
  by_cases htrivia : d.trivia s.keepComments u = .nothing
  · have happend := Delimiters.trivia_append (d := d) s.keepComments hu hne
      (by simp [htrivia]) v
    rw [cut_of_token htrivia] at h
    rw [cut_of_token (happend.trans htrivia), token_append hu hne, h]
  · rw [cut_of_trivia htrivia] at h
    have happend := Delimiters.trivia_append (d := d) s.keepComments hu hne
      (by simp [h]) v
    rw [cut_of_trivia (by simp [happend, h]), happend, h]

theorem prefix_of_cut {s : Scan} {d : Delimiters} {u : Text} {p : Piece}
    (h : s.cut d u = .piece p) : p.text <+: u ∧ p.text ≠ [] := by
  rcases cut_eq_piece h with htrivia | htoken
  · exact Delimiters.prefix_of_trivia htrivia
  · obtain ⟨c, w, rfl, ⟨-, rfl⟩ | ⟨m, hm, rfl⟩⟩ := token_eq_piece htoken
    · exact ⟨⟨w, rfl⟩, List.cons_ne_nil c []⟩
    · obtain ⟨_, -, _, -, hmatch⟩ := firstMatch_eq_some hm
      have hwithin := Pattern.within_of_match? hmatch
      unfold Match.piece
      split
      · exact ⟨⟨w, rfl⟩, List.cons_ne_nil c []⟩
      · rename_i hstop
        refine ⟨?_, ?_⟩
        · rw [hwithin.wholeText]
          exact (List.take_prefix _ _).trans (Text.firstLine_prefix _)
        · intro hnil
          have hnil : m.wholeText = [] := hnil
          have hlen := hwithin.length_wholeText
          rw [hnil] at hlen
          exact hstop hlen.symm

end Scan

/-- Pieces taken one after another, and the text behind them. -/
inductive Chain (cut : Text → Cut) : Text → List Piece → Text → Prop
  | nil (u : Text) : Chain cut u [] u
  | cons {u v : Text} {p : Piece} {ps : List Piece} (head : cut u = .piece p)
      (tail : Chain cut (u.drop p.text.length) ps v) : Chain cut u (p :: ps) v

def Cut.Final : Cut → Prop
  | piece _ => False
  | _ => True

namespace Chain

variable {cut : Text → Cut} {u v w : Text} {ps qs : List Piece}

theorem append (h : Chain cut u ps v) (h' : Chain cut v qs w) : Chain cut u (ps ++ qs) w := by
  induction h with
  | nil => exact h'
  | cons head _ ih => exact .cons head (ih h')

theorem mono {cut' : Text → Cut} (hcut : ∀ u p, cut u = .piece p → cut' u = .piece p)
    (h : Chain cut u ps v) : Chain cut' u ps v := by
  induction h with
  | nil u => exact .nil u
  | cons head _ ih => exact .cons (hcut _ _ head) ih

theorem unique (h : Chain cut u ps v) (hv : (cut v).Final) (h' : Chain cut u qs w)
    (hw : (cut w).Final) : ps = qs ∧ v = w := by
  induction h generalizing qs with
  | nil u =>
    cases h' with
    | nil => exact ⟨rfl, rfl⟩
    | cons head _ =>
      rw [head] at hv
      exact hv.elim
  | cons head _ ih =>
    cases h' with
    | nil =>
      rw [head] at hw
      exact hw.elim
    | cons head' tail' =>
      obtain rfl := Cut.piece.inj (head.symm.trans head')
      obtain ⟨hps, hvw⟩ := ih hv tail'
      exact ⟨by rw [hps], hvw⟩

theorem prefix_of_final (h : Chain cut u ps v) (hv : (cut v).Final) (h' : Chain cut u qs w) :
    qs <+: ps := by
  induction h' generalizing ps with
  | nil => exact List.nil_prefix
  | cons head' _ ih =>
    cases h with
    | nil =>
      rw [head'] at hv
      exact hv.elim
    | cons head tail =>
      obtain rfl := Cut.piece.inj (head.symm.trans head')
      exact List.cons_prefix_cons.2 ⟨rfl, ih tail⟩

theorem text_eq (hcut : ∀ u p, cut u = .piece p → p.text <+: u) (h : Chain cut u ps v) :
    Piece.textOf ps ++ v = u := by
  induction h with
  | nil => rfl
  | cons head _ ih =>
    obtain ⟨w, rfl⟩ := hcut _ _ head
    rw [List.drop_left] at ih
    simp [ih]

theorem exists_final (cut : Text → Cut)
    (hcut : ∀ u p, cut u = .piece p → p.text <+: u ∧ p.text ≠ []) (u : Text) :
    ∃ ps v, Chain cut u ps v ∧ (cut v).Final := by
  induction hn : u.length using Nat.strongRecOn generalizing u with
  | _ n ih =>
    cases hu : cut u with
    | nothing => exact ⟨[], u, .nil u, by rw [hu]; trivial⟩
    | failure f => exact ⟨[], u, .nil u, by rw [hu]; trivial⟩
    | piece p =>
      obtain ⟨hbegins, hne⟩ := hcut u p hu
      have hle := hbegins.length_le
      have hpos := List.length_pos_iff.2 hne
      have hlt : (u.drop p.text.length).length < n := by
        rw [List.length_drop]
        omega
      obtain ⟨ps, v, hchain, hv⟩ := ih _ hlt _ rfl
      exact ⟨p :: ps, v, .cons hu hchain, hv⟩

end Chain

theorem Scan.chain_append {s : Scan} {d : Delimiters} {u w : Text} {ps : List Piece}
    (hu : u.WholeLines) (h : Chain (s.cut d) u ps w) (v : Text) :
    Chain (s.cut d) (u ++ v) ps (w ++ v) := by
  induction h with
  | nil u => exact .nil (u ++ v)
  | cons head _ ih =>
    have hle := (prefix_of_cut head).1.length_le
    refine .cons (cut_append hu head v) ?_
    rw [List.drop_append_of_le_length hle]
    exact ih (hu.drop _)

def Piece.fragments (file before : Text) (p : Piece) : List Fragment :=
  p.found.map fun x => ⟨(Location.behind file before).offset x.1, x.2⟩

def locate (file : Text) : Text → List Piece → List Fragment
  | _, [] => []
  | before, p :: ps => p.fragments file before ++ locate file (before ++ p.text) ps

theorem locate_append (file before : Text) (ps qs : List Piece) :
    locate file before (ps ++ qs) =
      locate file before ps ++ locate file (before ++ Piece.textOf ps) qs := by
  induction ps generalizing before with
  | nil => simp [locate]
  | cons p ps ih => simp [locate, ih]

def Halt.fault (file before u : Text) : Halt → Fault
  | lexical kind n => .lexical kind (.between file (before ++ u.take n) (u.drop n)) none
  | refused fault => fault

end LineLexer
