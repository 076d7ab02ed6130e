import LineLexer.Proofs.Segmentation

/-!
# Skipping follows the chain of blanks and comments

A reader that stands between two parts of its text takes block comments, line
comments and blanks off the second part just as cutting it does, with the same
errors at the same places. Skipping therefore ends behind the chain of blanks
and comments, and returns what is found in it.
-/

namespace LineLexer

open Text (firstLine goesOn)

namespace Reader

structure Carries (r s : Reader) : Prop where
  file : s.file = r.file
  config : s.config = r.config
  queue : s.queue = r.queue

theorem Carries.refl (r : Reader) : Carries r r := ⟨rfl, rfl, rfl⟩

theorem Carries.trans {r s t : Reader} (h : Carries r s) (h' : Carries s t) : Carries r t :=
  ⟨h'.file.trans h.file, h'.config.trans h.config, h'.queue.trans h.queue⟩

theorem Carries.delimits {r s : Reader} {config : Config} {d : Delimiters} (h : Carries r s)
    (hr : r.config = config) (hd : config.Delimits d) : s.config.Delimits d := by
  rw [h.config, hr]
  exact hd

theorem Keeps.carries {r s : Reader} (h : Keeps r s) : Carries r s :=
  ⟨h.file, h.config, h.queue⟩

theorem forgetMatch_eq (r : Reader) : forgetMatch r = .ok () { r with lastMatch := none } := rfl

theorem observe_of_ok {α : Type} {f : Reader → Except Fault α} {a : α} {r : Reader}
    (h : f r = .ok a) : Op.observe f r = .ok a r := by
  simp [Op.observe, h]

theorem failLexically_of_accept {α : Type} {r s : Reader} (h : acceptMatch r = .ok () s)
    (kind : LexicalKind) :
    (failLexically kind : Op α) r =
      .error (.lexical kind s.location (r.lastMatch.map Match.wholeText)) { s with queue := [] } := by
  unfold failLexically
  rw [Op.get_bind, Op.bind_of_ok h]
  rfl

theorem failLexically_of_none {α : Type} {r : Reader} (h : r.lastMatch = none)
    (kind : LexicalKind) :
    (failLexically kind : Op α) r = .error (.lexical kind r.location none) { r with queue := [] } := by
  have haccept : acceptMatch r = .ok () r := by simp [acceptMatch, h]
  rw [failLexically_of_accept haccept, h]
  rfl

section Comments

variable {before u done : Text} {r : Reader} {opener closer : Text}

theorem Between.lineLooksAt (h : Between before u r) (t : Text) :
    lineLooksAt (.text t) r = .ok (t.isPrefixOf u.firstLine) := by
  have hsub := h.substring t.length
  have hline := Text.take_beq_eq_isPrefixOf t u.firstLine
  simp [Reader.lineLooksAt, hsub, bind, Except.bind, pure, Except.pure, hline]

theorem At.blockTurn_of_nil (h : At before [] r) (opener closer : Json) (done : Text) :
    blockTurn opener closer done r = .ok (.inr done) r := by
  have hended : r.ended = true := by simp [h.ended]
  unfold blockTurn
  rw [Op.get_bind, if_pos hended]
  rfl

theorem At.blockTurn_of_closer (h : At before u r) (hu : u ≠ []) (hgo : goesOn closer u = true) :
    ∃ s, blockTurn (.text opener) (.text closer) done r = .ok (.inr (closer.reverse ++ done)) s ∧
      At (before ++ closer) (u.drop closer.length) s ∧ Keeps r s := by
  have hended := h.ended_eq_false hu
  obtain ⟨s, hs, hkeeps, hplace⟩ := h.acceptText closer
  rw [hgo] at hs
  rw [if_pos hgo] at hplace
  refine ⟨s, ?_, hplace, hkeeps⟩
  unfold blockTurn
  rw [Op.get_bind, if_neg (by simp [hended]), Op.bind_of_ok (by exact hs),
    if_pos rfl]
  rfl

theorem At.blockTurn_of_not_closer (h : At before u r) (hu : u ≠ [])
    (hgo : goesOn closer u = false) :
    blockTurn (.text opener) (.text closer) done r =
      (if opener.isPrefixOf u.firstLine then failLexically .nestedBlockComment
        else do match ← Reader.next with
          | some c => return .inl (c :: done)
          | none => return .inr done : Op (Text ⊕ Text)) r := by
  have hended := h.ended_eq_false hu
  obtain ⟨s, hs, -, hplace⟩ := h.acceptText closer
  rw [hgo] at hs hplace
  obtain rfl : s = r := by simpa using hplace
  unfold blockTurn
  rw [Op.get_bind, if_neg (by simp [hended]), Op.bind_of_ok (by exact hs),
    if_neg (by simp)]
  exact Op.bind_of_ok (observe_of_ok (h.lineLooksAt opener))

theorem At.blockTurn_of_opener (h : At before u r) (hu : u ≠ []) (hgo : goesOn closer u = false)
    (hopener : opener.isPrefixOf u.firstLine = true) (hmatch : r.lastMatch = none) :
    blockTurn (.text opener) (.text closer) done r =
      .error (.lexical .nestedBlockComment r.location none) { r with queue := [] } := by
  rw [h.blockTurn_of_not_closer hu hgo, if_pos hopener, failLexically_of_none hmatch]

theorem At.blockTurn_of_char {c : Char} (h : At before (c :: u) r)
    (hgo : goesOn closer (c :: u) = false)
    (hopener : opener.isPrefixOf (firstLine (c :: u)) = false) :
    ∃ s, blockTurn (.text opener) (.text closer) done r = .ok (.inl (c :: done)) s ∧
      At (before ++ [c]) u s ∧ Keeps r s := by
  obtain ⟨s, hs, hplace, hkeeps⟩ := h.next
  refine ⟨s, ?_, hplace, hkeeps⟩
  rw [h.blockTurn_of_not_closer (List.cons_ne_nil c u) hgo, if_neg (by simp [hopener]),
    Op.bind_of_ok hs]
  rfl

theorem At.readBlock {d : Delimiters} {t : Text} (h : At before u r) (ht : d.body u = .ok t)
    (done : Text) (shrinks) :
    ∃ s, Op.loop (blockTurn (.text d.opener) (.text d.closer)) shrinks done r =
        .ok (t.reverse ++ done) s ∧
      At (before ++ t) (u.drop t.length) s ∧ Keeps r s := by
  induction u generalizing before done r t with
  | nil =>
    obtain rfl := Except.ok.inj ht
    exact ⟨r, Op.loop_of_inr (h.blockTurn_of_nil _ _ _), by simpa using h, .refl r⟩
  | cons c u ih =>
    unfold Delimiters.body at ht
    split at ht
    · rename_i hgo
      obtain rfl := Except.ok.inj ht
      obtain ⟨s, hs, hplace, hkeeps⟩ := h.blockTurn_of_closer (List.cons_ne_nil c u) hgo
      exact ⟨s, Op.loop_of_inr hs, hplace, hkeeps⟩
    · rename_i hgo
      split at ht
      · cases ht
      · rename_i hopener
        split at ht
        · rename_i t' ht'
          obtain rfl := Except.ok.inj ht
          obtain ⟨v, hv, hplace, hkeeps⟩ :=
            h.blockTurn_of_char (Bool.eq_false_iff.2 hgo)
              (Bool.eq_false_iff.2 hopener)
          obtain ⟨s, hs, hplace', hkeeps'⟩ := ih hplace ht' (c :: done)
          refine ⟨s, ?_, ?_, hkeeps.trans hkeeps'⟩
          · rw [Op.loop_of_inl hv, hs]
            simp
          · simpa using hplace'
        · cases ht

theorem At.readBlock_of_nested {d : Delimiters} {n : Nat} (h : At before u r)
    (hn : d.body u = .error n) (hmatch : r.lastMatch = none) (done : Text) (shrinks) :
    ∃ s, Op.loop (blockTurn (.text d.opener) (.text d.closer)) shrinks done r =
        .error (.lexical .nestedBlockComment
          (.between r.file (before ++ u.take n) (u.drop n)) none) s ∧
      At (before ++ u.take n) (u.drop n) s ∧ s.queue = [] := by
  induction u generalizing before done r n with
  | nil => cases hn
  | cons c u ih =>
    have hne : c :: u ≠ [] := List.cons_ne_nil c u
    unfold Delimiters.body at hn
    split at hn
    · cases hn
    · rename_i hgo
      split at hn
      · rename_i hopener
        obtain rfl := Except.error.inj hn
        refine ⟨{ r with queue := [] }, ?_, by simpa using h.withQueue [], rfl⟩
        rw [Op.loop_of_error (h.blockTurn_of_opener hne (Bool.eq_false_iff.2 hgo) hopener hmatch),
          h.location]
        simp
      · rename_i hopener
        split at hn
        · cases hn
        · rename_i k hk
          obtain rfl := Except.error.inj hn
          obtain ⟨v, hv, hplace, hkeeps⟩ :=
            h.blockTurn_of_char (Bool.eq_false_iff.2 hgo)
              (Bool.eq_false_iff.2 hopener)
          obtain ⟨s, hs, hplace', hqueue⟩ := ih hplace hk (hkeeps.lastMatch.trans hmatch) (c :: done)
          refine ⟨s, ?_, by simpa using hplace', hqueue⟩
          rw [Op.loop_of_inl hv, hs, hkeeps.file]
          simp

theorem keptComment_text (keep : Bool) (o t : Text) (misuse : String → Misuse) :
    keptComment keep (.text o) misuse t = .ok (if keep then some (o ++ t) else none) := by
  cases keep <;> rfl

section Blocks

variable {d : Delimiters} {t : Text} (hopener : r.config.opener = .text d.opener)
  (hcloser : r.config.closer = .text d.closer)

include hopener hcloser

theorem At.blockComment_of_closed (h : At before u r) (ht : d.body u = .ok t)
    (hlt : t.length ≠ u.length) :
    ∃ s, (∀ keep, blockComment keep r = .ok (if keep then some (d.opener ++ t) else none) s) ∧
      At (before ++ t) (u.drop t.length) s ∧ Carries r s := by
  obtain ⟨s, hs, hplace, hkeeps⟩ := (h.withMatch none).readBlock ht []
    fun _ _ _ _ h => (blockTurn_eq_ok h).2 _ rfl
  have hne : u.drop t.length ≠ [] := by
    have hle := (Delimiters.prefix_of_body ht).length_le
    rw [Ne, List.drop_eq_nil_iff]
    omega
  refine ⟨s, fun keep => ?_, hplace, ⟨hkeeps.file, hkeeps.config, hkeeps.queue⟩⟩
  unfold blockComment
  rw [Op.get_bind, Op.bind_of_ok (forgetMatch_eq r), hopener, hcloser,
    Op.bind_of_ok (by exact hs), Op.get_bind, if_neg (by simp [hplace.ended_eq_false hne]),
    keptComment_text]
  simp [Op.ofExcept, pure, EStateM.pure]

theorem At.blockComment_of_open (h : At before u r) (ht : d.body u = .ok t)
    (hall : t.length = u.length) :
    ∃ s, (∀ keep, blockComment keep r =
        .error (.lexical .unexpectedEnd (.between r.file (before ++ u) []) none) s) ∧
      At (before ++ u) [] s ∧ s.queue = [] := by
  obtain ⟨s, hs, hplace, hkeeps⟩ := (h.withMatch none).readBlock ht []
    fun _ _ _ _ h => (blockTurn_eq_ok h).2 _ rfl
  obtain rfl := (Delimiters.prefix_of_body ht).eq_of_length hall
  rw [List.drop_length] at hplace
  have hended : s.ended = true := by simp [hplace.ended]
  refine ⟨{ s with queue := [] }, fun keep => ?_, hplace.withQueue [], rfl⟩
  unfold blockComment
  rw [Op.get_bind, Op.bind_of_ok (forgetMatch_eq r), hopener, hcloser,
    Op.bind_of_ok (by exact hs), Op.get_bind, if_pos hended, failLexically_of_none hkeeps.lastMatch,
    hplace.location, hkeeps.file]

theorem At.blockComment_of_nested {n : Nat} (h : At before u r) (hn : d.body u = .error n) :
    ∃ s, (∀ keep, blockComment keep r = .error (.lexical .nestedBlockComment
        (.between r.file (before ++ u.take n) (u.drop n)) none) s) ∧
      At (before ++ u.take n) (u.drop n) s ∧ s.queue = [] := by
  obtain ⟨s, hs, hplace, hqueue⟩ := (h.withMatch none).readBlock_of_nested hn rfl []
    fun _ _ _ _ h => (blockTurn_eq_ok h).2 _ rfl
  refine ⟨s, fun keep => ?_, hplace, hqueue⟩
  unfold blockComment
  rw [Op.get_bind, Op.bind_of_ok (forgetMatch_eq r), hopener, hcloser,
    Op.bind_of_error (by exact hs)]

end Blocks

theorem At.lineComment {d : Delimiters} (hd : r.config.Delimits d) (keep : Bool) (h : At before u r) :
    ∃ s, lineComment keep r = .ok (if keep then some (d.marker ++ u.firstLine) else none) s ∧
      At (before ++ u.firstLine) (u.drop u.firstLine.length) s ∧ Carries r s := by
  obtain ⟨v, hv, hplace, hkeeps⟩ := (h.withMatch none).cacheRemainder
  obtain ⟨s, hs, hplace', hkeeps'⟩ := hplace.accept u.firstLine.length
  have htake : u.take u.firstLine.length = u.firstLine :=
    (List.prefix_iff_eq_take.1 u.firstLine_prefix).symm
  rw [Int.toNat_natCast, htake] at hplace'
  refine ⟨s, ?_, hplace', Carries.trans ⟨hkeeps.file, hkeeps.config, hkeeps.queue⟩ hkeeps'.carries⟩
  unfold Reader.lineComment
  rw [Op.get_bind, Op.bind_of_ok (forgetMatch_eq r), hd.lineComment,
    Op.bind_of_ok hv, Op.bind_of_ok hs, keptComment_text]
  simp [Op.ofExcept, pure, EStateM.pure]

end Comments

end Reader

def Halt.Leaves (before u : Text) (s : Reader) : Halt → Prop
  | lexical _ n => Reader.At (before ++ u.take n) (u.drop n) s ∧ s.queue = []
  | refused _ => True

namespace Trivia

open Reader (At Carries)

theorem keep_comment (keep : Bool) (comments : List Fragment) (file before text : Text) :
    Trivia.keep comments (.behind file before) (if keep then some text else none) =
      ((Delimiters.comment keep text).fragments file before).reverse ++ comments := by
  cases keep <;> simp [Trivia.keep, Delimiters.comment, Piece.fragments]

variable {t : Trivia} {d : Delimiters} {before u : Text} {r : Reader} (comments : List Fragment)

theorem turn_of_blank {c : Char} (h : At before (c :: u) r) (hc : Text.isBlank c = true) :
    ∃ s, t.turn comments r = .ok (.inl comments) s ∧ At (before ++ [c]) u s ∧ Carries r s := by
  have hended := h.ended_eq_false (List.cons_ne_nil c u)
  obtain ⟨s, hs, hplace, hkeeps⟩ := h.next
  refine ⟨s, ?_, hplace, hkeeps.carries⟩
  unfold turn
  rw [Op.get_bind, if_neg (by simp [hended]), Op.bind_of_ok (Reader.observe_of_ok h.lookAhead_zero),
    if_pos (by simpa using hc), Op.bind_of_ok hs]
  rfl

theorem turn_of_not_blank {c : Char} (h : At before (c :: u) r) (hc : Text.isBlank c = false) :
    t.turn comments r =
      (do
        if ← Reader.acceptDelimiter t.config.opener then
          return .inl (keep comments r.location (← Reader.blockComment t.keepComments))
        else if ← Reader.acceptDelimiter t.config.lineComment then
          return .inl (keep comments r.location (← Reader.lineComment t.keepComments))
        else return .inr comments : Op (List Fragment ⊕ List Fragment)) r := by
  have hended := h.ended_eq_false (List.cons_ne_nil c u)
  unfold turn
  rw [Op.get_bind, if_neg (by simp [hended]), Op.bind_of_ok (Reader.observe_of_ok h.lookAhead_zero),
    if_neg (by simp [hc])]

section Delimited

variable (hd : t.config.Delimits d) {c : Char} (h : At before (c :: u) r)
  (hc : Text.isBlank c = false)

include hd h hc

theorem turn_of_opener (hgo : goesOn d.opener (c :: u) = true) :
    ∃ s, t.turn comments r = (do
        return .inl (keep comments r.location (← Reader.blockComment t.keepComments)) :
          Op (List Fragment ⊕ List Fragment)) s ∧
      At (before ++ d.opener) ((c :: u).drop d.opener.length) s ∧ Carries r s := by
  obtain ⟨s, hs, hkeeps, hplace⟩ := h.acceptText d.opener
  rw [hgo] at hs
  rw [if_pos hgo] at hplace
  refine ⟨s, ?_, hplace, hkeeps.carries⟩
  rw [turn_of_not_blank comments h hc, hd.opener, Op.bind_of_ok (by exact hs), if_pos rfl]

theorem turn_of_not_opener (hgo : goesOn d.opener (c :: u) = false) :
    t.turn comments r = (do
      if ← Reader.acceptDelimiter t.config.lineComment then
        return .inl (keep comments r.location (← Reader.lineComment t.keepComments))
      else return .inr comments : Op (List Fragment ⊕ List Fragment)) r := by
  obtain ⟨s, hs, -, hplace⟩ := h.acceptText d.opener
  rw [hgo] at hs hplace
  obtain rfl : s = r := by simpa using hplace
  rw [turn_of_not_blank comments h hc, hd.opener, Op.bind_of_ok (by exact hs), if_neg (by simp)]

theorem turn_of_marker (hr : r.config = t.config) (hopener : goesOn d.opener (c :: u) = false)
    (hgo : goesOn d.marker (c :: u) = true) :
    let text := d.marker ++ firstLine ((c :: u).drop d.marker.length)
    ∃ s, t.turn comments r = .ok (.inl (keep comments r.location
        (if t.keepComments then some text else none))) s ∧
      At (before ++ text) ((c :: u).drop text.length) s ∧ Carries r s := by
  obtain ⟨v, hv, hkeeps, hplace⟩ := h.acceptText d.marker
  rw [hgo] at hv
  rw [if_pos hgo] at hplace
  have hd' := hkeeps.carries.delimits hr hd
  obtain ⟨s, hs, hplace', hcarries⟩ := hplace.lineComment hd' t.keepComments
  refine ⟨s, ?_, ?_, hkeeps.carries.trans hcarries⟩
  · rw [turn_of_not_opener comments hd h hc hopener, hd.lineComment, Op.bind_of_ok (by exact hv), if_pos rfl,
      Op.bind_of_ok hs]
    rfl
  · rwa [List.append_assoc, List.drop_drop, ← List.length_append] at hplace'

theorem turn_of_token (hopener : goesOn d.opener (c :: u) = false)
    (hgo : goesOn d.marker (c :: u) = false) : t.turn comments r = .ok (.inr comments) r := by
  obtain ⟨s, hs, -, hplace⟩ := h.acceptText d.marker
  rw [hgo] at hs hplace
  obtain rfl : s = r := by simpa using hplace
  rw [turn_of_not_opener comments hd h hc hopener, hd.lineComment, Op.bind_of_ok (by exact hs),
    if_neg (by simp)]
  rfl

end Delimited

section Turns

variable (hd : t.config.Delimits d) (h : At before u r)

include hd h

theorem turn_of_nothing (hcut : d.trivia t.keepComments u = .nothing) :
    t.turn comments r = .ok (.inr comments) r := by
  cases u with
  | nil =>
    have hended : r.ended = true := by simp [h.ended]
    unfold turn
    rw [Op.get_bind, if_pos hended]
    rfl
  | cons c u =>
    simp only [Delimiters.trivia] at hcut
    split at hcut
    · cases hcut
    · rename_i hc
      split at hcut
      · simp only [Delimiters.block] at hcut
        split at hcut
        · cases hcut
        · split at hcut <;> cases hcut
      · rename_i hopener
        split at hcut
        · cases hcut
        · rename_i hmarker
          exact turn_of_token comments hd h (Bool.eq_false_iff.2 hc) (Bool.eq_false_iff.2 hopener)
            (Bool.eq_false_iff.2 hmarker)

theorem turn_of_piece (hr : r.config = t.config) {p : Piece}
    (hcut : d.trivia t.keepComments u = .piece p) :
    ∃ s, t.turn comments r = .ok (.inl ((p.fragments r.file before).reverse ++ comments)) s ∧
      At (before ++ p.text) (u.drop p.text.length) s ∧ Carries r s := by
  cases u with
  | nil => cases hcut
  | cons c u =>
    have hlocation := h.location
    rw [Location.between_of_ne_nil (List.cons_ne_nil c u)] at hlocation
    simp only [Delimiters.trivia] at hcut
    split at hcut
    · rename_i hc
      obtain rfl := Cut.piece.inj hcut
      exact turn_of_blank comments h hc
    · rename_i hc
      rw [Bool.not_eq_true] at hc
      split at hcut
      · rename_i hopener
        obtain ⟨v, hv, hplace, hcarries⟩ := turn_of_opener comments hd h hc hopener
        have hd' := hcarries.delimits hr hd
        simp only [Delimiters.block] at hcut
        split at hcut
        · cases hcut
        · rename_i body hbody
          split at hcut
          · cases hcut
          · rename_i hlt
            obtain rfl := Cut.piece.inj hcut
            obtain ⟨s, hs, hplace', hcarries'⟩ :=
              hplace.blockComment_of_closed hd'.opener hd'.closer hbody hlt
            refine ⟨s, ?_, ?_, hcarries.trans hcarries'⟩
            · rw [hv, Op.bind_of_ok (hs t.keepComments), hlocation, keep_comment]
              rfl
            · rwa [List.append_assoc, List.drop_drop, ← List.length_append] at hplace'
      · rename_i hopener
        rw [Bool.not_eq_true] at hopener
        split at hcut
        · rename_i hmarker
          obtain rfl := Cut.piece.inj hcut
          obtain ⟨s, hs, hplace, hcarries⟩ :=
            turn_of_marker comments hd h hc hr hopener hmarker
          rw [hlocation, keep_comment] at hs
          exact ⟨s, hs, hplace, hcarries⟩
        · cases hcut

theorem turn_of_failure (hr : r.config = t.config) {f : Halt}
    (hcut : d.trivia t.keepComments u = .failure f) :
    ∃ s, t.turn comments r = .error (f.fault r.file before u) s ∧ f.Leaves before u s := by
  cases u with
  | nil => cases hcut
  | cons c u =>
    simp only [Delimiters.trivia] at hcut
    split at hcut
    · cases hcut
    · rename_i hc
      split at hcut
      · rename_i hopener
        obtain ⟨v, hv, hplace, hcarries⟩ :=
          turn_of_opener comments hd h (Bool.eq_false_iff.2 hc) hopener
        have hd' := hcarries.delimits hr hd
        have hbegins := Text.prefix_of_goesOn hopener
        have htake := List.prefix_iff_eq_take.1 hbegins
        simp only [Delimiters.block] at hcut
        split at hcut
        · rename_i n hn
          obtain rfl := Cut.failure.inj hcut
          obtain ⟨s, hs, hplace', hqueue⟩ := hplace.blockComment_of_nested hd'.opener hd'.closer hn
          rw [List.append_assoc, List.drop_drop] at hplace'
          refine ⟨s, ?_, ?_, hqueue⟩
          · rw [hv, Op.bind_of_error (hs t.keepComments), Halt.fault, List.take_add, ← htake, List.drop_drop,
              List.append_assoc, hcarries.file]
          · rwa [List.take_add, ← htake]
        · rename_i body hbody
          split at hcut
          · rename_i hall
            obtain rfl := Cut.failure.inj hcut
            obtain ⟨s, hs, hplace', hqueue⟩ :=
              hplace.blockComment_of_open hd'.opener hd'.closer hbody hall
            have hsplit : d.opener ++ (c :: u).drop d.opener.length = c :: u :=
              List.prefix_iff_eq_append.1 hbegins
            rw [List.append_assoc, hsplit] at hplace'
            refine ⟨s, ?_, ?_, hqueue⟩
            · rw [hv, Op.bind_of_error (hs t.keepComments), Halt.fault, List.take_length,
                List.drop_length, List.append_assoc, hsplit, hcarries.file]
            · rwa [List.take_length, List.drop_length]
          · cases hcut
      · split at hcut <;> cases hcut

theorem loop_of_chain (hr : r.config = t.config) {ps : List Piece} {v : Text}
    (hchain : Chain (d.trivia t.keepComments) u ps v) (shrinks) :
    ∃ s, Op.loop t.turn shrinks comments r =
        Op.loop t.turn shrinks ((locate r.file before ps).reverse ++ comments) s ∧
      At (before ++ Piece.textOf ps) v s ∧ Carries r s := by
  induction hchain generalizing before comments r with
  | nil u => exact ⟨r, rfl, by simpa using h, .refl r⟩
  | @cons u v p ps head _ ih =>
    obtain ⟨w, hw, hplace, hcarries⟩ := turn_of_piece comments hd h hr head
    obtain ⟨s, hs, hplace', hcarries'⟩ := ih ((p.fragments r.file before).reverse ++ comments) hplace
      (hcarries.config.trans hr)
    refine ⟨s, ?_, by simpa using hplace', hcarries.trans hcarries'⟩
    rw [Op.loop_of_inl hw, hs, hcarries.file]
    simp [locate]

theorem skip_of_nothing (hr : r.config = t.config) {ps : List Piece} {v : Text}
    (hchain : Chain (d.trivia t.keepComments) u ps v)
    (hv : d.trivia t.keepComments v = .nothing) :
    ∃ s, t.skip r = .ok (locate r.file before ps) s ∧ At (before ++ Piece.textOf ps) v s ∧
      Carries r s := by
  obtain ⟨s, hs, hplace, hcarries⟩ := loop_of_chain [] hd h hr hchain
    fun _ _ _ _ h => (turn_eq_ok h).2 _ rfl
  refine ⟨s, ?_, hplace, hcarries⟩
  unfold skip
  rw [Op.bind_of_ok (hs.trans (Op.loop_of_inr (turn_of_nothing _ hd hplace hv)))]
  simp [pure, EStateM.pure]

theorem skip_of_failure (hr : r.config = t.config) {ps : List Piece} {v : Text} {f : Halt}
    (hchain : Chain (d.trivia t.keepComments) u ps v)
    (hv : d.trivia t.keepComments v = .failure f) :
    ∃ s, t.skip r = .error (f.fault r.file (before ++ Piece.textOf ps) v) s ∧
      f.Leaves (before ++ Piece.textOf ps) v s := by
  obtain ⟨w, hw, hplace, hcarries⟩ := loop_of_chain [] hd h hr hchain
    fun _ _ _ _ h => (turn_eq_ok h).2 _ rfl
  obtain ⟨s, hs, hleaves⟩ := turn_of_failure ((locate r.file before ps).reverse ++ []) hd hplace
    (hcarries.config.trans hr) hv
  refine ⟨s, ?_, hleaves⟩
  unfold skip
  rw [Op.bind_of_error (hw.trans (Op.loop_of_error hs)), hcarries.file]

end Turns

end Trivia
end LineLexer
