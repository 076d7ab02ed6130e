import LineLexer.Proofs.SkipSegmentation

/-!
# A scan follows the chain of all pieces

Where neither a blank nor a comment stands, a turn of a scan takes what the
first pattern to match covers, or a single character. Turn after turn the
scan of a file that decodes takes the chain of all its pieces: it returns what
is found in them when the chain reaches the end, and the error that ends the
chain otherwise.
-/

namespace LineLexer

open Input (withFinalNewline)
open Text (firstLine)

namespace Reader

section Matching

variable {before u : Text} {r : Reader}

theorem matchPattern_of_subject {source : Pattern.Source} {text : Option Text} {t : Text} {v : Reader}
    (hv : subject text r = .ok t v) :
    matchPattern source text r = match source.resolve with
      | .ok p => .ok (p.match? t).isSome { v with lastMatch := p.match? t }
      | .error fault => .error fault v := by
  unfold matchPattern
  rw [Op.bind_of_ok hv]
  cases source.resolve <;> rfl

theorem At.matchPattern {source : Pattern.Source} {p : Pattern} (h : At before u r)
    (hp : source.resolve = .ok p) :
    ∃ s, matchPattern source none r = .ok (p.match? u.firstLine).isSome s ∧ At before u s ∧
      Carries r s ∧ s.lastMatch = p.match? u.firstLine := by
  obtain ⟨v, hv, hplace, hkeeps⟩ := h.remainder
  refine ⟨{ v with lastMatch := p.match? u.firstLine }, ?_, hplace.withMatch _,
    ⟨hkeeps.file, hkeeps.config, hkeeps.queue⟩, rfl⟩
  rw [matchPattern_of_subject (by exact hv), hp]

theorem At.matchPattern_of_error {source : Pattern.Source} {fault : Fault} (h : At before u r)
    (hp : source.resolve = .error fault) :
    ∃ s, Reader.matchPattern source none r = .error fault s := by
  obtain ⟨v, hv, -, -⟩ := h.remainder
  exact ⟨v, by rw [matchPattern_of_subject (by exact hv), hp]⟩

theorem At.matchFirst {ps : List Pattern.Source} {m : Option Match} (h : At before u r)
    (hps : ps ≠ []) (hm : firstMatch u.firstLine ps = .ok m) :
    ∃ s, matchFirst none ps r = .ok m.isSome s ∧ At before u s ∧ Carries r s ∧
      s.lastMatch = m := by
  induction ps generalizing r with
  | nil => exact absurd rfl hps
  | cons source ps ih =>
    unfold firstMatch at hm
    split at hm
    · cases hm
    · rename_i p hp
      obtain ⟨v, hv, hplace, hcarries, hlast⟩ := h.matchPattern hp
      unfold Reader.matchFirst
      split at hm
      · rename_i m' hm'
        obtain rfl := Except.ok.inj hm
        rw [hm'] at hv hlast
        exact ⟨v, by rw [Op.bind_of_ok hv, if_pos (by rfl)]; rfl, hplace, hcarries, hlast⟩
      · rename_i hnone
        rw [hnone] at hv hlast
        rw [Op.bind_of_ok hv, if_neg (by simp)]
        by_cases hnil : ps = []
        · subst hnil
          obtain rfl := Except.ok.inj hm
          exact ⟨v, rfl, hplace, hcarries, hlast⟩
        · obtain ⟨s, hs, hplace', hcarries', hlast'⟩ := ih hplace hnil hm
          exact ⟨s, hs, hplace', hcarries.trans hcarries', hlast'⟩

theorem At.matchFirst_of_error {ps : List Pattern.Source} {fault : Fault} (h : At before u r)
    (hm : firstMatch u.firstLine ps = .error fault) :
    ∃ s, Reader.matchFirst none ps r = .error fault s := by
  induction ps generalizing r with
  | nil => cases hm
  | cons source ps ih =>
    unfold firstMatch at hm
    unfold Reader.matchFirst
    split at hm
    · rename_i fault' hp
      obtain rfl := Except.error.inj hm
      obtain ⟨v, hv⟩ := h.matchPattern_of_error hp
      exact ⟨v, Op.bind_of_error hv⟩
    · rename_i p hp
      obtain ⟨v, hv, hplace, -, -⟩ := h.matchPattern hp
      split at hm
      · cases hm
      · rename_i hnone
        rw [hnone] at hv
        obtain ⟨s, hs⟩ := ih hplace hm
        exact ⟨s, by rw [Op.bind_of_ok hv, if_neg (by simp), hs]⟩

theorem takeMatch_of_some {m : Match} {counts : Option (List Int)} {save : Bool}
    (hm : r.lastMatch = some m) : takeMatch counts save r =
      (do queueFragments m save; checkCount m counts; acceptMatch : Op Unit) r := by
  simp [takeMatch, hm]

theorem At.takeMatch {m : Match} (h : At before u r) (hm : r.lastMatch = some m) :
    ∃ s, takeMatch none true r = .ok () s ∧
      At (before ++ u.take m.whole.stop) (u.drop m.whole.stop) s ∧ s.file = r.file ∧
      s.config = r.config ∧ s.lastMatch = some m ∧
      s.queue = r.queue ++ (fragmentsOf m r.location).map Fragment.capture := by
  let queue := r.queue ++ (fragmentsOf m r.location).map Fragment.capture
  have hqueue : queueFragments m true r = .ok () { r with queue } := rfl
  obtain ⟨s, hs, hplace, hkeeps⟩ := (h.withQueue queue).accept m.whole.stop
  rw [Int.toNat_natCast] at hplace
  refine ⟨s, ?_, hplace, hkeeps.file, hkeeps.config, hkeeps.lastMatch.trans hm, hkeeps.queue⟩
  have haccept : acceptMatch { r with queue } = .ok () s := by
    simp only [acceptMatch, hm]
    rw [← hs, hm]
  rw [takeMatch_of_some hm, Op.bind_of_ok hqueue]
  exact haccept

end Matching

end Reader

namespace Scan

open Reader (At Carries)

theorem fragmentsOf_found (m : Match) (start : Location) :
    fragmentsOf start ((Reader.fragmentsOf m start).map Fragment.capture) (some m) =
      m.found.map fun x => ⟨start.offset x.1, x.2⟩ := by
  have hqueue : ((Reader.fragmentsOf m start).map Fragment.capture).filterMap Capture.fragment? =
      Reader.fragmentsOf m start := by
    simp [List.filterMap_map, Function.comp_def]
  unfold fragmentsOf Match.found
  rw [hqueue, Reader.fragmentsOf]
  cases Reader.keptSpans none m.groups with
  | nil =>
    by_cases hempty : m.wholeText.isEmpty = true
    · simp [hempty]
    · simp [hempty]
  | cons span spans => simp

variable {s : Scan} {before u : Text} {r : Reader}

theorem matchHere_of_error {fault : Fault} (h : At before u r)
    (hm : firstMatch u.firstLine (s.patterns ++ [singleCharacter]) = .error fault) :
    ∃ t, s.matchHere r = .error fault t := by
  obtain ⟨t, ht⟩ := h.matchFirst_of_error hm
  refine ⟨t, ?_⟩
  have haccept : Reader.acceptFirst (s.patterns ++ [singleCharacter]) none none true r =
      .error fault t := by
    unfold Reader.acceptFirst
    rw [Op.bind_of_error ht]
  unfold matchHere
  rw [Op.get_bind, Op.bind_of_error haccept]

theorem matchHere_of_none (h : At before u r) (hqueue : r.queue = [])
    (hm : firstMatch u.firstLine (s.patterns ++ [singleCharacter]) = .ok none) :
    ∃ t, s.matchHere r = .ok ([], false) t ∧ At before u t ∧ Carries r t := by
  obtain ⟨t, ht, hplace, hcarries, hlast⟩ := h.matchFirst (by simp) hm
  have hempty := hcarries.queue.trans hqueue
  refine ⟨{ t with queue := [] }, ?_, hplace.withQueue [],
    ⟨hcarries.file, hcarries.config, hqueue.symm⟩⟩
  have haccept : Reader.acceptFirst (s.patterns ++ [singleCharacter]) none none true r =
      .ok false t := by
    unfold Reader.acceptFirst
    rw [Op.bind_of_ok ht]
    rfl
  have hdrain : Reader.drainQueue t = .ok [] { t with queue := [] } := by
    rw [Reader.drainQueue, hempty]
  unfold matchHere
  rw [Op.get_bind, Op.bind_of_ok haccept, Op.bind_of_ok hdrain, Op.get_bind]
  simp [fragmentsOf, hlast, pure, EStateM.pure]

theorem matchHere_of_some {m : Match} (h : At before u r) (hu : u.WholeLines) (hne : u ≠ [])
    (hqueue : r.queue = [])
    (hm : firstMatch u.firstLine (s.patterns ++ [singleCharacter]) = .ok (some m)) :
    ∃ t, s.matchHere r = .ok (m.found.map fun x =>
        ⟨(Location.behind r.file before).offset x.1, x.2⟩, m.whole.stop != 0) t ∧
      At (before ++ u.take m.whole.stop) (u.drop m.whole.stop) t ∧ Carries r t := by
  obtain ⟨_, -, _, -, hmatch⟩ := firstMatch_eq_some hm
  have hstop := (Pattern.within_of_match? hmatch).stop_le
  obtain ⟨v, hv, hplace, hcarries, hlast⟩ := h.matchFirst (by simp) hm
  obtain ⟨t, ht, hplace', hfile, hconfig, hlast', hqueue'⟩ := hplace.takeMatch hlast
  have hstart : r.location = .behind r.file before := by
    rw [h.location, Location.between_of_ne_nil hne]
  have hsame : v.location = r.location := by
    rw [hplace.location, hcarries.file, h.location]
  have hafter : t.location = (Location.behind r.file before).offset m.whole.stop := by
    have hrest : u.drop m.whole.stop ≠ [] := by
      have hlen := Text.length_firstLine_lt (hu.newline_mem hne)
      rw [Ne, List.drop_eq_nil_iff]
      omega
    rw [hplace'.location, Location.between_of_ne_nil hrest, hfile, hcarries.file,
      Location.behind_append_take hstop]
  have hmoved : (t.location != r.location) = (m.whole.stop != 0) := by
    rw [hafter, hstart, Bool.eq_iff_iff, bne_iff_ne, bne_iff_ne, Ne, Ne, not_iff_not]
    constructor
    · intro heq
      have hcolumn := congrArg Location.column heq
      simp only [Location.offset] at hcolumn
      omega
    · intro hzero
      simp [hzero]
  rw [hcarries.queue, hqueue, hsame, List.nil_append] at hqueue'
  refine ⟨{ t with queue := [] }, ?_, hplace'.withQueue [],
    ⟨hfile.trans hcarries.file, hconfig.trans hcarries.config, hqueue.symm⟩⟩
  have haccept : Reader.acceptFirst (s.patterns ++ [singleCharacter]) none none true r =
      .ok true t := by
    unfold Reader.acceptFirst
    rw [Op.bind_of_ok hv, if_pos (by rfl), Op.bind_of_ok ht]
    rfl
  have hdrain : Reader.drainQueue t =
      .ok ((Reader.fragmentsOf m r.location).map Fragment.capture) { t with queue := [] } := by
    rw [Reader.drainQueue, hqueue']
  have hlocation : ({ t with queue := [] } : Reader).location = t.location := rfl
  unfold matchHere
  rw [Op.get_bind, Op.bind_of_ok haccept, Op.bind_of_ok hdrain, Op.get_bind, hlocation,
    hlast', hmoved, fragmentsOf_found, hstart]
  rfl

def takeToken (s : Scan) (done : List Fragment) : Op (List Fragment ⊕ List Fragment) := do
  let (found, moved) ← s.matchHere
  let done := found.reverse ++ done
  if moved then return .inl done else return .inl ((← takeOne) ++ done)

theorem takeOne_of_cons {c : Char} (h : At before (c :: u) r) :
    ∃ t, takeOne r = .ok [⟨.behind r.file before, [c]⟩] t ∧ At (before ++ [c]) u t ∧
      Carries r t := by
  obtain ⟨t, ht, hplace, hkeeps⟩ := h.next
  refine ⟨t, ?_, hplace, hkeeps.carries⟩
  unfold takeOne
  rw [Op.get_bind, Op.bind_of_ok ht, h.location, Location.between_of_ne_nil (List.cons_ne_nil c u)]
  rfl

theorem takeToken_of_moved {found done : List Fragment} {t : Reader}
    (h : s.matchHere r = .ok (found, true) t) :
    s.takeToken done r = .ok (.inl (found.reverse ++ done)) t := by
  unfold takeToken
  rw [Op.bind_of_ok h]
  rfl

theorem takeToken_of_unmoved {found one done : List Fragment} {t t' : Reader}
    (h : s.matchHere r = .ok (found, false) t) (hone : takeOne t = .ok one t') :
    s.takeToken done r = .ok (.inl (one ++ (found.reverse ++ done))) t' := by
  unfold takeToken
  rw [Op.bind_of_ok h]
  exact Op.bind_of_ok hone

theorem takeToken_of_piece {p : Piece} {done : List Fragment} (h : At before u r)
    (hu : u.WholeLines) (hqueue : r.queue = []) (htoken : s.token u = .piece p) :
    ∃ t, s.takeToken done r = .ok (.inl ((p.fragments r.file before).reverse ++ done)) t ∧
      At (before ++ p.text) (u.drop p.text.length) t ∧ Carries r t := by
  obtain ⟨c, w, rfl, ⟨hm, rfl⟩ | ⟨m, hm, rfl⟩⟩ := token_eq_piece htoken
  · obtain ⟨v, hv, hplace, hcarries⟩ := matchHere_of_none h hqueue hm
    obtain ⟨t, ht, hplace', hcarries'⟩ := takeOne_of_cons hplace
    refine ⟨t, ?_, hplace', hcarries.trans hcarries'⟩
    rw [takeToken_of_unmoved hv ht, hcarries.file]
    simp [Piece.fragments]
  · obtain ⟨v, hv, hplace, hcarries⟩ := matchHere_of_some h hu (List.cons_ne_nil c w) hqueue hm
    obtain ⟨_, -, _, -, hmatch⟩ := firstMatch_eq_some hm
    have hwithin := Pattern.within_of_match? hmatch
    by_cases hstop : m.whole.stop = 0
    · have hpiece : m.piece c = ⟨[c], m.found ++ [(0, [c])]⟩ := by simp [Match.piece, hstop]
      simp only [hstop, bne_self_eq_false, List.take_zero, List.append_nil, List.drop_zero] at hv hplace
      obtain ⟨t, ht, hplace', hcarries'⟩ := takeOne_of_cons hplace
      rw [hpiece]
      refine ⟨t, ?_, hplace', hcarries.trans hcarries'⟩
      rw [takeToken_of_unmoved hv ht, hcarries.file]
      simp [Piece.fragments]
    · have hpiece : m.piece c = ⟨m.wholeText, m.found⟩ := by simp [Match.piece, hstop]
      have hmoves : (m.whole.stop != 0) = true := by simpa using hstop
      have htext : m.wholeText = (c :: w).take m.whole.stop := by
        rw [hwithin.wholeText, Text.take_firstLine hwithin.stop_le]
      rw [hmoves] at hv
      rw [hpiece]
      refine ⟨v, takeToken_of_moved hv, ?_, hcarries⟩
      rw [hwithin.length_wholeText, htext]
      exact hplace

theorem takeToken_of_failure {f : Halt} {done : List Fragment} (h : At before u r)
    (htoken : s.token u = .failure f) :
    ∃ t, s.takeToken done r = .error (f.fault r.file before u) t := by
  cases u with
  | nil => cases htoken
  | cons c w =>
    simp only [token] at htoken
    split at htoken
    · rename_i fault hm
      obtain rfl := Cut.failure.inj htoken
      obtain ⟨t, ht⟩ := matchHere_of_error h hm
      refine ⟨t, ?_⟩
      unfold takeToken
      rw [Op.bind_of_error ht, Halt.fault]
    · cases htoken
    · cases htoken

theorem turn_of_skip {comments : List Fragment} {t : Reader} (done : List Fragment)
    (hskip : s.trivia.skip r = .ok comments t) (hended : t.ended = false) :
    s.turn done r = s.takeToken (comments.reverse ++ done) t := by
  unfold turn
  rw [Op.bind_of_ok hskip, Op.get_bind, if_neg (by simp [hended])]
  rfl

theorem turn_of_end {comments done : List Fragment} {t : Reader}
    (hskip : s.trivia.skip r = .ok comments t) (hended : t.ended = true) :
    s.turn done r = .ok (.inr (comments.reverse ++ done)) t := by
  unfold turn
  rw [Op.bind_of_ok hskip, Op.get_bind, if_pos hended]
  rfl

section Turns

variable {d : Delimiters} (hd : s.config.Delimits d) (h : At before u r)
  (hr : r.config = s.config) (done : List Fragment)

include hd h hr

/-- A turn takes what is skipped and the token behind it, reaches the end or meets an error. -/
theorem turn_spec (hu : u.WholeLines) (hqueue : r.queue = []) :
    ∃ ps v, Chain (s.cut d) u ps v ∧
      ((v = [] ∧ ∃ t, s.turn done r = .ok (.inr ((locate r.file before ps).reverse ++ done)) t) ∨
        (∃ f, s.cut d v = .failure f ∧ ∃ t, s.turn done r =
          .error (f.fault r.file (before ++ Piece.textOf ps) v) t) ∨
        (v.length < u.length ∧ ∃ t, s.turn done r =
            .ok (.inl ((locate r.file before ps).reverse ++ done)) t ∧
          At (before ++ Piece.textOf ps) v t ∧ Carries r t)) := by
  obtain ⟨ps, v, hskipped, hfinal⟩ :=
    Chain.exists_final (d.trivia s.keepComments) (fun _ _ => Delimiters.prefix_of_trivia) u
  have hchain : Chain (s.cut d) u ps v := by
    refine hskipped.mono fun u p hp => ?_
    rw [cut_of_trivia (by simp [hp]), hp]
  have htext := hskipped.text_eq fun _ _ hp => (Delimiters.prefix_of_trivia hp).1
  cases hcut : d.trivia s.keepComments v with
  | piece p =>
    rw [hcut] at hfinal
    exact hfinal.elim
  | failure f =>
    obtain ⟨t, ht, -⟩ := Trivia.skip_of_failure (t := s.trivia) hd h hr hskipped hcut
    refine ⟨ps, v, hchain, .inr (.inl ⟨f, ?_, t, ?_⟩)⟩
    · rw [cut_of_trivia (by simp [hcut]), hcut]
    · unfold turn
      exact Op.bind_of_error ht
  | nothing =>
    obtain ⟨w, hw, hplace, hcarries⟩ := Trivia.skip_of_nothing (t := s.trivia) hd h hr hskipped hcut
    by_cases hv : v = []
    · exact ⟨ps, v, hchain, .inl ⟨hv, w, turn_of_end hw (by simp [hplace.ended, hv])⟩⟩
    · have hturn := turn_of_skip done hw (hplace.ended_eq_false hv)
      cases htoken : s.token v with
      | nothing => exact absurd htoken (token_ne_nothing hv)
      | failure f =>
        obtain ⟨t, ht⟩ := takeToken_of_failure hplace htoken
        refine ⟨ps, v, hchain, .inr (.inl ⟨f, ?_, t, ?_⟩)⟩
        · rw [cut_of_token hcut, htoken]
        · rw [hturn, ht, hcarries.file]
      | piece p =>
        have hhead : s.cut d v = .piece p := by rw [cut_of_token hcut, htoken]
        obtain ⟨t, ht, hplace', hcarries'⟩ := takeToken_of_piece hplace (hu.suffix ⟨_, htext⟩)
          (hcarries.queue.trans hqueue) htoken
        refine ⟨ps ++ [p], v.drop p.text.length, hchain.append (.cons hhead (.nil _)),
          .inr (.inr ⟨?_, t, ?_, ?_, hcarries.trans hcarries'⟩)⟩
        · obtain ⟨hbegins, hne⟩ := prefix_of_cut hhead
          have hpos := List.length_pos_iff.2 hne
          have hle := hbegins.length_le
          have hlen := congrArg List.length htext
          rw [List.length_append] at hlen
          rw [List.length_drop]
          omega
        · rw [hturn, ht, hcarries.file]
          simp [locate_append, locate]
        · simpa [Piece.textOf_append] using hplace'

/-- Turn after turn a scan takes the chain of all pieces, up to the end or to an error. -/
theorem loop_spec (hu : u.WholeLines) (hqueue : r.queue = []) :
    ∃ ps v, Chain (s.cut d) u ps v ∧
      ((v = [] ∧ ∃ t, Op.loop s.turn s.turn_shrinks done r =
          .ok ((locate r.file before ps).reverse ++ done) t) ∨
        ∃ f, s.cut d v = .failure f ∧ ∃ t, Op.loop s.turn s.turn_shrinks done r =
          .error (f.fault r.file (before ++ Piece.textOf ps) v) t) := by
  induction hn : u.length using Nat.strongRecOn generalizing before u r done with
  | _ n ih =>
    obtain ⟨ps, v, hchain, ⟨hv, t, ht⟩ | ⟨f, hf, t, ht⟩ | ⟨hlt, t, ht, hplace, hcarries⟩⟩ :=
      turn_spec hd h hr done hu hqueue
    · exact ⟨ps, v, hchain, .inl ⟨hv, t, Op.loop_of_inr ht⟩⟩
    · exact ⟨ps, v, hchain, .inr ⟨f, hf, t, Op.loop_of_error ht⟩⟩
    · have hlines : v.WholeLines :=
        hu.suffix ⟨_, hchain.text_eq fun _ _ hp => (prefix_of_cut hp).1⟩
      obtain ⟨qs, w, hchain', hend⟩ := ih _ (hn ▸ hlt) hplace (hcarries.config.trans hr)
        ((locate r.file before ps).reverse ++ done) hlines (hcarries.queue.trans hqueue) rfl
      have hlocate : (locate r.file (before ++ Piece.textOf ps) qs).reverse ++
          ((locate r.file before ps).reverse ++ done) =
            (locate r.file before (ps ++ qs)).reverse ++ done := by
        simp [locate_append]
      rw [hcarries.file, hlocate] at hend
      refine ⟨ps ++ qs, w, hchain.append hchain', ?_⟩
      rw [Op.loop_of_inl ht, Piece.textOf_append, ← List.append_assoc]
      exact hend

end Turns

def verdict (s : Scan) (d : Delimiters) (file : Text) (ps : List Piece) (v : Text) :
    Except Fault (List Fragment) :=
  match s.cut d v with
  | .failure f => .error (f.fault file (Piece.textOf ps) v)
  | _ => .ok (locate file [] ps)

theorem exists_chain {fs : FileSystem} {file source : Text} {d : Delimiters}
    (h : DecodesTo fs file s.config source) (hd : s.config.Delimits d) :
    ∃ ps v, Chain (s.cut d) (withFinalNewline source) ps v ∧ (s.cut d v).Final ∧
      (s.run fs file).result = s.verdict d file ps v := by
  obtain ⟨r, hopen, hplace, hfile, hconfig, -, hqueue⟩ := Reader.ofFile_of_decodesTo h
  obtain ⟨ps, v, hchain, ⟨rfl, t, ht⟩ | ⟨f, hf, t, ht⟩⟩ :=
    loop_spec hd hplace hconfig [] (Text.wholeLines_withFinalNewline source) hqueue
  · have hrun : s.fragments r = .ok (locate file [] ps) t := by
      unfold fragments
      rw [Op.bind_of_ok ht, hfile]
      simp [pure, EStateM.pure]
    have hcut : s.cut d [] = .nothing := rfl
    refine ⟨ps, [], hchain, by rw [hcut]; trivial, ?_⟩
    rw [verdict, hcut]
    simp [run, hopen, hrun]
  · have hrun : s.fragments r = .error (f.fault file (Piece.textOf ps) v) t := by
      unfold fragments
      rw [Op.bind_of_error ht, hfile, List.nil_append]
    refine ⟨ps, v, hchain, by rw [hf]; trivial, ?_⟩
    rw [verdict, hf]
    simp [run, hopen, hrun]

/-- The result of a scan is told by the chain of all pieces of the text. -/
theorem run_of_chain {fs : FileSystem} {file source v : Text} {d : Delimiters} {ps : List Piece}
    (h : DecodesTo fs file s.config source) (hd : s.config.Delimits d)
    (hchain : Chain (s.cut d) (withFinalNewline source) ps v) (hv : (s.cut d v).Final) :
    (s.run fs file).result = s.verdict d file ps v := by
  obtain ⟨qs, w, hchain', hw, hrun⟩ := exists_chain h hd
  obtain ⟨rfl, rfl⟩ := hchain.unique hv hchain' hw
  exact hrun

end Scan
end LineLexer
