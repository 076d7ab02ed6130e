import LineLexer.Proofs.Endings
import LineLexer.Proofs.LineEnds

/-!
# Looking and matching read nothing

Only what goes past the newline of a line reads on. To look, to edit, to match
what is left of the line and to work with the queue leave the file alone, in
whatever state a session has led to: what they take ends before the newline.
-/

namespace LineLexer

open Input (withFinalNewline)

def Fault.OfReading : Fault → Prop
  | input _ | fatal .. | closedReader => True
  | _ => False

theorem Fault.OfUse.notOfReading {fault : Fault} (h : fault.OfUse) : ¬fault.OfReading := by
  cases fault <;> first | exact id | exact h.elim

namespace Reader

structure SameInput (r s : Reader) : Prop where
  stream : s.stream = r.stream
  lineNumber : s.lineNumber = r.lineNumber
  ended : s.ended = r.ended

theorem SameInput.refl (r : Reader) : SameInput r r := ⟨rfl, rfl, rfl⟩

theorem SameInput.trans {r s t : Reader} (h : SameInput r s) (h' : SameInput s t) :
    SameInput r t :=
  ⟨h'.stream.trans h.stream, h'.lineNumber.trans h.lineNumber, h'.ended.trans h.ended⟩

theorem SameInput.advance (r : Reader) (n : Nat) : SameInput r (r.advance n) := ⟨rfl, rfl, rfl⟩

inductive ReadsNothing {α : Type} (r : Reader) : EStateM.Result Fault Reader α → Prop
  | ok {s : Reader} (a : α) (h : SameInput r s) : ReadsNothing r (.ok a s)
  | error {s : Reader} (fault : Fault) (hfault : ¬fault.OfReading) (h : SameInput r s) :
      ReadsNothing r (.error fault s)

section Combining

variable {α β : Type} {r s : Reader} {x : Op α}

theorem ReadsNothing.of_sameInput {y : EStateM.Result Fault Reader α} (hy : ReadsNothing s y)
    (h : SameInput r s) : ReadsNothing r y := by
  cases hy with
  | ok a h' => exact .ok a (h.trans h')
  | error fault hfault h' => exact .error fault hfault (h.trans h')

theorem ReadsNothing.bind {f : α → Op β} (hx : ReadsNothing r (x r))
    (hf : ∀ a s, x r = .ok a s → ReadsNothing s (f a s)) : ReadsNothing r ((x >>= f) r) := by
  generalize hrun : x r = y at hx
  cases hx with
  | ok a h =>
    rw [Op.bind_of_ok hrun]
    exact (hf a _ hrun).of_sameInput h
  | error fault hfault h =>
    rw [Op.bind_of_error hrun]
    exact .error fault hfault h

theorem ReadsNothing.map (hx : ReadsNothing r (x r)) (f : α → β) :
    ReadsNothing r ((f <$> x) r) := by
  show ReadsNothing r (EStateM.map f x r)
  unfold EStateM.map
  generalize x r = y at hx
  cases hx with
  | ok a h => exact .ok (f a) h
  | error fault hfault h => exact .error fault hfault h

theorem readsNothing_observe {f : Reader → Except Fault α} (h : FailsAside (f r)) :
    ReadsNothing r (Op.observe f r) := by
  unfold Op.observe
  cases hr : f r with
  | ok a => exact .ok a (.refl r)
  | error fault => exact .error fault (h fault hr).notOfReading (.refl r)

theorem readsNothing_ofExcept {y : Except Fault α} (h : FailsAside y) :
    ReadsNothing r (Op.ofExcept y r) := by
  cases y with
  | ok a => exact .ok a (.refl r)
  | error fault => exact .error fault (h fault rfl).notOfReading (.refl r)

end Combining

section Staying

variable {r : Reader}

theorem readsNothing_cacheRemainder : ReadsNothing r (cacheRemainder r) := .ok _ ⟨rfl, rfl, rfl⟩

theorem readsNothing_remainder : ReadsNothing r (remainder r) := by
  unfold remainder
  split
  · exact .ok _ (.refl r)
  · exact readsNothing_cacheRemainder

theorem readsNothing_replace (span : List Int) (text : Text) :
    ReadsNothing r (replace span text r) := by
  unfold replace
  split
  · split
    · rw [edit_eq]
      exact .ok () ⟨rfl, rfl, rfl⟩
    · exact .error _ id (.refl r)
  · exact .error _ id (.refl r)

theorem readsNothing_matchPattern (p : Pattern.Source) (text : Option Text) :
    ReadsNothing r (matchPattern p text r) := by
  unfold matchPattern
  refine .bind ?_ fun searched s _ => .bind (readsNothing_ofExcept (failsAside_resolve p)) fun pattern s _ => ?_
  · cases text with
    | some t => exact .ok t (.refl r)
    | none => exact readsNothing_remainder
  · exact .ok _ ⟨rfl, rfl, rfl⟩

theorem readsNothing_matchFirst (text : Option Text) (patterns : List Pattern.Source) :
    ReadsNothing r (matchFirst text patterns r) := by
  induction patterns generalizing r with
  | nil => exact .ok false (.refl r)
  | cons p ps ih =>
    refine .bind (readsNothing_matchPattern p text) fun found s _ => ?_
    split
    · exact .ok true (.refl s)
    · exact ih

theorem readsNothing_queueGroup (group : Int) (save : Bool) :
    ReadsNothing r (queueGroup group save r) := by
  unfold queueGroup
  split
  · exact .ok () (.refl r)
  · split
    · exact .error _ id (.refl r)
    · split
      · exact .error _ id (.refl r)
      · exact .ok () ⟨rfl, rfl, rfl⟩

theorem readsNothing_fetchGroup (group : Int) : ReadsNothing r (fetchGroup group r) := by
  unfold fetchGroup
  rw [Op.get_bind]
  split
  · exact .error _ id (.refl r)
  · refine .bind (readsNothing_observe (failsAside_groupText group)) fun text s _ => ?_
    exact .bind (readsNothing_queueGroup group true) fun _ t _ => .ok text (.refl t)

theorem readsNothing_popCapture : ReadsNothing r (popCapture r) := by
  unfold popCapture
  split
  · exact .error _ id (.refl r)
  · exact .ok _ ⟨rfl, rfl, rfl⟩

end Staying

section Taking

variable {r : Reader} {m : Match}

theorem readsNothing_accept {n : Int} (h : n ≤ r.restOfLine.length) :
    ReadsNothing r (accept n r) := by
  by_cases hstays : r.ended = true ∨ n ≤ 0
  · rw [accept_of_stop hstays]
    exact .ok () (.refl r)
  · simp only [not_or, Bool.not_eq_true, Int.not_le] at hstays
    have hlt : n.toNat < r.rest.length := by
      rw [restOfLine, hstays.1, if_neg Bool.false_ne_true, List.length_dropLast] at h
      omega
    rw [accept_of_lt hstays.1 hstays.2 hlt]
    exact .ok () (.advance r _)

def NewlineLast (r : Reader) : Prop := r.ended = false → r.line.getLast? = some '\n'

theorem rest_of_lookAhead_zero {c : Char} (h : r.lookAhead 0 = .ok (some c)) :
    r.ended = false ∧ ∃ more, r.rest = c :: more := by
  unfold lookAhead at h
  rw [if_neg (by decide)] at h
  split at h
  · cases h
  · rename_i hended
    refine ⟨by simpa using hended, ?_⟩
    cases hrest : r.rest with
    | nil => simp [hrest] at h
    | cons d more =>
      rw [hrest] at h
      cases h
      exact ⟨more, rfl⟩

theorem length_le_of_looksAt (h : r.NewlineLast) {t : Text} (ht : t ≠ ['\n'])
    (hlooks : r.looksAt t = .ok true) : t.length ≤ r.restOfLine.length := by
  unfold looksAt at hlooks
  split at hlooks
  · rename_i c
    have hc : c ≠ '\n' := fun hc => ht (by rw [hc])
    cases hlook : r.lookAhead 0 with
    | error fault =>
      rw [hlook] at hlooks
      cases hlooks
    | ok c? =>
      rw [hlook] at hlooks
      obtain rfl : c? = some c := by simpa using Except.ok.inj hlooks
      obtain ⟨hended, more, hrest⟩ := rest_of_lookAhead_zero hlook
      have hlast := h hended
      rw [line, List.getLast?_append_of_ne_nil _ (by simp [hrest]), hrest] at hlast
      cases more with
      | nil => exact absurd (Option.some.inj hlast) hc
      | cons d more => simp [restOfLine, hended, hrest]
  · rw [substring_eq] at hlooks
    have htake : r.restOfLine.take t.length = t := by simpa using Except.ok.inj hlooks
    have hlength := congrArg List.length htake
    rw [List.length_take] at hlength
    omega

theorem readsNothing_acceptText (h : r.NewlineLast) {t : Text} (ht : t ≠ ['\n']) :
    ReadsNothing r (acceptText t r) := by
  cases hlooks : r.looksAt t with
  | error fault =>
    rw [acceptText, hlooks]
    exact .error fault (failsAside_looksAt t fault hlooks).notOfReading (.refl r)
  | ok found =>
    cases found with
    | false =>
      rw [acceptText, hlooks]
      exact .ok false (.refl r)
    | true =>
      rw [acceptText_of_looksAt hlooks]
      have hle := length_le_of_looksAt h ht hlooks
      exact .bind (readsNothing_accept (by omega)) fun _ s _ => .ok true (.refl s)

theorem readsNothing_lineComment (keep : Bool) : ReadsNothing r (lineComment keep r) := by
  unfold lineComment
  rw [Op.get_bind]
  refine .bind (.ok () ⟨rfl, rfl, rfl⟩) fun _ s _ => .bind readsNothing_cacheRemainder ?_
  intro text t hcache
  have htext : t.restOfLine = text := by
    cases hcache
    rfl
  refine .bind (readsNothing_accept (by rw [htext])) fun _ u _ => ?_
  exact readsNothing_ofExcept (failsAside_keptComment keep _ _ text)

theorem readsNothing_acceptMatch (hm : r.lastMatch = some m)
    (hstop : m.whole.stop ≤ r.restOfLine.length) : ReadsNothing r (acceptMatch r) := by
  simp only [acceptMatch, hm]
  exact readsNothing_accept (by omega)

theorem readsNothing_checkCount (hm : r.lastMatch = some m)
    (hstop : m.whole.stop ≤ r.restOfLine.length) (counts : Option (List Int)) :
    ReadsNothing r (checkCount m counts r) := by
  unfold checkCount
  split
  · unfold failLexically
    rw [Op.get_bind]
    refine .bind (readsNothing_acceptMatch hm hstop) fun _ s _ => ?_
    exact .error _ id ⟨rfl, rfl, rfl⟩
  · exact .ok () (.refl r)

theorem checkCount_eq_ok {counts : Option (List Int)} {s : Reader}
    (h : checkCount m counts r = .ok () s) : s = r := by
  unfold checkCount at h
  split at h
  · exact absurd h failLexically_ne_ok
  · exact (Op.pure_eq_ok.1 h).2.symm

theorem readsNothing_takeMatch (hm : r.lastMatch = some m)
    (hstop : m.whole.stop ≤ r.restOfLine.length) (counts : Option (List Int)) (save : Bool) :
    ReadsNothing r (takeMatch counts save r) := by
  rw [takeMatch_of_some hm]
  have hqueues : ∃ queue, queueFragments m save r = .ok () { r with queue } := by
    cases save with
    | false => exact ⟨r.queue, rfl⟩
    | true => exact ⟨_, rfl⟩
  obtain ⟨queue, hqueue⟩ := hqueues
  refine .bind (by rw [hqueue]; exact .ok () ⟨rfl, rfl, rfl⟩) fun _ s hs => ?_
  obtain rfl : { r with queue } = s := by
    rw [hqueue] at hs
    cases hs
    rfl
  refine .bind (readsNothing_checkCount (r := { r with queue }) hm hstop counts) fun _ t ht => ?_
  rw [checkCount_eq_ok ht]
  exact readsNothing_acceptMatch (r := { r with queue }) hm hstop

theorem readsNothing_acceptFirst (h : r.Fresh) (patterns : List Pattern.Source)
    (counts : Option (List Int)) (save : Bool) :
    ReadsNothing r (acceptFirst patterns counts none save r) := by
  refine .bind (readsNothing_matchFirst none patterns) fun found s hfound => ?_
  cases found with
  | false => exact .ok false (.refl s)
  | true =>
    have hseeks := seeks_matchFirst h patterns
    rw [hfound] at hseeks
    cases hseeks with
    | @found m cachedRemainder hm =>
      have htake := readsNothing_takeMatch
        (r := { r with cachedRemainder, lastMatch := some m }) rfl hm.stop_le
        counts save
      exact htake.bind fun _ t _ => .ok true (.refl t)

end Taking

theorem carried_newlineLast : Carried NewlineLast where
  inLine := by
    intro r n _ _ h hended
    rw [line_advance]
    exact h hended
  onward := by
    intro r hended _ h
    have hends := readsOn_nextLine (r := r.behindLine) hended
    unfold Op.after
    generalize nextLine r.behindLine = x at hends
    cases hends with
    | @line line body stream hopen hline hbody =>
      intro _
      show (withFinalNewline line).getLast? = some '\n'
      rw [hline, List.getLast?_append_of_ne_nil _ (List.cons_ne_nil _ _)]
      rfl
    | stop stream hopen =>
      rw [endInput_eq (r := { r.behindLine with stream := some stream }) rfl]
      exact fun hfalse => Bool.noConfusion hfalse
    | failed fault hopen hfailures =>
      intro _
      have hline := h hended
      rwa [← line_behindLine] at hline

theorem stable_newlineLast : Stable NewlineLast where
  next := carried_newlineLast.preserves_next
  accept := carried_newlineLast.preserves_accept
  remembering _ h := h
  matching _ _ h := h
  queueing _ _ h := h

theorem newlineLast_edit (r : Reader) (i j : Nat) (text : Text) : (r.edit i j text).NewlineLast := by
  intro _
  simp only [line_edit]
  split
  · assumption
  · rw [List.getLast?_append_of_ne_nil _ (List.cons_ne_nil _ _)]
    rfl

section Runs

variable {r : Reader}

theorem NewlineLast.demand (h : r.NewlineLast) (d : Demand) : (d.run.after r).NewlineLast := by
  refine stable_newlineLast.demand_apart (fun r stream notes h => h) ?_ h
  rintro span text rfl
  rcases after_replace span text r with hsame | ⟨i, j, -, -, -, hedit⟩
  · rwa [hsame]
  · rw [hedit]
    exact newlineLast_edit r i j text

theorem NewlineLast.after (h : r.NewlineLast) (ds : List Demand) :
    (Demand.after ds r).NewlineLast := by
  induction ds generalizing r with
  | nil => exact h
  | cons d ds ih => exact ih (h.demand d)

end Runs

theorem newlineLast_ofFile {fs : FileSystem} {file : Text} {config : Config} {start : Reader}
    (h : ofFile fs file config = .ok start) : start.NewlineLast := by
  intro hended
  obtain ⟨body, hline, -⟩ := lined_ofFile h hended
  rw [hline, List.getLast?_append_of_ne_nil _ (List.cons_ne_nil _ _)]
  rfl

end Reader

namespace Demand

/-- Whatever can go past the newline of the line. -/
def MayLoad : Demand → Prop
  | act .next | act (.accept _) | act (.take _) | act (.blockComment _) | act (.skip _) => True
  | act (.acceptText t) => t = ['\n']
  | act (.acceptFirst _ _ text _) => text.isSome = true
  | _ => False

/-- What is done to the file itself. -/
def HandlesFile : Demand → Prop
  | act .close | act (.breakStream _) => True
  | _ => False

theorem readsNothing {r : Reader} (hline : r.NewlineLast) (hfresh : r.Fresh) {d : Demand}
    (hload : ¬d.MayLoad) (hfile : ¬d.HandlesFile) : r.ReadsNothing (d.run r) := by
  cases d with
  | ask q => exact Reader.readsNothing_observe (f := fun r => q.ask r) (Reader.failsAside_ask q)
  | act o =>
    cases o with
    | acceptText t => exact (Reader.readsNothing_acceptText hline hload).map _
    | cacheRemainder => exact Reader.readsNothing_cacheRemainder.map _
    | remainder => exact Reader.readsNothing_remainder.map _
    | replace span text => exact (Reader.readsNothing_replace span text).map _
    | matchPattern p text => exact (Reader.readsNothing_matchPattern p text).map _
    | acceptFirst patterns counts text save =>
      cases text with
      | none => exact (Reader.readsNothing_acceptFirst hfresh patterns counts save).map _
      | some t => exact absurd rfl hload
    | queueGroup group save => exact (Reader.readsNothing_queueGroup group save).map _
    | fetchGroup group => exact (Reader.readsNothing_fetchGroup group).map _
    | popCapture => exact Reader.readsNothing_popCapture.map _
    | drainQueue => exact .ok _ ⟨rfl, rfl, rfl⟩
    | clearQueue => exact .ok _ ⟨rfl, rfl, rfl⟩
    | lineComment keep => exact (Reader.readsNothing_lineComment keep).map _
    | close => exact absurd trivial hfile
    | breakStream message => exact absurd trivial hfile
    | _ => exact absurd trivial hload

theorem handlesFile_keeps {r : Reader} {d : Demand} (h : d.HandlesFile) :
    ∃ s, d.run r = .ok .done s ∧ s.lineNumber = r.lineNumber ∧ s.ended = r.ended := by
  cases d with
  | ask q => exact h.elim
  | act o =>
    cases o with
    | close =>
      refine ⟨r.close, rfl, ?_⟩
      unfold Reader.close
      split
      · exact ⟨rfl, rfl⟩
      · exact ⟨rfl, rfl⟩
    | breakStream message => exact ⟨r.breakStream message, rfl, rfl, rfl⟩
    | _ => exact h.elim

def loaders (config : Config) : List Demand :=
  [act .next, act (.accept 1), act (.acceptText ['\n']), act (.take (some 1)),
    act (.blockComment false), act (.skip { config }),
    act (.acceptFirst [.written ['x']] none (some ['x']) false)]

structure Loads (r : Reader) (d : Demand) : Prop where
  mayLoad : d.MayLoad
  onward : r.lineNumber < (d.run.after r).lineNumber
  failure : d.run.outcome (r.breakStream []) = .error (.fatal r.file r.lineNumber (.device []))

theorem loads_of_mem_loaders : ∃ start,
    Reader.ofFile (({} : FileSystem).addFile ['f'] [0x0A, 0x78, 0x0A]) ['f'] {} = .ok start ∧
      ∀ d ∈ loaders {}, Loads start d := by
  refine ⟨_, by cbv, ?_⟩
  simp only [loaders, List.forall_mem_cons]
  exact ⟨⟨trivial, by cbv, by cbv⟩, ⟨trivial, by cbv, by cbv⟩, ⟨rfl, by cbv, by cbv⟩,
    ⟨trivial, by cbv, by cbv⟩, ⟨trivial, by cbv, by cbv⟩, ⟨trivial, by cbv, by cbv⟩,
    ⟨rfl, by cbv, by cbv⟩, List.forall_mem_nil _⟩

end Demand

namespace Reader

open Demand (after)

/-- In every state of a session only what may load a line can read one or fail for its reading; and
each kind of that can. -/
theorem readsNothing_ofFile {fs : FileSystem} {file : Text} {config : Config} {start : Reader}
    (h : ofFile fs file config = .ok start) :
    (∀ ds (d : Demand), ¬d.MayLoad → ¬d.HandlesFile →
      ReadsNothing (after ds start) (d.run (after ds start))) ∧
    (∀ ds (d : Demand), d.HandlesFile → ∃ s, d.run (after ds start) = .ok .done s ∧
      s.lineNumber = (after ds start).lineNumber ∧ s.ended = (after ds start).ended) ∧
    ∃ fs file start, ofFile fs file {} = .ok start ∧ ∀ d ∈ Demand.loaders {}, d.Loads start := by
  refine ⟨fun ds d hload hfile => ?_, fun ds d hfile => d.handlesFile_keeps hfile, ?_⟩
  · have hfresh := Demand.fresh_after ds (fresh_of_none (cachedRemainder_ofFile h))
    exact Demand.readsNothing ((newlineLast_ofFile h).after ds) hfresh hload hfile
  · obtain ⟨start, hopen, hloads⟩ := Demand.loads_of_mem_loaders
    exact ⟨_, _, start, hopen, hloads⟩

theorem readsNothing_ofFile_groupCount :
    ∃ start r, ofFile (({} : FileSystem).addFile ['f'] [0x78, 0x0A, 0x79, 0x0A]) ['f'] {} = .ok start ∧
      after [.act (.breakStream []), .act (.accept 2)] start = r ∧ r.rest = [] ∧
      ReadsNothing r ((Demand.act (.acceptFirst [.written "y*".toList] (some [3]) none true)).run r) ∧
      (Demand.act (.acceptFirst [.written "y*".toList] (some [3]) none true)).run.outcome r =
        .error (.lexical .groupCount ⟨['f'], 1, 3⟩ (some [])) := by
  obtain ⟨start, r, hopen, hafter, hrest, hcount⟩ : ∃ start r,
      ofFile (({} : FileSystem).addFile ['f'] [0x78, 0x0A, 0x79, 0x0A]) ['f'] {} = .ok start ∧
      after [.act (.breakStream []), .act (.accept 2)] start = r ∧ r.rest = [] ∧
      (Demand.act (.acceptFirst [.written "y*".toList] (some [3]) none true)).run.outcome r =
        .error (.lexical .groupCount ⟨['f'], 1, 3⟩ (some [])) :=
    ⟨_, _, by cbv, rfl, by cbv, by cbv⟩
  obtain ⟨hreads, -, -⟩ := readsNothing_ofFile hopen
  replace hreads := hreads [.act (.breakStream []), .act (.accept 2)]
    (.act (.acceptFirst [.written "y*".toList] (some [3]) none true)) (by simp [Demand.MayLoad]) id
  rw [hafter] at hreads
  exact ⟨start, r, hopen, hafter, hrest, hreads, hcount⟩

end Reader
end LineLexer
