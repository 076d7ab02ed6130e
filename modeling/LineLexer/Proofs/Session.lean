import LineLexer.Proofs.Coupling
import LineLexer.Proofs.Cursor

/-!
# What a reader can reach

A session puts operations to a reader one after the other and goes on with the
state that an operation leaves, also where it fails. What the small steps keep
that operations are made of is kept in every state that a session reaches.
-/

namespace LineLexer

namespace Op

variable {α β : Type}

def after (x : Op α) (r : Reader) : Reader :=
  match x r with
  | .ok _ s => s
  | .error _ s => s

def outcome (x : Op α) (r : Reader) : Except Fault α :=
  match x r with
  | .ok a _ => .ok a
  | .error fault _ => .error fault

/-- What holds before an operation holds after it, also where it fails. -/
def Preserves (I : Reader → Prop) (x : Op α) : Prop := ∀ r, I r → I (x.after r)

theorem after_of_ok {x : Op α} {r s : Reader} {a : α} (h : x r = .ok a s) : x.after r = s := by
  rw [after, h]

theorem after_of_error {x : Op α} {r s : Reader} {fault : Fault} (h : x r = .error fault s) :
    x.after r = s := by
  rw [after, h]

theorem after_map (f : α → β) (x : Op α) (r : Reader) : (f <$> x).after r = x.after r := by
  show Op.after (EStateM.map f x) r = _
  unfold after EStateM.map
  cases x r <;> rfl

theorem after_bind_pure (x : Op α) (b : β) (r : Reader) :
    (x >>= fun _ => pure b : Op β).after r = x.after r := by
  unfold after
  cases hrun : x r with
  | ok a s => rw [bind_of_ok hrun]; rfl
  | error fault s => rw [bind_of_error hrun]

theorem after_observe (f : Reader → Except Fault α) (r : Reader) : (observe f).after r = r := by
  unfold after observe
  cases f r <;> rfl

theorem SameEnd.after {R : Reader → Reader → Prop} {x y : Op α} {r s : Reader}
    (h : SameEnd R (x r) (y s)) : R (x.after r) (y.after s) := by
  unfold Op.after
  generalize x r = z at h
  generalize y s = w at h
  cases h with
  | ok a h => exact h
  | error fault h => exact h

theorem SameEnd.outcome_eq {R : Reader → Reader → Prop} {x y : Op α} {r s : Reader}
    (h : SameEnd R (x r) (y s)) : x.outcome r = y.outcome s := by
  unfold Op.outcome
  generalize x r = z at h
  generalize y s = w at h
  cases h <;> rfl

theorem preserves_iff_respects {I : Reader → Prop} {x : Op α} :
    Preserves I x ↔ Respects (fun r s => r = s ∧ I r) x := by
  constructor
  · rintro h r _ ⟨rfl, hr⟩
    have hafter := h r hr
    unfold after at hafter
    cases hrun : x r with
    | ok a t =>
      rw [hrun] at hafter
      exact .ok a ⟨rfl, hafter⟩
    | error fault t =>
      rw [hrun] at hafter
      exact .error fault ⟨rfl, hafter⟩
  · intro h r hr
    exact (h r r ⟨rfl, hr⟩).after.2

theorem Preserves.bind {I : Reader → Prop} {x : Op α} {f : α → Op β} (hx : Preserves I x)
    (hf : ∀ a, Preserves I (f a)) : Preserves I (x >>= f) :=
  preserves_iff_respects.2
    ((preserves_iff_respects.1 hx).bind fun a => preserves_iff_respects.1 (hf a))

end Op

inductive Operation
  | next
  | accept (n : Int)
  | acceptText (t : Text)
  | cacheRemainder
  | remainder
  | take (limit : Option Nat)
  | replace (span : List Int) (text : Text)
  | matchPattern (p : Pattern.Source) (text : Option Text)
  | acceptFirst (patterns : List Pattern.Source) (counts : Option (List Int))
      (text : Option Text) (save : Bool)
  | queueGroup (group : Int) (save : Bool)
  | fetchGroup (group : Int)
  | popCapture
  | drainQueue
  | clearQueue
  | blockComment (keep : Bool)
  | lineComment (keep : Bool)
  | skip (t : Trivia)
  | close
  | breakStream (message : Text)

namespace Operation

def after (r : Reader) : Operation → Reader
  | next => Reader.next.after r
  | accept n => (Reader.accept n).after r
  | acceptText t => (Reader.acceptText t).after r
  | cacheRemainder => Reader.cacheRemainder.after r
  | remainder => Reader.remainder.after r
  | take limit => (Reader.take limit).after r
  | replace span text => (Reader.replace span text).after r
  | matchPattern p text => (Reader.matchPattern p text).after r
  | acceptFirst patterns counts text save => (Reader.acceptFirst patterns counts text save).after r
  | queueGroup group save => (Reader.queueGroup group save).after r
  | fetchGroup group => (Reader.fetchGroup group).after r
  | popCapture => Reader.popCapture.after r
  | drainQueue => Reader.drainQueue.after r
  | clearQueue => Reader.clearQueue.after r
  | blockComment keep => (Reader.blockComment keep).after r
  | lineComment keep => (Reader.lineComment keep).after r
  | skip t => t.skip.after r
  | close => r.close
  | breakStream message => r.breakStream message

def LeavesText : Operation → Prop
  | replace .. | close | breakStream _ => False
  | _ => True

end Operation

inductive Reply
  | done
  | char (c? : Option Char)
  | truth (b : Bool)
  | number (n : Nat)
  | text (t : Text)
  | group (text? : Option Text)
  | span (span? : Option Pattern.Span)
  | capture (c : Capture)
  | captures (cs : List Capture)
  | fragments (found : List Fragment)
  | location (l : Location)

namespace Operation

def run : Operation → Op Reply
  | next => .char <$> Reader.next
  | accept n => (fun _ => .done) <$> Reader.accept n
  | acceptText t => .truth <$> Reader.acceptText t
  | cacheRemainder => .text <$> Reader.cacheRemainder
  | remainder => .text <$> Reader.remainder
  | take limit => .text <$> Reader.take limit
  | replace span text => (fun _ => .done) <$> Reader.replace span text
  | matchPattern p text => .truth <$> Reader.matchPattern p text
  | acceptFirst patterns counts text save =>
    .truth <$> Reader.acceptFirst patterns counts text save
  | queueGroup group save => (fun _ => .done) <$> Reader.queueGroup group save
  | fetchGroup group => .group <$> Reader.fetchGroup group
  | popCapture => .capture <$> Reader.popCapture
  | drainQueue => .captures <$> Reader.drainQueue
  | clearQueue => (fun _ => .done) <$> Reader.clearQueue
  | blockComment keep => .group <$> Reader.blockComment keep
  | lineComment keep => .group <$> Reader.lineComment keep
  | skip t => .fragments <$> t.skip
  | close => (fun _ => .done) <$> (modify Reader.close : Op Unit)
  | breakStream message => (fun _ => .done) <$> (modify (Reader.breakStream message) : Op Unit)

theorem after_run (o : Operation) (r : Reader) : o.run.after r = o.after r := by
  cases o <;> exact Op.after_map _ _ r

end Operation

inductive Question
  | lookAhead (n : Int)
  | substring (n : Int)
  | isEndOfLine
  | ended
  | lineNumber
  | column
  | location
  | file
  | queue
  | groupText (group : Int)
  | groupCount
  | groupSpan (group : Int)

def Question.ask (r : Reader) : Question → Except Fault Reply
  | lookAhead n => .char <$> r.lookAhead n
  | substring n => .text <$> r.substring n
  | isEndOfLine => .truth <$> r.isEndOfLine
  | ended => .ok (.truth r.ended)
  | lineNumber => .ok (.number r.lineNumber)
  | column => .ok (.number r.column)
  | location => .ok (.location r.location)
  | file => .ok (.text r.file)
  | queue => .ok (.captures r.queue)
  | groupText group => .group <$> r.groupText group
  | groupCount => .ok (.number r.groupCount)
  | groupSpan group => .span <$> r.groupSpan group

/-- Anything that is done with a reader. -/
inductive Demand
  | act (o : Operation)
  | ask (q : Question)

namespace Demand

def run : Demand → Op Reply
  | act o => o.run
  | ask q => Op.observe fun r => q.ask r

theorem after_act (o : Operation) (r : Reader) : (act o).run.after r = o.after r := o.after_run r

theorem after_ask (q : Question) (r : Reader) : (ask q).run.after r = r := Op.after_observe _ r

def after (ds : List Demand) (r : Reader) : Reader := ds.foldl (fun r d => d.run.after r) r

def replies : List Demand → Reader → List (Except Fault Reply)
  | [], _ => []
  | d :: ds, r => d.run.outcome r :: replies ds (d.run.after r)

end Demand

theorem Coupling.run {R : Reader → Reader → Prop} (hR : Coupling R) {o : Operation}
    (ho : o.LeavesText) : Op.Respects R o.run := by
  cases o with
  | next => exact hR.next.map _
  | accept n => exact (hR.accept n).map _
  | acceptText t => exact (hR.acceptText t).map _
  | cacheRemainder => exact hR.cacheRemainder.map _
  | remainder => exact hR.remainder.map _
  | take limit => exact (hR.take limit).map _
  | replace span text => exact ho.elim
  | matchPattern p text => exact (hR.matchPattern p text).map _
  | acceptFirst patterns counts text save =>
    exact (hR.acceptFirst patterns counts text save).map _
  | queueGroup group save => exact (hR.queueGroup group save).map _
  | fetchGroup group => exact (hR.fetchGroup group).map _
  | popCapture => exact hR.popCapture.map _
  | drainQueue => exact hR.drainQueue.map _
  | clearQueue => exact hR.clearQueue.map _
  | blockComment keep => exact (hR.blockComment keep).map _
  | lineComment keep => exact (hR.lineComment keep).map _
  | skip t => exact (hR.skip t).map _
  | close => exact ho.elim
  | breakStream message => exact ho.elim

/-- The states that sessions of allowed operations lead to. -/
inductive Reached (allowed : Operation → Prop) (start : Reader) : Reader → Prop
  | start : Reached allowed start start
  | step {r : Reader} (h : Reached allowed start r) (o : Operation) (ho : allowed o) :
      Reached allowed start (o.after r)

structure Stable (I : Reader → Prop) : Prop where
  next : Op.Preserves I Reader.next
  accept : ∀ n, Op.Preserves I (Reader.accept n)
  remembering : ∀ r, I r → I { r with cachedRemainder := some r.restOfLine }
  matching : ∀ r lastMatch, I r → I { r with lastMatch }
  queueing : ∀ r queue, I r → I { r with queue }

namespace Stable

variable {I : Reader → Prop} (hI : Stable I)

include hI

theorem coupling : Coupling fun r s => r = s ∧ I r where
  eq_with := by
    rintro r _ ⟨rfl, -⟩
    exact ⟨r.cachedRemainder, r.stream, r.notes, rfl⟩
  next := Op.preserves_iff_respects.1 hI.next
  accept n := Op.preserves_iff_respects.1 (hI.accept n)
  cacheRemainder := Op.preserves_iff_respects.1 hI.remembering
  remainder := by
    apply Op.preserves_iff_respects.1
    intro r h
    unfold Op.after Reader.remainder
    cases r.cachedRemainder with
    | some s => exact h
    | none => exact hI.remembering r h
  matching := by
    rintro r _ lastMatch ⟨rfl, h⟩
    exact ⟨rfl, hI.matching r lastMatch h⟩
  queueing := by
    rintro r _ queue ⟨rfl, h⟩
    exact ⟨rfl, hI.queueing r queue h⟩

theorem after {o : Operation} (ho : o.LeavesText) {r : Reader} (h : I r) : I (o.after r) := by
  rw [← o.after_run]
  exact Op.preserves_iff_respects.2 (hI.coupling.run ho) r h

theorem demand (hclose : ∀ r, I r → I r.close) (hbreak : ∀ r message, I r → I (r.breakStream message))
    {d : Demand} {r : Reader} (hreplace : ∀ span text, d = .act (.replace span text) →
      I ((Reader.replace span text).after r)) (h : I r) : I (d.run.after r) := by
  cases d with
  | ask q => rwa [Demand.after_ask]
  | act o =>
    rw [Demand.after_act]
    by_cases ho : o.LeavesText
    · exact hI.after ho h
    · cases o with
      | replace span text => exact hreplace span text rfl
      | close => exact hclose r h
      | breakStream message => exact hbreak r message h
      | _ => exact absurd trivial ho

theorem demand_apart (hapart : ∀ r stream notes, I r → I { r with stream, notes }) {d : Demand}
    {r : Reader} (hreplace : ∀ span text, d = .act (.replace span text) →
      I ((Reader.replace span text).after r)) (h : I r) : I (d.run.after r) := by
  refine hI.demand (fun r h => ?_) (fun r message h => hapart r _ r.notes h) hreplace h
  unfold Reader.close
  split
  · exact hapart r none _ h
  · exact h

theorem of_reached {start r : Reader} (h : Reached Operation.LeavesText start r) (hstart : I start) :
    I r := by
  induction h with
  | start => exact hstart
  | step _ o ho ih => exact hI.after ho ih

end Stable

namespace Reader

/-- Somewhere in the text of a file. -/
def Inside (file text : Text) (config : Config) (r : Reader) : Prop :=
  ∃ before u, before ++ u = text ∧ At before u r ∧ r.file = file ∧ r.config = config

theorem Inside.moved {file text before u : Text} {config : Config} {r s : Reader}
    (h : Inside file text config r) (hkeeps : Keeps r s) (htext : before ++ u = text)
    (hplace : At before u s) : Inside file text config s := by
  obtain ⟨_, _, -, -, hfile, hconfig⟩ := h
  exact ⟨before, u, htext, hplace, hkeeps.file.trans hfile, hkeeps.config.trans hconfig⟩

theorem stable_inside (file text : Text) (config : Config) : Stable (Inside file text config) where
  next := by
    intro r h
    obtain ⟨before, u, htext, hplace, -, -⟩ := id h
    cases u with
    | nil =>
      have hended : r.ended = true := by simp [hplace.ended]
      rwa [Op.after_of_ok (next_of_ended hended)]
    | cons c u =>
      obtain ⟨s, hs, hplace', hkeeps⟩ := hplace.next
      rw [Op.after_of_ok hs]
      exact h.moved hkeeps (by simpa using htext) hplace'
  accept := by
    intro n r h
    obtain ⟨before, u, htext, hplace, -, -⟩ := id h
    obtain ⟨s, hs, hplace', hkeeps⟩ := hplace.accept n
    rw [Op.after_of_ok hs]
    refine h.moved hkeeps ?_ hplace'
    rw [List.append_assoc, List.take_append_drop, htext]
  remembering := by
    intro r h
    obtain ⟨before, u, htext, hplace, -, -⟩ := id h
    obtain ⟨s, hs, hplace', hkeeps⟩ := hplace.cacheRemainder
    obtain rfl : { r with cachedRemainder := some r.restOfLine } = s := Op.after_of_ok hs
    exact h.moved hkeeps htext hplace'
  matching := by
    rintro r m ⟨before, u, htext, hplace, hfile, hconfig⟩
    exact ⟨before, u, htext, hplace.withMatch m, hfile, hconfig⟩
  queueing := by
    rintro r queue ⟨before, u, htext, hplace, hfile, hconfig⟩
    exact ⟨before, u, htext, hplace.withQueue queue, hfile, hconfig⟩

theorem inside_of_reached {fs : FileSystem} {file source : Text} {config : Config}
    {start r : Reader} (h : DecodesTo fs file config source)
    (hopen : ofFile fs file config = .ok start) (hr : Reached Operation.LeavesText start r) :
    Inside file (Input.withFinalNewline source) config r := by
  obtain ⟨start', hopen', hplace, hfile, hconfig, -, -⟩ := ofFile_of_decodesTo h
  obtain rfl : start = start' := Except.ok.inj (hopen.symm.trans hopen')
  exact (stable_inside file _ config).of_reached hr ⟨[], _, rfl, hplace, hfile, hconfig⟩

end Reader
end LineLexer
