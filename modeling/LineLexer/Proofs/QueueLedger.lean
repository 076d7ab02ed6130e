import LineLexer.Proofs.Looking
import LineLexer.Proofs.MatchTaking

/-!
# What is queued is taken off in order

Matches and saved groups go to the end of a queue. From its front they are handed out one by one or
all at once, or everything in it is dropped, which is also what every lexical error does. Whatever
else fails, wherever the cursor goes and however lines are edited, the queue stays as it is.
-/

namespace LineLexer

def Fault.IsLexical : Fault → Prop
  | lexical .. => True
  | _ => False

theorem Fault.OfUse.notLexical {fault : Fault} (h : fault.OfUse) : ¬fault.IsLexical := by
  cases fault <;> first | exact id | exact h.elim

theorem Fault.OfReading.notLexical {fault : Fault} (h : fault.OfReading) : ¬fault.IsLexical := by
  cases fault <;> first | exact id | exact h.elim

namespace Reader

open Op (EndsIn)

structure Leaves (queue : List Capture) (fault : Fault) (r : Reader) : Prop where
  lexical : fault.IsLexical → r.queue = []
  other : ¬fault.IsLexical → r.queue = queue

abbrev Settles {α : Type} (queue : List Capture) (x : EStateM.Result Fault Reader α) : Prop :=
  EndsIn (·.queue = queue) (Leaves queue) x

section Steps

variable {r s : Reader} {queue : List Capture}

theorem ofReading_of_nextLine {fault : Fault} (h : nextLine r = .error fault s) : fault.OfReading := by
  unfold nextLine at h
  split at h
  · cases h
  · rename_i told t hload
    rcases fault_of_loadLine hload with rfl | ⟨cause, rfl⟩
    · cases h
      trivial
    · simp only [report] at h
      split at h
      · cases h
        trivial
      · cases h
        trivial

theorem Leaves.of_other {fault : Fault} (hother : ¬fault.IsLexical) (h : r.queue = queue) :
    Leaves queue fault r := ⟨fun hlexical => absurd hlexical hother, fun _ => h⟩

theorem settles_nextLine (hended : r.ended = false) (h : r.queue = queue) :
    Settles queue (nextLine r) := by
  have hkeeps := keeps_nextLine hended
  cases hrun : nextLine r with
  | ok _ s =>
    rw [Op.after_of_ok hrun] at hkeeps
    exact .ok () (hkeeps.queue.trans h)
  | error fault s =>
    rw [Op.after_of_error hrun] at hkeeps
    exact .error fault (.of_other (ofReading_of_nextLine hrun).notLexical (hkeeps.queue.trans h))

theorem steps_queue (queue : List Capture) : Steps (·.queue = queue) (Leaves queue) where
  moving :=
    { inLine := fun _ _ _ _ h => h
      onward := fun _ hended _ h => settles_nextLine hended h
      nowhere := fun _ _ _ h => .of_other id h }
  remembering _ _ h := h
  matching _ _ h := h
  failing _ _ _ _ := ⟨fun _ => rfl, fun hother => absurd trivial hother⟩

theorem blames_queue (queue : List Capture) : Op.Blames (·.queue = queue) (Leaves queue) :=
  fun _ _ huse h => .of_other huse.notLexical h

end Steps

def captures (r : Reader) (patterns : List Pattern.Source) (text : Option Text) : List Capture :=
  match firstMatch (text.getD r.restOfLine) patterns with
  | .ok (some m) => m.kept.map (groupCapture r.location m.text)
  | _ => []

def saved (r : Reader) (group : Int) : List Capture :=
  match r.lastMatch.bind (·.groupText? group) with
  | some text? => [⟨r.location, text?⟩]
  | none => []

section Queueing

variable {r : Reader}

theorem settles_takeMatch {m : Match} (hm : r.lastMatch = some m) (counts : Option (List Int))
    (save : Bool) :
    Settles (r.queue ++ if save then m.kept.map (groupCapture r.location m.text) else [])
      (takeMatch counts save r) := by
  rw [takeMatch_eq hm]
  refine EndsIn.bind ((steps_queue _).checkCount m counts _ ?_) fun _ => (steps_queue _).acceptMatch
  rfl

theorem settles_acceptFirst (h : r.Fresh) (patterns : List Pattern.Source)
    (counts : Option (List Int)) (text : Option Text) (save : Bool) :
    Settles (r.queue ++ if save then r.captures patterns text else [])
      (acceptFirst patterns counts text save r) := by
  obtain ⟨cachedRemainder, lastMatch, -, hlast, hrun⟩ := matchFirst_of_fresh h patterns text
  unfold captures
  cases hfirst : firstMatch (text.getD r.restOfLine) patterns with
  | error fault =>
    rw [hfirst] at hrun
    rw [acceptFirst, Op.bind_of_error hrun]
    obtain ⟨f, rfl⟩ := firstMatch_eq_error hfirst
    exact .error _ (.of_other id (by simp))
  | ok found =>
    rw [hfirst] at hlast hrun
    rw [acceptFirst, Op.bind_of_ok hrun]
    cases found with
    | none => exact .ok false (by simp)
    | some m =>
      obtain rfl := hlast m rfl
      exact (settles_takeMatch (r := { r with cachedRemainder, lastMatch := some m }) rfl counts
        save).bind fun _ => Op.ends_pure true

inductive SavesGroup {α : Type} (r : Reader) (group : Int) : EStateM.Result Fault Reader α → Prop
  | saved (a : α) : SavesGroup r group (.ok a { r with queue := r.queue ++ r.saved group })
  | refused (fault : Fault) (huse : fault.OfUse) (hnone : r.saved group = []) :
      SavesGroup r group (.error fault r)

theorem savesGroup_queueGroup (r : Reader) (group : Int) :
    SavesGroup r group (queueGroup group true r) := by
  cases hlast : r.lastMatch with
  | none =>
    rw [queueGroup_of_none hlast]
    exact .refused _ trivial (by simp [saved, hlast])
  | some m =>
    rw [queueGroup_of_some hlast]
    cases hgroup : m.groupText? group with
    | none => exact .refused _ trivial (by simp [saved, hlast, hgroup])
    | some text? =>
      have hsaved : r.saved group = [⟨r.location, text?⟩] := by simp [saved, hlast, hgroup]
      show SavesGroup r group (.ok () { r with queue := r.queue ++ [⟨r.location, text?⟩] })
      rw [← hsaved]
      exact .saved ()

theorem saved_of_lt {group : Int} (h : (r.groupCount : Int) < group) : r.saved group = [] := by
  cases hlast : r.lastMatch with
  | none => simp [saved, hlast]
  | some m =>
    have hcount : (m.groups.length : Int) < group := by simpa [groupCount, hlast] using h
    have hbeyond : m.groups[group.toNat - 1]? = none := List.getElem?_eq_none (by omega)
    have hnone : m.groupText? group = none := by
      rw [Match.groupText?, Match.span?, if_neg (by omega), if_neg (by omega), hbeyond]
      rfl
    simp [saved, hlast, hnone]

theorem saved_of_groupText {group : Int} {fault : Fault} (h : r.groupText group = .error fault) :
    r.saved group = [] := by
  cases hlast : r.lastMatch with
  | none => simp [saved, hlast]
  | some m =>
    cases hgroup : m.groupText? group with
    | none => simp [saved, hlast, hgroup]
    | some text? => simp [groupText, hlast, hgroup] at h

theorem SavesGroup.bind_pure {α β : Type} {x : Op α} {group : Int} (h : SavesGroup r group (x r))
    (b : β) : SavesGroup r group ((x >>= fun _ => pure b : Op β) r) := by
  generalize hrun : x r = y at h
  cases h with
  | saved a =>
    rw [Op.bind_of_ok hrun]
    exact .saved b
  | refused fault huse hnone =>
    rw [Op.bind_of_error hrun]
    exact .refused fault huse hnone

theorem SavesGroup.map {α β : Type} {x : Op α} {group : Int} (h : SavesGroup r group (x r))
    (f : α → β) : SavesGroup r group ((f <$> x) r) := by
  show SavesGroup r group (EStateM.map f x r)
  unfold EStateM.map
  generalize x r = y at h
  cases h with
  | saved a => exact .saved (f a)
  | refused fault huse hnone => exact .refused fault huse hnone

theorem SavesGroup.eq_of_error {α : Type} {group : Int} {fault : Fault} {s : Reader}
    (h : SavesGroup r group (.error fault s : EStateM.Result Fault Reader α)) : s = r := by
  cases h
  rfl

theorem savesGroup_fetchGroup (r : Reader) (group : Int) :
    SavesGroup r group (fetchGroup group r) := by
  unfold fetchGroup
  rw [Op.get_bind]
  split
  · rename_i hbeyond
    exact .refused _ trivial (saved_of_lt hbeyond)
  · show SavesGroup r group ((Op.observe (groupText group) >>= fun text =>
      queueGroup group true >>= fun _ => pure text : Op (Option Text)) r)
    cases htext : r.groupText group with
    | error fault =>
      have hasked : Op.observe (groupText group) r = .error fault r := by simp [Op.observe, htext]
      rw [Op.bind_of_error hasked]
      exact .refused fault (failsAside_groupText group fault htext) (saved_of_groupText htext)
    | ok text? =>
      rw [Op.bind_of_ok (observe_of_ok htext)]
      exact (savesGroup_queueGroup r group).bind_pure text?

theorem SavesGroup.settles {α : Type} {x : EStateM.Result Fault Reader α} {group : Int}
    (h : SavesGroup r group x) : Settles (r.queue ++ r.saved group) x := by
  cases h with
  | saved a => exact .ok a rfl
  | refused fault huse hnone => exact .error fault (.of_other huse.notLexical (by simp [hnone]))

theorem settles_replace (span : List Int) (text : Text) :
    Settles r.queue (replace span text r) := by
  unfold replace
  split
  · split
    · rw [edit_eq]
      exact .ok () rfl
    · exact .error _ (.of_other id rfl)
  · exact .error _ (.of_other id rfl)

end Queueing

end Reader

namespace Demand

/-- What a demand puts at the end of the queue, whatever becomes of it then. -/
def queued (r : Reader) : Demand → List Capture
  | act (.acceptFirst patterns _ text true) => r.captures patterns text
  | act (.queueGroup group true) | act (.fetchGroup group) => r.saved group
  | _ => []

def handedOut : Except Fault Reply → List Capture
  | .ok (.capture c) => [c]
  | .ok (.captures cs) => cs
  | _ => []

def lost (queue : List Capture) : Except Fault Reply → List Capture
  | .error (.lexical ..) => queue
  | _ => []

/-- What a demand takes off the front of the queue: what it hands out, what it drops, or all that
is lost to a lexical error. -/
def removed (r : Reader) (d : Demand) : List Capture :=
  match d with
  | act .popCapture | act .drainQueue => handedOut (d.run.outcome r)
  | act .clearQueue => r.queue
  | _ => lost (r.queue ++ d.queued r) (d.run.outcome r)

def TakesOff : Demand → Prop
  | act .popCapture | act .drainQueue | act .clearQueue => True
  | _ => False

theorem removed_eq_lost {d : Demand} (hd : ¬d.TakesOff) (r : Reader) :
    d.removed r = lost (r.queue ++ d.queued r) (d.run.outcome r) := by
  unfold removed
  split
  · exact absurd trivial hd
  · exact absurd trivial hd
  · exact absurd trivial hd
  · rfl

open Reader (Settles)

theorem settles {r : Reader} (hfresh : r.Fresh) {d : Demand} (hd : ¬d.TakesOff) :
    Settles (r.queue ++ d.queued r) (d.run r) := by
  cases d with
  | ask q =>
    have hasks := (Reader.blames_queue r.queue).asks fun r => Reader.failsAside_ask (r := r) q
    simp only [queued, List.append_nil]
    exact hasks.ends_observe r rfl
  | act o =>
    show Settles (r.queue ++ (act o).queued r) (o.run r)
    cases o with
    | acceptFirst patterns counts text save =>
      have hends := (Reader.settles_acceptFirst hfresh patterns counts text save).map Reply.truth
      cases save <;> exact hends
    | queueGroup group save =>
      cases save with
      | true => exact (Reader.savesGroup_queueGroup r group).settles.map _
      | false => exact .ok _ (List.append_nil r.queue).symm
    | fetchGroup group => exact (Reader.savesGroup_fetchGroup r group).settles.map _
    | popCapture | drainQueue | clearQueue => exact absurd trivial hd
    | replace span text =>
      simp only [queued, List.append_nil]
      exact (Reader.settles_replace span text).map _
    | close =>
      simp only [queued, List.append_nil]
      exact .ok _ (Reader.keeps_close r).queue
    | breakStream message => exact .ok _ (List.append_nil r.queue).symm
    | _ =>
      simp only [queued, List.append_nil]
      refine (Reader.steps_queue r.queue).run (Reader.blames_queue r.queue) ?_ ?_ r rfl
      · trivial
      · trivial

def SavesOrPops : Demand → Prop
  | act (.queueGroup ..) | act (.fetchGroup _) | act .popCapture => True
  | _ => False

theorem run_popCapture (r : Reader) : Operation.popCapture.run r = match r.queue with
    | [] => .error .emptyQueue r
    | c :: queue => .ok (.capture c) { r with queue } := by
  show EStateM.map Reply.capture Reader.popCapture r = _
  unfold EStateM.map Reader.popCapture
  cases r.queue <;> rfl

theorem eq_of_refused {r s : Reader} {d : Demand} (hd : d.SavesOrPops) {fault : Fault}
    (h : d.run r = .error fault s) : s = r := by
  cases d with
  | ask q => exact hd.elim
  | act o =>
    have hrun : o.run r = .error fault s := h
    cases o with
    | queueGroup group save =>
      cases save with
      | false => cases hrun
      | true =>
        have hsaves : r.SavesGroup group ((Operation.queueGroup group true).run r) :=
          (Reader.savesGroup_queueGroup r group).map _
        rw [hrun] at hsaves
        exact hsaves.eq_of_error
    | fetchGroup group =>
      have hsaves : r.SavesGroup group ((Operation.fetchGroup group).run r) :=
        (Reader.savesGroup_fetchGroup r group).map _
      rw [hrun] at hsaves
      exact hsaves.eq_of_error
    | popCapture =>
      rw [run_popCapture] at hrun
      cases hqueue : r.queue with
      | nil =>
        rw [hqueue] at hrun
        cases hrun
        rfl
      | cons c queue =>
        rw [hqueue] at hrun
        cases hrun
    | _ => exact hd.elim

/-- What a demand does to the queue, and that one which is refused does nothing to it. -/
structure Accounts (r : Reader) (d : Demand) : Prop where
  conserved : r.queue ++ d.queued r = d.removed r ++ (d.run.after r).queue
  lexical : ∀ kind location doing, d.run.outcome r = .error (.lexical kind location doing) →
    (d.run.after r).queue = []
  failing : ∀ fault, d.run.outcome r = .error fault → ¬fault.IsLexical →
    (d.run.after r).queue = r.queue ++ d.queued r
  refused : ∀ fault, d.run.outcome r = .error fault → d.SavesOrPops →
    (d.run.after r).queue = r.queue

theorem accounts_of_ok {r s : Reader} {d : Demand} {a : Reply} (hrun : d.run r = .ok a s)
    (hconserved : r.queue ++ d.queued r = d.removed r ++ s.queue) : Accounts r d := by
  have houtcome : d.run.outcome r = .ok a := by rw [Op.outcome, hrun]
  have hafter : d.run.after r = s := Op.after_of_ok hrun
  refine ⟨by rw [hafter, hconserved], ?_, ?_, ?_⟩
  · intro kind location doing hfails
    rw [houtcome] at hfails
    cases hfails
  · intro fault hfails
    rw [houtcome] at hfails
    cases hfails
  · intro fault hfails
    rw [houtcome] at hfails
    cases hfails

theorem lost_of_lexical {queue : List Capture} {fault : Fault} (h : fault.IsLexical) :
    lost queue (.error fault) = queue := by
  cases fault <;> first | rfl | exact h.elim

theorem lost_of_other {queue : List Capture} {fault : Fault} (h : ¬fault.IsLexical) :
    lost queue (.error fault) = [] := by
  cases fault <;> first | rfl | exact absurd trivial h

theorem accounts_of_error {r s : Reader} {d : Demand} {fault : Fault} (hrun : d.run r = .error fault s)
    (hleaves : Reader.Leaves (r.queue ++ d.queued r) fault s)
    (hremoved : d.removed r = lost (r.queue ++ d.queued r) (.error fault)) : Accounts r d := by
  have houtcome : d.run.outcome r = .error fault := by rw [Op.outcome, hrun]
  have hafter : d.run.after r = s := Op.after_of_error hrun
  refine ⟨?_, ?_, ?_, ?_⟩
  · rw [hafter, hremoved]
    by_cases hlexical : fault.IsLexical
    · rw [lost_of_lexical hlexical, hleaves.lexical hlexical, List.append_nil]
    · rw [lost_of_other hlexical, hleaves.other hlexical, List.nil_append]
  · intro kind location doing hfails
    rw [houtcome] at hfails
    cases hfails
    rw [hafter, hleaves.lexical trivial]
  · intro _ hfails hother
    rw [houtcome] at hfails
    cases hfails
    rw [hafter, hleaves.other hother]
  · intro _ _ hsaves
    rw [hafter, eq_of_refused hsaves hrun]

theorem accounts_popCapture (r : Reader) : Accounts r (act .popCapture) := by
  have hrun := run_popCapture r
  cases hqueue : r.queue with
  | nil =>
    rw [hqueue] at hrun
    have houtcome : (act .popCapture).run.outcome r = .error .emptyQueue := by
      show Op.outcome Operation.popCapture.run r = _
      rw [Op.outcome, hrun]
    refine accounts_of_error hrun (.of_other id (List.append_nil r.queue).symm) ?_
    simp only [removed, houtcome]
    rfl
  | cons c queue =>
    rw [hqueue] at hrun
    have houtcome : (act .popCapture).run.outcome r = .ok (.capture c) := by
      show Op.outcome Operation.popCapture.run r = _
      rw [Op.outcome, hrun]
    refine accounts_of_ok hrun ?_
    simp only [removed, houtcome, hqueue]
    exact List.append_nil _

theorem accounts {r : Reader} (hfresh : r.Fresh) (d : Demand) : Accounts r d := by
  by_cases hd : d.TakesOff
  · cases d with
    | ask q => exact hd.elim
    | act o =>
      cases o with
      | popCapture => exact accounts_popCapture r
      | drainQueue | clearQueue => exact accounts_of_ok rfl rfl
      | _ => exact hd.elim
  · have hsettles := settles hfresh hd
    have hremoved := removed_eq_lost hd r
    generalize hrun : d.run r = x at hsettles
    cases hsettles with
    | ok a h =>
      refine accounts_of_ok hrun ?_
      rw [hremoved, Op.outcome, hrun, h]
      rfl
    | error fault h =>
      refine accounts_of_error hrun h ?_
      rw [hremoved, Op.outcome, hrun]

def queuedBy : List Demand → Reader → List Capture
  | [], _ => []
  | d :: ds, r => d.queued r ++ queuedBy ds (d.run.after r)

def removedBy : List Demand → Reader → List Capture
  | [], _ => []
  | d :: ds, r => d.removed r ++ removedBy ds (d.run.after r)

theorem conserved {r : Reader} (hfresh : r.Fresh) (ds : List Demand) :
    r.queue ++ queuedBy ds r = removedBy ds r ++ (after ds r).queue := by
  induction ds generalizing r with
  | nil => exact List.append_nil r.queue
  | cons d ds ih =>
    have hstep := (accounts hfresh d).conserved
    have hrest := ih (r := d.run.after r) (fresh_after [d] hfresh)
    calc r.queue ++ (d.queued r ++ queuedBy ds (d.run.after r))
        = d.removed r ++ ((d.run.after r).queue ++ queuedBy ds (d.run.after r)) := by
          rw [← List.append_assoc, hstep, List.append_assoc]
      _ = (d.removed r ++ removedBy ds (d.run.after r)) ++ (after ds (d.run.after r)).queue := by
          rw [hrest, List.append_assoc]

end Demand

namespace Reader

open Demand (Accounts after queuedBy removedBy)

/-- All that was ever queued is, in this order, what has been taken off and what is still queued. -/
theorem accounts_ofFile {fs : FileSystem} {file : Text} {config : Config} {start : Reader}
    (h : ofFile fs file config = .ok start) (ds : List Demand) :
    queuedBy ds start = removedBy ds start ++ (after ds start).queue ∧
      ∀ d, Accounts (after ds start) d := by
  have hfresh := fresh_of_none (cachedRemainder_ofFile h)
  have hempty : start.queue = [] := (keeps_ofFile h).queue
  refine ⟨?_, Demand.accounts (Demand.fresh_after ds hfresh)⟩
  rw [← Demand.conserved hfresh ds, hempty, List.nil_append]

theorem accounts_ofFile_wrongCount :
    let ds : List Demand := [.act (.acceptFirst [.written "(a)(b)".toList] none none true), .act .next,
      .act .popCapture, .act (.acceptFirst [.written "(c)".toList] none none true),
      .act (.queueGroup 7 true), .act (.acceptFirst [.written "(d)".toList] (some [2]) none true),
      .act (.fetchGroup 1)]
    ∃ start, ofFile (({} : FileSystem).addFile ['f'] [0x61, 0x62, 0x0A, 0x63, 0x64]) ['f'] {} =
        .ok start ∧
      removedBy ds start = [⟨⟨['f'], 1, 1⟩, some ['a']⟩, ⟨⟨['f'], 1, 2⟩, some ['b']⟩,
        ⟨⟨['f'], 2, 1⟩, some ['c']⟩, ⟨⟨['f'], 2, 2⟩, some ['d']⟩] ∧
      (after ds start).queue = [⟨⟨['f'], 2, 3⟩, some ['d']⟩] ∧
      queuedBy ds start = removedBy ds start ++ (after ds start).queue := by
  intro ds
  obtain ⟨start, hopen, hremoved, hqueue⟩ : ∃ start,
      ofFile (({} : FileSystem).addFile ['f'] [0x61, 0x62, 0x0A, 0x63, 0x64]) ['f'] {} = .ok start ∧
      removedBy ds start = [⟨⟨['f'], 1, 1⟩, some ['a']⟩, ⟨⟨['f'], 1, 2⟩, some ['b']⟩,
        ⟨⟨['f'], 2, 1⟩, some ['c']⟩, ⟨⟨['f'], 2, 2⟩, some ['d']⟩] ∧
      (after ds start).queue = [⟨⟨['f'], 2, 3⟩, some ['d']⟩] := ⟨_, by cbv, by cbv, by cbv⟩
  exact ⟨start, hopen, hremoved, hqueue, (accounts_ofFile hopen ds).1⟩

end Reader
end LineLexer
