import LineLexer.Proofs.Endings
import Mathlib

/-!
# Where the results of a scan are placed

Fragments are found in the file that is scanned, and lexical errors tell a place in it. So it is
with whatever is queued on the way: captures stand where the reader has stood.
-/

namespace LineLexer

namespace Op

variable {α β : Type} {I : Reader → Prop} {P : α → Prop} {E : Fault → Prop}

/-- From the states of one kind an operation comes to such states again, with what is wanted of its
result, or it fails in a way that is allowed. -/
def Comes (I : Reader → Prop) (P : α → Prop) (E : Fault → Prop) (x : Op α) : Prop :=
  ∀ r, I r → match x r with
    | .ok a s => I s ∧ P a
    | .error fault _ => E fault

theorem comes_pure {a : α} (h : P a) : Comes I P E (pure a : Op α) := fun _ hr => ⟨hr, h⟩

theorem Ends.comes {x : Op α} (hx : Ends I (fun fault _ => E fault) x) :
    Comes I (fun _ => True) E x := by
  intro r hr
  have hends := hx r hr
  generalize x r = y at hends
  cases hends with
  | ok a hs => exact ⟨hs, trivial⟩
  | error fault hfault => exact hfault

theorem Comes.bind {Q : β → Prop} {x : Op α} {f : α → Op β} (hx : Comes I P E x)
    (hf : ∀ a, P a → Comes I Q E (f a)) : Comes I Q E (x >>= f) := by
  intro r hr
  have hx := hx r hr
  cases hrun : x r with
  | ok a s =>
    rw [hrun] at hx
    rw [bind_of_ok hrun]
    exact hf a hx.2 s hx.1
  | error fault s =>
    rw [hrun] at hx
    rw [bind_of_error hrun]
    exact hx

theorem comes_get_bind {f : Reader → Op α} (hf : ∀ r, I r → Comes I P E (f r)) :
    Comes I P E (get >>= f) := fun r hr => hf r hr r hr

theorem comes_loop {Q : β → Prop} {turn : β → Op (β ⊕ α)}
    {shrinks : ∀ b r b' r', turn b r = .ok (.inl b') r' → r'.unread < r.unread}
    (hturn : ∀ b, Q b → Comes I (Sum.elim Q P) E (turn b)) {b : β} (hb : Q b) :
    Comes I P E (loop turn shrinks b) := by
  intro r hr
  induction hn : r.unread using Nat.strongRecOn generalizing b r with
  | _ n ih =>
    subst hn
    have hcomes := hturn b hb r hr
    cases hrun : turn b r with
    | error fault s =>
      rw [hrun] at hcomes
      rw [loop_of_error hrun]
      exact hcomes
    | ok x s =>
      rw [hrun] at hcomes
      cases x with
      | inr a =>
        rw [loop_of_inr hrun]
        exact hcomes
      | inl b' =>
        rw [loop_of_inl hrun]
        exact ih _ (shrinks _ _ _ _ hrun) hcomes.2 s hcomes.1 rfl

end Op

/-- A lexical error is placed in this file, and what a read fails with as it is was not one of the
failures that are reported. -/
def Fault.Placed (file : Text) : Fault → Prop
  | lexical _ location _ => location.file = file
  | input cause => cause.isReported = false
  | _ => True

def Fragment.AllIn (file : Text) (found : List Fragment) : Prop := ∀ f ∈ found, f.location.file = file

namespace Reader

open Op (Ends EndsIn)

structure ReadsFrom (file : Text) (r : Reader) : Prop where
  queue : ∀ c ∈ r.queue, c.location.file = file
  file : r.file = file

variable {file : Text} {r : Reader}

theorem ReadsFrom.of_keeps {s : Reader} (hkeeps : Keeps r s) (h : ReadsFrom file r) :
    ReadsFrom file s := by
  refine ⟨?_, hkeeps.file.trans h.file⟩
  rw [hkeeps.queue]
  exact h.queue

theorem placed_of_nextLine {fault : Fault} {s : Reader} (h : nextLine r = .error fault s) :
    fault.Placed file := by
  unfold nextLine at h
  split at h
  · cases h
  · rename_i told t hload
    rcases fault_of_loadLine hload with rfl | ⟨cause, rfl⟩
    · cases h
      trivial
    · simp only [report] at h
      split at h
      · cases h
        trivial
      · rename_i hreported
        cases h
        exact eq_false_of_ne_true hreported

theorem steps_readsFrom : Steps (ReadsFrom file) (fun fault _ => fault.Placed file) where
  moving :=
    { inLine := fun r n _ _ h => h.of_keeps (keeps_advance r n)
      onward := fun r hended _ h => by
        have hkeeps := keeps_nextLine (r := r.behindLine) hended
        cases hnext : nextLine r.behindLine with
        | ok _ s =>
          rw [Op.after_of_ok hnext] at hkeeps
          exact .ok _ (h.of_keeps ((keeps_advance r _).trans hkeeps))
        | error fault s => exact .error fault (placed_of_nextLine hnext)
      nowhere := fun _ _ _ _ => trivial }
  remembering _ _ h := ⟨h.queue, h.file⟩
  matching _ _ h := ⟨h.queue, h.file⟩
  failing _ _ _ h := h.file

theorem blames_readsFrom : Op.Blames (ReadsFrom file) (fun fault _ => fault.Placed file) := by
  intro fault r huse _
  cases fault <;> trivial

theorem ends_queueFragments (m : Match) (save : Bool) :
    Ends (ReadsFrom file) (fun fault _ => fault.Placed file) (queueFragments m save) := by
  intro r h
  cases save with
  | false => exact .ok () h
  | true =>
    refine .ok () ⟨fun c hc => ?_, h.file⟩
    rcases List.mem_append.1 hc with hqueued | hfound
    · exact h.queue c hqueued
    · simp only [fragmentsOf, List.map_map, List.mem_map] at hfound
      obtain ⟨span, -, rfl⟩ := hfound
      exact h.file

theorem comes_drainQueue : Op.Comes (ReadsFrom file) (fun queue => ∀ c ∈ queue, c.location.file = file)
    (Fault.Placed file) drainQueue := fun _ h => ⟨⟨List.forall_mem_nil _, h.file⟩, h.queue⟩

end Reader

open Fragment (AllIn)
open Reader (ReadsFrom steps_readsFrom blames_readsFrom)

variable {file : Text}

theorem Trivia.allIn_keep {comments : List Fragment} {start : Location} (hstart : start.file = file)
    (h : AllIn file comments) (text : Option Text) : AllIn file (keep comments start text) := by
  cases text with
  | none => exact h
  | some t => exact List.forall_mem_cons.2 ⟨hstart, h⟩

theorem Trivia.comes_skip (t : Trivia) :
    Op.Comes (ReadsFrom file) (AllIn file) (Fault.Placed file) t.skip := by
  have hE : Steps (ReadsFrom file) (fun fault _ => fault.Placed file) := steps_readsFrom
  have hB : Op.Blames (ReadsFrom file) (fun fault _ => fault.Placed file) := blames_readsFrom
  refine (Op.comes_loop (Q := AllIn file) (P := AllIn file) (fun comments hcomments => ?_)
    (List.forall_mem_nil _)).bind fun comments hcomments => Op.comes_pure ?_
  · refine Op.comes_get_bind fun start hstart => ?_
    split
    · exact Op.comes_pure hcomments
    · refine (hB.asks fun _ => Reader.failsAside_lookAhead 0).ends_observe.comes.bind fun c? _ => ?_
      split
      · exact hE.next.comes.bind fun _ _ => Op.comes_pure hcomments
      · refine (hE.acceptDelimiter (hB.sought _)).comes.bind fun opened _ => ?_
        split
        · exact (hE.blockComment (fun _ _ => hB.delimiting _) _).comes.bind fun text _ =>
            Op.comes_pure (allIn_keep hstart.file hcomments text)
        · refine (hE.acceptDelimiter (hB.sought _)).comes.bind fun marked _ => ?_
          split
          · exact (hE.lineComment (fun _ _ => hB.delimiting _) _).comes.bind fun text _ =>
              Op.comes_pure (allIn_keep hstart.file hcomments text)
          · exact Op.comes_pure hcomments
  · exact fun f hf => hcomments f (List.mem_reverse.1 hf)

namespace Scan

theorem allIn_fragmentsOf {start : Location} {queue : List Capture} (hstart : start.file = file)
    (hqueue : ∀ c ∈ queue, c.location.file = file) (m : Option Match) :
    AllIn file (fragmentsOf start queue m) := by
  have hcaptured : AllIn file (queue.filterMap Capture.fragment?) := by
    intro f hf
    obtain ⟨c, hc, hfragment⟩ := List.mem_filterMap.1 hf
    obtain ⟨text, -, rfl⟩ := Option.map_eq_some_iff.1 hfragment
    exact hqueue c hc
  unfold fragmentsOf
  split
  · split
    · exact List.forall_mem_nil _
    · exact List.forall_mem_singleton.2 hstart
  · exact hcaptured

theorem comes_matchHere (s : Scan) :
    Op.Comes (ReadsFrom file) (fun x => AllIn file x.1) (Fault.Placed file) s.matchHere := by
  refine Op.comes_get_bind fun start hstart => ?_
  refine (steps_readsFrom.acceptFirst (fun m => Reader.ends_queueFragments m true)
    (fun p _ => blames_readsFrom.asks fun _ => Reader.failsAside_resolve p) none none).comes.bind
      fun found _ => Reader.comes_drainQueue.bind fun queue hqueue => ?_
  exact Op.comes_get_bind fun after _ => Op.comes_pure (allIn_fragmentsOf hstart.file hqueue _)

theorem comes_takeOne : Op.Comes (ReadsFrom file) (AllIn file) (Fault.Placed file) takeOne := by
  refine Op.comes_get_bind fun start hstart => steps_readsFrom.next.comes.bind fun c? _ =>
    Op.comes_pure fun f hf => ?_
  obtain ⟨c, -, rfl⟩ := List.mem_map.1 hf
  exact hstart.file

theorem comes_fragments (s : Scan) :
    Op.Comes (ReadsFrom file) (AllIn file) (Fault.Placed file) s.fragments := by
  have hjoin {found done : List Fragment} (hfound : AllIn file found) (hdone : AllIn file done) :
      AllIn file (found.reverse ++ done) :=
    List.forall_mem_append.2 ⟨fun f hf => hfound f (List.mem_reverse.1 hf), hdone⟩
  refine (Op.comes_loop (Q := AllIn file) (P := AllIn file) (fun done hdone => ?_)
    (List.forall_mem_nil _)).bind fun found hfound => Op.comes_pure ?_
  · refine s.trivia.comes_skip.bind fun comments hcomments => Op.comes_get_bind fun r _ => ?_
    split
    · exact Op.comes_pure (hjoin hcomments hdone)
    · refine s.comes_matchHere.bind fun x hx => ?_
      have hfound := hjoin hx (hjoin hcomments hdone)
      obtain ⟨found, moved⟩ := x
      simp only
      split
      · exact Op.comes_pure hfound
      · exact comes_takeOne.bind fun one hone =>
          Op.comes_pure (List.forall_mem_append.2 ⟨hone, hfound⟩)
  · exact fun f hf => hfound f (List.mem_reverse.1 hf)

/-- Fragments and lexical errors of a scan are placed in the file that it is about. -/
theorem run_placed (s : Scan) (fs : FileSystem) (file : Text) :
    match (s.run fs file).result with
    | .ok found => AllIn file found
    | .error fault => fault.Placed file ∨
        ∃ failure, Reader.ofFile fs file s.config = .error failure ∧ failure.fault = fault := by
  unfold run
  cases hopened : Reader.ofFile fs file s.config with
  | error failure => exact .inr ⟨failure, rfl, rfl⟩
  | ok r =>
    have hkeeps := Reader.keeps_ofFile hopened
    have hr : ReadsFrom file r := by
      refine ⟨?_, hkeeps.file⟩
      rw [hkeeps.queue]
      exact List.forall_mem_nil _
    have hcomes := s.comes_fragments r hr
    cases hrun : s.fragments r with
    | ok found t =>
      rw [hrun] at hcomes
      simpa only [hrun] using hcomes.2
    | error fault t =>
      rw [hrun] at hcomes
      simpa only [hrun] using Or.inl hcomes

end Scan
end LineLexer
