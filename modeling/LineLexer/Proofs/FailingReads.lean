import LineLexer.Proofs.SourceRefinement
import Mathlib

/-!
# Reads that fail lose nothing

A read that fails takes nothing off its stream, and a source keeps what it has
read before. A request that meets a failing read has therefore done no more than
fill the window, and one that meets none ends as it does on a stream whose reads
never fail. Without the requests that failed a session is one with such a
stream.
-/

namespace LineLexer

namespace Input

structure Quiet (fails : Nat → Bool) (m n : Nat) : Prop where
  le : m ≤ n
  reads : ∀ i, m ≤ i → i < n → fails i = false

def Met (fails : Nat → Bool) (m n : Nat) : Prop := ∃ i, m ≤ i ∧ i < n ∧ fails i = true

section Counts

variable {fails : Nat → Bool} {l m n : Nat}

theorem Quiet.refl (fails : Nat → Bool) (n : Nat) : Quiet fails n n :=
  ⟨Nat.le_refl n, fun i _ _ => by omega⟩

theorem Quiet.trans (h : Quiet fails l m) (h' : Quiet fails m n) : Quiet fails l n := by
  refine ⟨Nat.le_trans h.le h'.le, fun i hl hn => ?_⟩
  by_cases hm : i < m
  · exact h.reads i hl hm
  · exact h'.reads i (by omega) hn

theorem Quiet.not_met (h : Quiet fails m n) : ¬Met fails m n := by
  rintro ⟨i, hm, hn, hfails⟩
  rw [h.reads i hm hn] at hfails
  cases hfails

theorem quiet_succ (h : fails n = false) : Quiet fails n (n + 1) := by
  refine ⟨Nat.le_succ n, fun i hm hn => ?_⟩
  obtain rfl : i = n := by omega
  exact h

theorem met_succ (h : fails n = true) : Met fails n (n + 1) :=
  ⟨n, Nat.le_refl n, Nat.lt_succ_self n, h⟩

theorem Quiet.met (h : Quiet fails l m) (h' : Met fails m n) : Met fails l n := by
  obtain ⟨i, hm, hn, hfails⟩ := h'
  exact ⟨i, Nat.le_trans h.le hm, hn, hfails⟩

end Counts

namespace CharStream

def steady : CharStream → CharStream
  | memory s => memory { s with fails := fun _ => false }
  | s => s

variable {fails : Nat → Bool} {message text : Text} {reads : Nat}

theorem read_of_fails (h : fails reads = true) :
    (memory ⟨text, reads, fails, message⟩).read =
      (.error (.device message), memory ⟨text, reads + 1, fails, message⟩) := by
  simp [read, MemoryStream.read, h]

theorem read_of_not_fails (h : fails reads = false) :
    (memory ⟨text, reads, fails, message⟩).read =
      (.ok text.head?, memory ⟨text.tail, reads + 1, fails, message⟩) := by
  cases text <;> simp [read, MemoryStream.read, h]

inductive ReadsOn (fails : Nat → Bool) (message text : Text) (reads : Nat) :
    Except Fault (Option Char) × CharStream → Except Fault (Option Char) × CharStream → Prop
  | quietly {rest : Text} {n : Nat} (c? : Option Char) (hquiet : Quiet fails reads n) :
      ReadsOn fails message text reads (.ok c?, memory ⟨rest, n, fails, message⟩)
        (.ok c?, (memory ⟨rest, n, fails, message⟩).steady)
  | failed {rest : Text} {n : Nat} (hrest : visible rest = visible text) (hmet : Met fails reads n)
      (y : Except Fault (Option Char) × CharStream) :
      ReadsOn fails message text reads
        (.error (.device message), memory ⟨rest, n, fails, message⟩) y

theorem readsOn_readVisible (fails : Nat → Bool) (message text : Text) (reads : Nat) :
    ReadsOn fails message text reads (memory ⟨text, reads, fails, message⟩).readVisible
      (memory ⟨text, reads, fails, message⟩).steady.readVisible := by
  induction text generalizing reads with
  | nil =>
    rw [readVisible_eq]
    cases hfails : fails reads with
    | true =>
      rw [read_of_fails hfails]
      exact .failed rfl (met_succ hfails) _
    | false =>
      rw [read_of_not_fails hfails, readVisible_eq, steady, read_of_not_fails rfl]
      exact .quietly none (quiet_succ hfails)
  | cons c text ih =>
    rw [readVisible_eq]
    cases hfails : fails reads with
    | true =>
      rw [read_of_fails hfails]
      exact .failed rfl (met_succ hfails) _
    | false =>
      rw [read_of_not_fails hfails, readVisible_eq, steady, read_of_not_fails rfl]
      by_cases hc : c = '\r'
      · subst hc
        have hrest := ih (reads + 1)
        simp only [List.head?_cons, List.tail_cons, if_true]
        generalize (memory ⟨text, reads + 1, fails, message⟩).readVisible = x at hrest
        rw [show memory ⟨text, reads + 1, fun _ => false, message⟩ =
          (memory ⟨text, reads + 1, fails, message⟩).steady from rfl]
        generalize (memory ⟨text, reads + 1, fails, message⟩).steady.readVisible = y at hrest
        cases hrest with
        | quietly c? hquiet => exact .quietly c? ((quiet_succ hfails).trans hquiet)
        | failed hvisible hmet =>
          exact .failed (hvisible.trans (visible_cons_return text).symm)
            ((quiet_succ hfails).met hmet) _
      · simp only [List.head?_cons, List.tail_cons, if_neg hc]
        exact .quietly (some c) (quiet_succ hfails)

end CharStream
end Input

namespace Source

open Input (CharStream Quiet Met visible)

variable {α β : Type} {fails : Nat → Bool} {message name u : Text} {k : Nat} {s t : Source}

def steady (s : Source) : Source := { s with stream := s.stream.steady }

/-- The stream is a text, and its reads fail at chosen times with the words of the device. -/
structure Reads (fails : Nat → Bool) (message name : Text) (s : Source) : Prop where
  stream : ∃ text reads, s.stream = .memory ⟨text, reads, fails, message⟩
  name : s.name = name

def left : EStateM.Result Fault Source α → Source
  | .ok _ s => s
  | .error _ s => s

def steadily : EStateM.Result Fault Source α → EStateM.Result Fault Source α
  | .ok a s => .ok a s.steady
  | .error fault s => .error fault s.steady

inductive EndsOn (fails : Nat → Bool) (message name u : Text) (s : Source) :
    EStateM.Result Fault Source α → EStateM.Result Fault Source α → Prop
  | quietly {x y : EStateM.Result Fault Source α} (hsteady : y = steadily x)
      (hreads : Reads fails message name (left x))
      (hquiet : Quiet fails s.stream.reads (left x).stream.reads) :
      EndsOn fails message name u s x y
  | failed {t : Source} {j : Nat} (hreads : Reads fails message name t)
      (hmet : Met fails s.stream.reads t.stream.reads) (hstays : Stays s t)
      (hplace : At u j t.steady) (y : EStateM.Result Fault Source α) :
      EndsOn fails message name u s (.error (.fatal name s.line (.device message)) t) y

structure Silent (x : Op α) : Prop where
  steady : ∀ s, x s.steady = steadily (x s)
  stream : ∀ s, (left (x s)).stream = s.stream
  name : ∀ s, (left (x s)).name = s.name

theorem Silent.endsOn {x : Op α} (h : Silent x) (hs : Reads fails message name s) :
    EndsOn fails message name u s (x s) (x s.steady) := by
  refine .quietly (h.steady s) ⟨?_, ?_⟩ ?_
  · rw [h.stream]
    exact hs.stream
  · rw [h.name]
    exact hs.name
  · rw [h.stream]
    exact .refl _ _

theorem EndsOn.behind {x y : EStateM.Result Fault Source α} (h : EndsOn fails message name u t x y)
    (hquiet : Quiet fails s.stream.reads t.stream.reads) (hstays : Stays s t) :
    EndsOn fails message name u s x y := by
  cases h with
  | quietly hsteady hreads hquiet' => exact .quietly hsteady hreads (hquiet.trans hquiet')
  | failed hreads hmet hstays' hplace =>
    rw [hstays.line]
    exact .failed hreads (hquiet.met hmet) (hstays.trans hstays') hplace _

theorem EndsOn.bind {x : Op α} {f : α → Op β}
    (h : EndsOn fails message name u s (x s) (x s.steady)) (hf : ∀ a, Silent (f a)) :
    EndsOn fails message name u s ((x >>= f) s) ((x >>= f) s.steady) := by
  generalize hx : x s = ends at h
  generalize hy : x s.steady = ends' at h
  cases h with
  | failed hreads hmet hstays hplace =>
    rw [bind_of_error hx]
    exact .failed hreads hmet hstays hplace _
  | quietly hsteady hreads hquiet =>
    cases ends with
    | error fault t =>
      rw [bind_of_error hx, bind_of_error (hy.trans hsteady)]
      exact .quietly rfl hreads hquiet
    | ok a t =>
      rw [bind_of_ok hx, bind_of_ok (hy.trans hsteady)]
      refine .quietly ((hf a).steady t) ⟨?_, ?_⟩ ?_
      · rw [(hf a).stream]
        exact hreads.stream
      · rw [(hf a).name]
        exact hreads.name
      · rw [(hf a).stream]
        exact hquiet

section Filling

theorem fill_of_readChar_error {missing : Nat} {fault : Fault} (hend : s.holdsEnd = false)
    (hread : readChar s = .error fault t) : fill (missing + 1) s = .error fault t := by
  rw [fill, get_bind, hend, if_neg Bool.false_ne_true]
  exact bind_of_error hread

theorem At.readChar_endsOn (h : At u k s.steady) (hs : Reads fails message name s) :
    EndsOn fails message name u s (Source.readChar s) (Source.readChar s.steady) := by
  obtain ⟨⟨text, reads, hstream⟩, rfl⟩ := id hs
  unfold Source.readChar
  rw [show s.steady.ended = s.ended from rfl]
  by_cases hended : s.ended = true
  · rw [if_pos hended, if_pos hended]
    exact .quietly rfl hs (.refl _ _)
  · rw [if_neg hended, if_neg hended]
    have hcount : s.stream.reads = reads := by rw [hstream]; rfl
    have hread := CharStream.readsOn_readVisible fails message text reads
    rw [← hstream, show s.stream.steady = s.steady.stream from rfl] at hread
    generalize s.stream.readVisible = x at hread
    generalize s.steady.stream.readVisible = y at hread
    cases hread with
    | quietly c? hquiet =>
      rw [← hcount] at hquiet
      cases c? with
      | none => exact .quietly rfl ⟨⟨_, _, rfl⟩, rfl⟩ hquiet
      | some c => exact .quietly rfl ⟨⟨_, _, rfl⟩, rfl⟩ hquiet
    | @failed rest n hrest hmet =>
      obtain ⟨hk, hshows⟩ := h.unended (Bool.eq_false_iff.2 hended)
      have hvisible : visible rest = u.drop k := by
        rw [hrest, ← hshows.visible_text, steady, hstream]
        rfl
      have hplace : At u k (Source.steady { s with stream := .memory ⟨rest, n, fails, message⟩ }) :=
        ⟨h.le, h.window, fun _ => ⟨hk, rest, ⟨rfl, fun _ _ => rfl⟩, hvisible⟩, h.ended⟩
      have hreads : Reads fails message s.name { s with stream := .memory ⟨rest, n, fails, message⟩ } :=
        ⟨⟨_, _, rfl⟩, rfl⟩
      rw [← hcount] at hmet
      exact .failed hreads hmet ⟨rfl, rfl, rfl⟩ hplace _

theorem At.fill_endsOn (h : At u k s.steady) (hs : Reads fails message name s) (missing : Nat)
    (hroom : k + missing ≤ s.window.capacity) :
    EndsOn fails message name u s (Source.fill missing s) (Source.fill missing s.steady) := by
  induction missing generalizing k s with
  | zero => exact .quietly rfl hs (.refl _ _)
  | succ missing ih =>
    have hle := h.le
    have hend : s.holdsEnd = decide (k = u.length + 1) := h.holdsEnd
    by_cases hk : k = u.length + 1
    · rw [decide_eq_true hk] at hend
      have hfull : Source.fill (missing + 1) s = .ok true s := fill_of_end hend
      have hfull' : Source.fill (missing + 1) s.steady = .ok true s.steady := fill_of_end hend
      rw [hfull, hfull']
      exact .quietly rfl hs (.refl _ _)
    · rw [decide_eq_false hk] at hend
      have hlt : k < s.window.capacity := by omega
      obtain ⟨t, window, hread, hpush, hplace, hstays⟩ := h.draw (by omega) hlt
      have hcapacity : window.capacity = s.window.capacity := hstays.capacity
      have hends := h.readChar_endsOn hs
      have hfill' : Source.fill (missing + 1) s.steady = _ := fill_of_read hend hread hpush
      rw [hread] at hends
      generalize hx : Source.readChar s = x at hends
      cases hends with
      | failed hreads hmet hstays' hplace' =>
        have hfill : Source.fill (missing + 1) s = .error _ _ := fill_of_readChar_error hend hx
        rw [hfill]
        exact .failed hreads hmet hstays' hplace' _
      | quietly hsteady hreads hquiet =>
        cases x with
        | error fault t => cases hsteady
        | ok c? v =>
          obtain ⟨rfl, rfl⟩ : u[k]? = c? ∧ t = v.steady := by simpa [steadily] using hsteady
          have hfill : Source.fill (missing + 1) s = _ := fill_of_read hend hx hpush
          rw [hfill, hfill']
          have hreads' : Reads fails message name { v with window } := ⟨hreads.stream, hreads.name⟩
          cases u[k]? with
          | none => exact .quietly rfl hreads' hquiet
          | some c =>
            have hroom' : k + 1 + missing ≤ window.capacity := by omega
            exact (ih hplace hreads' hroom').behind hquiet ⟨hstays.line, hstays.column, hcapacity⟩

end Filling

section Requests

theorem silent_pure (a : α) : Silent (pure a : Op α) := ⟨fun _ => rfl, fun _ => rfl, fun _ => rfl⟩

theorem silent_ofFifo (f : Fifo (Option Char) → Except Fifo.Fault α) :
    Silent (do ofFifo (f (← get).window) : Op α) := by
  have hends : ∀ s : Source, (do ofFifo (f (← get).window) : Op α) s = ofFifo (f s.window) s :=
    fun _ => rfl
  refine ⟨fun s => ?_, fun s => ?_, fun s => ?_⟩
  · rw [hends, hends, show s.steady.window = s.window from rfl]
    cases f s.window <;> rfl
  · rw [hends]
    cases f s.window <;> rfl
  · rw [hends]
    cases f s.window <;> rfl

theorem silent_takeOut (n : Count) : Silent (takeOut n) := by
  have hpassed : ∀ (m : Nat) (c? : Option Char) (s : Source),
      passed m c? s.steady = (passed m c? s).steady ∧ (passed m c? s).stream = s.stream ∧
        (passed m c? s).name = s.name := by
    intro m c? s
    cases c? with
    | none => exact ⟨rfl, rfl, rfl⟩
    | some c =>
      simp only [passed, pass]
      split
      · exact ⟨rfl, rfl, rfl⟩
      · exact ⟨rfl, rfl, rfl⟩
  refine ⟨fun s => ?_, fun s => ?_, fun s => ?_⟩
  · rw [takeOut_eq, takeOut_eq, show s.steady.window = s.window from rfl]
    cases s.window.popMany n with
    | error fault => rfl
    | ok taken => exact congrArg (EStateM.Result.ok _) (hpassed _ _ { s with window := taken.2 }).1
  · rw [takeOut_eq]
    cases s.window.popMany n with
    | error fault => rfl
    | ok taken => exact (hpassed _ _ { s with window := taken.2 }).2.1
  · rw [takeOut_eq]
    cases s.window.popMany n with
    | error fault => rfl
    | ok taken => exact (hpassed _ _ { s with window := taken.2 }).2.2

theorem At.lookAhead_endsOn (h : At u k s.steady) (hs : Reads fails message name s) (n : Count) :
    EndsOn fails message name u s (Source.lookAhead n s) (Source.lookAhead n s.steady) := by
  by_cases hn : 0 ≤ n.value ∧ n.value < s.window.capacity
  · have hcapacity : k ≤ s.window.capacity := h.le_capacity
    have hsize : s.window.size = k := h.size
    have hroom : k + (n.value.toNat + 1 - s.window.size) ≤ s.window.capacity := by omega
    have hfill := h.fill_endsOn hs _ hroom
    rw [Source.lookAhead, get_bind, get_bind, if_pos hn, if_pos (by exact hn)]
    refine hfill.bind fun full => ?_
    cases full with
    | true => exact silent_pure none
    | false => exact silent_ofFifo fun window => window.peek n
  · have hlook : Source.lookAhead n s = _ := lookAhead_of_outside hn
    have hlook' : Source.lookAhead n s.steady = _ := lookAhead_of_outside hn
    rw [hlook, hlook']
    exact .quietly rfl hs (.refl _ _)

theorem At.accept_endsOn (h : At u k s.steady) (hs : Reads fails message name s) (n : Count) :
    EndsOn fails message name u s (Source.accept n s) (Source.accept n s.steady) := by
  rw [accept_eq, accept_eq, show s.steady.window = s.window from rfl]
  by_cases hshort : s.window.size < n.value
  · rw [if_pos hshort, if_pos hshort]
    exact (h.lookAhead_endsOn hs _).bind fun _ => silent_takeOut n
  · rw [if_neg hshort, if_neg hshort]
    exact (silent_takeOut n).endsOn hs

theorem At.isEnd_endsOn (h : At u k s.steady) (hs : Reads fails message name s) :
    EndsOn fails message name u s (Source.isEnd s) (Source.isEnd s.steady) :=
  (h.lookAhead_endsOn hs _).bind fun _ => silent_pure _

end Requests

def Request.meets (q : Request) (s : Source) : Bool :=
  match s.stream with
  | .memory m => (List.range' m.reads ((q.run s).2.stream.reads - m.reads)).any m.fails
  | _ => false

def served : List Request → Source → List (Request × Reply × Nat × Nat)
  | [], _ => []
  | q :: qs, s =>
    let t := (q.run s).2
    if q.meets s then served qs t else (q, (q.run s).1, t.line, t.column) :: served qs t

theorem meets_iff (hs : Reads fails message name s) (q : Request) :
    q.meets s = true ↔ Met fails s.stream.reads (q.run s).2.stream.reads := by
  obtain ⟨text, reads, hstream⟩ := hs.stream
  unfold Request.meets
  rw [hstream]
  show (List.range' reads _).any fails = true ↔ _
  simp only [List.any_eq_true, List.mem_range'_1, Met]
  show _ ↔ ∃ i, reads ≤ i ∧ _
  constructor
  · rintro ⟨i, ⟨hle, hlt⟩, hfails⟩
    exact ⟨i, hle, by omega, hfails⟩
  · rintro ⟨i, hle, hlt, hfails⟩
    exact ⟨i, ⟨hle, by omega⟩, hfails⟩

structure Endures (fails : Nat → Bool) (message name : Text) (capacity : Nat) (text : Text)
    (p : Spot) (q : Request) (s : Source) : Prop where
  reads : Reads fails message name (q.run s).2
  failed : q.meets s = true →
    (q.run s).1 = .failed (.fatal name s.line (.device message)) ∧
      AtSpot capacity text p (q.run s).2.steady
  served : q.meets s = false →
    (q.run s).1 = (q.runAt capacity text p).1 ∧
      AtSpot capacity text (q.runAt capacity text p).2 (q.run s).2.steady

section Sessions

variable {capacity : Nat} {text : Text} {p : Spot}

theorem AtSpot.endures_of_endsOn {x : Op α} {f : α → Reply} {q : Request}
    (h : AtSpot capacity text p s.steady) (hs : Reads fails message name s)
    (hq : ∀ s, q.run s = Reply.ofResult f (x s))
    (hends : EndsOn fails message name (text.drop p.index) s (x s) (x s.steady)) :
    Endures fails message name capacity text p q s := by
  have hmeets := meets_iff hs q
  have hrun := h.run q
  have hends' := hq s
  rw [hq s.steady] at hrun
  generalize x s = y at hends hends'
  generalize x s.steady = z at hends hrun
  rw [hends'] at hmeets
  cases hends with
  | quietly hsteady hreads hquiet =>
    have hleft : (Reply.ofResult f y).2 = left y := by cases y <;> rfl
    have hsame : Reply.ofResult f z = ((Reply.ofResult f y).1, (left y).steady) := by
      rw [hsteady]
      cases y <;> rfl
    rw [hleft] at hmeets
    rw [hsame] at hrun
    refine ⟨by rwa [hends', hleft], fun htrue => ?_, fun _ => ?_⟩
    · exact absurd (hmeets.1 htrue) hquiet.not_met
    · rw [hends', hleft]
      exact hrun
  | failed hreads hmet hstays hplace =>
    refine ⟨by rwa [hends'], fun _ => ?_, fun hfalse => ?_⟩
    · rw [hends']
      exact ⟨rfl, h.stays ⟨hstays.line, hstays.column, hstays.capacity⟩ hplace⟩
    · rw [hmeets.2 hmet] at hfalse
      cases hfalse

theorem AtSpot.endures (h : AtSpot capacity text p s.steady) (hs : Reads fails message name s)
    (q : Request) : Endures fails message name capacity text p q s := by
  obtain ⟨k, hplace⟩ := h.place
  cases q with
  | lookAhead n => exact h.endures_of_endsOn hs (fun _ => rfl) (hplace.lookAhead_endsOn hs n)
  | accept n => exact h.endures_of_endsOn hs (fun _ => rfl) (hplace.accept_endsOn hs n)
  | isEnd => exact h.endures_of_endsOn hs (fun _ => rfl) (hplace.isEnd_endsOn hs)

theorem unaccepted_steady (s : Source) : s.steady.unaccepted = s.unaccepted := by
  have htext : s.stream.steady.text = s.stream.text := by cases s.stream <;> rfl
  unfold Source.unaccepted
  rw [show s.steady.stream = s.stream.steady from rfl, htext]
  rfl

theorem AtSpot.steady_after (h : AtSpot capacity text p s.steady) (hs : Reads fails message name s)
    (qs : List Request) :
    ∃ p', AtSpot capacity text p' (Source.after qs s).steady ∧
      Reads fails message name (Source.after qs s) := by
  induction qs generalizing p s with
  | nil => exact ⟨p, h, hs⟩
  | cons q qs ih =>
    have hends := h.endures hs q
    cases hmeets : q.meets s with
    | true => exact ih (hends.failed hmeets).2 hends.reads
    | false => exact ih (hends.served hmeets).2 hends.reads

theorem AtSpot.replies_served (h : AtSpot capacity text p s.steady)
    (hs : Reads fails message name s) (h' : AtSpot capacity text p t) (qs : List Request) :
    Source.replies ((served qs s).map Prod.fst) t = (served qs s).map Prod.snd := by
  -- the two stay at one spot: a request that fails is not put to the other source at all
  induction qs generalizing p s t with
  | nil => rfl
  | cons q qs ih =>
    have hends := h.endures hs q
    cases hmeets : q.meets s with
    | true =>
      rw [served, if_pos hmeets]
      exact ih (hends.failed hmeets).2 hends.reads h'
    | false =>
      obtain ⟨hreply, hspot⟩ := hends.served hmeets
      obtain ⟨hreply', hspot'⟩ := h'.run q
      have hline : (q.run t).2.line = (q.run s).2.line := hspot'.line.trans hspot.line.symm
      have hcolumn : (q.run t).2.column = (q.run s).2.column := hspot'.column.trans hspot.column.symm
      rw [served, if_neg (ne_true_of_eq_false hmeets)]
      simp only [List.map_cons, Source.replies, hreply', hreply, hline, hcolumn]
      rw [ih hspot hends.reads hspot']

end Sessions

structure FailsWhole (message name : Text) (q : Request) (s : Source) : Prop where
  reply : (q.run s).1 = .failed (.fatal name s.line (.device message))
  line : (q.run s).2.line = s.line
  column : (q.run s).2.column = s.column
  unaccepted : (q.run s).2.unaccepted = s.unaccepted

/-- Over a stream whose reads fail at any times, every request that meets a failing read reports it
and loses nothing, and the others come to what they come to where no read fails. -/
theorem failing_ofStream (text : Text) (fails : Nat → Bool) (message : Text) (name : Option Text)
    (config : Config) {size : Nat} (hsize : 1 ≤ size) :
    match ofStream (.memory { text, fails, message }) name (.int size) config,
      ofStream (.memory { text }) name (.int size) config with
    | .ok s, .ok t =>
      (∀ qs q, q.meets (after qs s) = true →
        FailsWhole message (name.getD "<stream>".toList) q (after qs s)) ∧
      ∀ qs, replies ((served qs s).map Prod.fst) t = (served qs s).map Prod.snd
    | .error _, .error _ => Fifo.memoryLimit ≤ size
    | _, _ => False := by
  rw [ofStream_int _ name config hsize, ofStream_int _ name config hsize]
  obtain ⟨fault, hrefused, hmemory⟩ | hgiven := Fifo.ofValue_natCast (α := Option Char) hsize
  · rw [hrefused]
    exact hmemory
  · rw [hgiven]
    generalize name.getD "<stream>".toList = name
    have hs : Reads fails message name
        { stream := .memory { text, fails, message }, name, window := Fifo.ofCapacity size } :=
      ⟨⟨text, 0, rfl⟩, rfl⟩
    have hdelivers : (CharStream.memory { text, message }).Delivers text := ⟨rfl, fun _ _ => rfl⟩
    have hdelivers' : (CharStream.memory { text }).Delivers text := ⟨rfl, fun _ _ => rfl⟩
    have hsteady : AtSpot size (visible text) {} (steady
        { stream := .memory { text, fails, message }, name, window := Fifo.ofCapacity size }) :=
      atSpot_start hdelivers name hsize
    have hnever := atSpot_start hdelivers' name hsize
    refine ⟨fun qs q hmeets => ?_, fun qs => hsteady.replies_served hs hnever qs⟩
    obtain ⟨p, hspot, hreads⟩ := hsteady.steady_after hs qs
    obtain ⟨hreply, hspot'⟩ := (hspot.endures hreads q).failed hmeets
    refine ⟨hreply, hspot'.line.trans hspot.line.symm, hspot'.column.trans hspot.column.symm, ?_⟩
    rw [← unaccepted_steady, hspot'.unaccepted, ← hspot.unaccepted, unaccepted_steady]

theorem failing_ofStream_once :
    ∃ s t, ofStream (.memory
        { text := "a\rb".toList, fails := fun n => n == 1, message := "gone".toList }) none (.int 2) {} =
          .ok s ∧
      ofStream (.memory { text := "a\rb".toList }) none (.int 2) {} = .ok t ∧
      FailsWhole "gone".toList "<stream>".toList (.lookAhead (1 : Nat)) s ∧
      replies [.lookAhead (1 : Nat), .accept (2 : Nat), .isEnd] t =
        [(.char (some 'b'), 1, 1), (.char (some 'b'), 1, 3), (.truth true, 1, 3)] := by
  obtain ⟨hfailed, hserved⟩ :=
    failing_ofStream "a\rb".toList (fun n => n == 1) "gone".toList none {} (by decide : 1 ≤ 2)
  refine ⟨_, _, rfl, rfl, hfailed [] (.lookAhead (1 : Nat)) (by cbv), ?_⟩
  have hreplies := hserved [.lookAhead (1 : Nat), .lookAhead (1 : Nat), .accept (2 : Nat), .isEnd]
  generalize hfound : served _ _ = found at hreplies
  have hthree : found = [(.lookAhead (1 : Nat), .char (some 'b'), 1, 1),
      (.accept (2 : Nat), .char (some 'b'), 1, 3), (.isEnd, .truth true, 1, 3)] := by
    rw [← hfound]
    cbv
  rw [hthree] at hreplies
  exact hreplies

end Source
end LineLexer
