import LineLexer.Proofs.Delivery
import LineLexer.Proofs.FifoContents
import LineLexer.Source

/-!
# A source is an index into the visible text

In front of the unread text the window holds the first characters of it, and
the end behind the last of them once the end has been read. Looking ahead
fills the window further, taking characters empties it, and neither ever
overruns it: a source answers every sequence of requests like an index into
the text that its stream shows.
-/

namespace LineLexer.Source

open Input (visible)

section Results

variable {α β : Type} {x : Op α} {f : α → Op β} {s t : Source}

theorem bind_of_ok {a : α} (h : x s = .ok a t) : (x >>= f) s = f a t := by
  show EStateM.bind x f s = _
  rw [EStateM.bind, h]

theorem bind_of_error {fault : Fault} (h : x s = .error fault t) :
    (x >>= f) s = .error fault t := by
  show EStateM.bind x f s = _
  rw [EStateM.bind, h]

theorem get_bind (f : Source → Op β) (s : Source) : (get >>= f) s = f s s := rfl

end Results

theorem fill_of_end {missing : Nat} {s : Source} (h : s.holdsEnd = true) :
    fill (missing + 1) s = .ok true s := by
  rw [fill, get_bind, if_pos h]
  rfl

theorem fill_of_read {missing : Nat} {s t : Source} {c? : Option Char}
    {window : Fifo (Option Char)} (hend : s.holdsEnd = false) (hread : readChar s = .ok c? t)
    (hpush : s.window.push c? = .ok window) :
    fill (missing + 1) s = if c?.isNone then .ok true { t with window }
      else fill missing { t with window } := by
  have hmodify : (modify fun s => { s with window } : Op PUnit) t = .ok ⟨⟩ { t with window } := rfl
  rw [fill, get_bind, hend, if_neg Bool.false_ne_true, bind_of_ok hread, hpush]
  show ((modify fun s => { s with window } : Op PUnit) >>= fun _ =>
    if c?.isNone then pure true else fill missing) t = _
  rw [bind_of_ok hmodify]
  split <;> rfl

def ahead (u : Text) : List (Option Char) := u.map some ++ [none]

theorem length_ahead (u : Text) : (ahead u).length = u.length + 1 := by simp [ahead]

theorem getElem?_ahead {u : Text} {n : Nat} (hn : n ≤ u.length) : (ahead u)[n]? = some u[n]? := by
  by_cases hlast : n = u.length
  · subst hlast
    simp [ahead]
  · have hlt : n < (u.map some).length := by
      rw [List.length_map]
      omega
    rw [ahead, List.getElem?_append_left hlt]
    simp [List.getElem?_eq_getElem (show n < u.length by omega)]

theorem drop_ahead {u : Text} {n : Nat} (hn : n ≤ u.length) :
    (ahead u).drop n = ahead (u.drop n) := by
  rw [ahead, List.drop_append_of_le_length (by simpa using hn), ahead, List.map_drop]

theorem take_ahead_succ {u : Text} {k : Nat} (hk : k ≤ u.length) :
    (ahead u).take (k + 1) = (ahead u).take k ++ [u[k]?] := by
  rw [List.take_add_one, getElem?_ahead hk]
  rfl

/-- The visible text `u` is unread, and `k` items of what lies ahead are in the window. -/
structure At (u : Text) (k : Nat) (s : Source) : Prop where
  le : k ≤ u.length + 1
  window : s.window.Holds ((ahead u).take k)
  unended : s.ended = false → k ≤ u.length ∧ s.stream.Shows (u.drop k)
  ended : s.ended = true → u.length ≤ k

structure Stays (s t : Source) : Prop where
  line : t.line = s.line
  column : t.column = s.column
  capacity : t.window.capacity = s.window.capacity

theorem Stays.refl (s : Source) : Stays s s := ⟨rfl, rfl, rfl⟩

theorem Stays.trans {r s t : Source} (h : Stays r s) (h' : Stays s t) : Stays r t :=
  ⟨h'.line.trans h.line, h'.column.trans h.column, h'.capacity.trans h.capacity⟩

section Filling

variable {u : Text} {k : Nat} {s : Source}

theorem At.length_window (h : At u k s) : ((ahead u).take k).length = k := by
  have hle := h.le
  rw [List.length_take, length_ahead, Nat.min_eq_left hle]

theorem At.size (h : At u k s) : s.window.size = k := h.window.count.trans h.length_window

theorem At.le_capacity (h : At u k s) : k ≤ s.window.capacity :=
  h.length_window ▸ h.window.length_le

theorem At.holdsEnd (h : At u k s) : s.holdsEnd = decide (k = u.length + 1) := by
  have hle := h.le
  have hlast : s.holdsEnd = (((ahead u).take k)[k - 1]? == some none) := by
    rw [Source.holdsEnd, h.size, h.window.at?]
  rw [hlast]
  by_cases hk : k = 0
  · subst hk
    simp
  · have hitem : ((ahead u).take k)[k - 1]? = some u[k - 1]? := by
      rw [List.getElem?_take_of_lt (by omega), getElem?_ahead (by omega)]
    rw [hitem, Bool.eq_iff_iff, beq_iff_eq, Option.some_inj, List.getElem?_eq_none_iff,
      decide_eq_true_eq]
    omega

def unaccepted (s : Source) : Text :=
  s.window.toList.filterMap id ++ if s.ended then [] else visible s.stream.text

theorem At.unaccepted (h : At u k s) : s.unaccepted = u := by
  have hheld : s.window.toList.filterMap id = u.take k := by
    rw [h.window.toList, ahead, List.take_append, List.filterMap_append, ← List.map_take,
      List.filterMap_map]
    cases k - (u.map some).length <;> simp
  rw [Source.unaccepted, hheld]
  cases hended : s.ended with
  | true =>
    have hlast := h.ended hended
    simpa using List.take_of_length_le hlast
  | false =>
    obtain ⟨-, hshows⟩ := h.unended hended
    rw [hshows.visible_text]
    exact List.take_append_drop k u

theorem At.readChar (h : At u k s) (hk : k ≤ u.length) :
    ∃ stream ended, Source.readChar s = .ok u[k]? { s with stream, ended } ∧
      (ended = false → k + 1 ≤ u.length ∧ stream.Shows (u.drop (k + 1))) ∧
      (ended = true → u.length ≤ k + 1) := by
  unfold Source.readChar
  by_cases hended : s.ended = true
  · have hlast := h.ended hended
    rw [List.getElem?_eq_none hlast, if_pos hended]
    exact ⟨s.stream, s.ended, rfl, fun hnot => absurd hended (by simp [hnot]), fun _ => by omega⟩
  · obtain ⟨-, hshows⟩ := h.unended (Bool.eq_false_iff.2 hended)
    obtain ⟨stream, hread, hrest⟩ := hshows.readVisible
    rw [List.head?_drop] at hread
    rw [List.tail_drop] at hrest
    rw [if_neg hended, hread]
    cases hc : u[k]? with
    | none =>
      have hlast := List.getElem?_eq_none_iff.1 hc
      exact ⟨stream, true, rfl, nofun, fun _ => by omega⟩
    | some c =>
      have hlt := (List.getElem?_eq_some_iff.1 hc).1
      exact ⟨stream, s.ended, rfl, fun _ => ⟨hlt, hrest⟩, fun hnot => absurd hnot hended⟩

theorem At.draw (h : At u k s) (hk : k ≤ u.length) (hroom : k < s.window.capacity) :
    ∃ t window, Source.readChar s = .ok u[k]? t ∧ s.window.push u[k]? = .ok window ∧
      At u (k + 1) { t with window } ∧ Stays s { t with window } := by
  have hlength := h.length_window
  obtain ⟨stream, ended, hread, hunended, hended⟩ := h.readChar hk
  obtain ⟨window, hpush, hholds, hcapacity⟩ := h.window.push (by omega) u[k]?
  rw [← take_ahead_succ hk] at hholds
  exact ⟨{ s with stream, ended }, window, hread, hpush, ⟨by omega, hholds, hunended, hended⟩,
    ⟨rfl, rfl, hcapacity⟩⟩

theorem At.fill (h : At u k s) (missing : Nat) (hroom : k + missing ≤ s.window.capacity) :
    ∃ full t j, Source.fill missing s = .ok full t ∧ At u j t ∧ Stays s t ∧
      (full = false → j = k + missing) ∧
      (full = true → j = u.length + 1 ∧ u.length < k + missing ∧ 0 < missing) := by
  induction missing generalizing k s with
  | zero => exact ⟨false, s, k, rfl, h, .refl s, fun _ => rfl, nofun⟩
  | succ missing ih =>
    have hle := h.le
    have hend := h.holdsEnd
    by_cases hk : k = u.length + 1
    · rw [decide_eq_true hk] at hend
      exact ⟨true, s, k, fill_of_end hend, h, .refl s, nofun, fun _ => by omega⟩
    · rw [decide_eq_false hk] at hend
      obtain ⟨t, window, hread, hpush, hplace, hstays⟩ := h.draw (by omega) (by omega)
      have hcapacity := hstays.capacity
      have hfill : Source.fill (missing + 1) s = _ := fill_of_read hend hread hpush
      cases hc : u[k]? with
      | none =>
        have hlast := List.getElem?_eq_none_iff.1 hc
        rw [hc] at hfill
        exact ⟨true, _, k + 1, hfill, hplace, hstays, nofun, fun _ => by omega⟩
      | some c =>
        rw [hc] at hfill
        obtain ⟨full, v, j, hv, hplace', hstays', hmore, hfull⟩ := ih hplace (by omega)
        refine ⟨full, v, j, hfill.trans hv, hplace', hstays.trans hstays', ?_, ?_⟩
        · intro hnot
          have hj := hmore hnot
          omega
        · intro hyes
          have hj := hfull hyes
          omega

end Filling

section Requests

variable {u : Text} {k : Nat} {s : Source}

theorem lookAhead_of_outside {n : Count} (h : ¬(0 ≤ n.value ∧ n.value < s.window.capacity)) :
    lookAhead n s = .error (.breach (.outsideWindow n s.window.shownCapacity)) s := by
  rw [lookAhead, get_bind, if_neg h]
  rfl

theorem At.lookAhead (h : At u k s) {n : Count} (hn : 0 ≤ n.value)
    (hwindow : n.value < s.window.capacity) :
    ∃ t j, Source.lookAhead n s = .ok u[n.value.toNat]? t ∧ At u j t ∧ Stays s t ∧
      min (n.value.toNat + 1) (u.length + 1) ≤ j := by
  have hsize := h.size
  have hcapacity := h.le_capacity
  obtain ⟨full, t, j, hfill, hplace, hstays, hmore, hfull⟩ :=
    h.fill (n.value.toNat + 1 - k) (by omega)
  rw [Source.lookAhead, get_bind, if_pos ⟨hn, hwindow⟩, hsize, bind_of_ok hfill]
  cases full with
  | true =>
    obtain ⟨hj, hlt, hmissing⟩ := hfull rfl
    rw [List.getElem?_eq_none (by omega)]
    exact ⟨t, j, rfl, hplace, hstays, by omega⟩
  | false =>
    have hj := hmore rfl
    have hle := hplace.le
    have hitem : ((ahead u).take j)[n.value.toNat]? = some u[n.value.toNat]? := by
      rw [List.getElem?_take_of_lt (by omega), getElem?_ahead (by omega)]
    have hpeek : t.window.peek n = _ := hplace.window.peek hitem (by omega)
    refine ⟨t, j, ?_, hplace, hstays, by omega⟩
    show ofFifo (t.window.peek n) t = _
    rw [hpeek]
    rfl

theorem At.isEnd (h : At u k s) (hwindow : 0 < s.window.capacity) :
    ∃ t j, Source.isEnd s = .ok u.isEmpty t ∧ At u j t ∧ Stays s t := by
  obtain ⟨t, j, hlook, hplace, hstays, -⟩ :=
    h.lookAhead (n := (0 : Nat)) (Int.le_refl 0) (by simpa using hwindow)
  refine ⟨t, j, ?_, hplace, hstays⟩
  rw [Source.isEnd, bind_of_ok hlook]
  cases u <;> rfl

theorem At.dropHeads {n : Nat} (h : At u k s) (hn : n ≤ k) :
    At (u.drop n) (k - n) { s with window := Fifo.dropHeads n s.window } := by
  have hle := h.le
  have hholds := h.window.dropHeads (n := n) (by rwa [h.length_window])
  refine ⟨?_, ?_, ?_, ?_⟩
  · rw [List.length_drop]
    omega
  · show (Fifo.dropHeads n s.window).Holds _
    by_cases hover : n = u.length + 1
    · have hk : k - n = 0 := by omega
      rw [List.drop_eq_nil_of_le (by rw [h.length_window]; omega)] at hholds
      rwa [hk, List.take_zero]
    · rwa [List.drop_take, drop_ahead (by omega)] at hholds
  · intro hunended
    obtain ⟨hk, hshows⟩ := h.unended hunended
    rw [List.length_drop, List.drop_drop]
    have hdrop : n + (k - n) = k := by omega
    rw [hdrop]
    exact ⟨by omega, hshows⟩
  · intro hended
    have hlast := h.ended hended
    rw [List.length_drop]
    omega

def passed (n : Nat) (c? : Option Char) (s : Source) : Source :=
  match c? with
  | some c => s.pass n c
  | none => s

theorem exists_passed (n : Nat) (c? : Option Char) (s : Source) :
    ∃ line column, s.passed n c? = { s with line, column } := by
  cases c? with
  | none => exact ⟨s.line, s.column, rfl⟩
  | some c =>
    simp only [passed, pass]
    split
    · exact ⟨_, _, rfl⟩
    · exact ⟨_, _, rfl⟩

theorem window_passed (n : Nat) (c? : Option Char) : (s.passed n c?).window = s.window := by
  obtain ⟨line, column, heq⟩ := exists_passed n c? s
  rw [heq]

theorem At.passed (h : At u k s) (n : Nat) (c? : Option Char) : At u k (s.passed n c?) := by
  obtain ⟨line, column, heq⟩ := exists_passed n c? s
  rw [heq]
  exact ⟨h.le, h.window, h.unended, h.ended⟩

theorem Stays.passed {t : Source} (h : Stays s t) (n : Nat) (c? : Option Char) :
    Stays (s.passed n c?) (t.passed n c?) := by
  cases c? with
  | none => exact h
  | some c =>
    simp only [Source.passed, pass, h.line, h.column]
    split <;> exact ⟨rfl, rfl, h.capacity⟩

def takeOut (n : Count) : Op (Option Char) := do
  let (c?, window) ← ofFifo ((← get).window.popMany n)
  modify fun s => { s with window }
  match c? with
  | some c => modify (pass n.value.toNat c)
  | none => pure ()
  return c?

theorem accept_eq (n : Count) (s : Source) : accept n s =
    if s.window.size < n.value then (lookAhead (n.value - 1 : Int) >>= fun _ => takeOut n : Op _) s
    else takeOut n s := by
  rw [accept, get_bind]
  split
  · rfl
  · rfl

theorem takeOut_eq (n : Count) (s : Source) : takeOut n s = match s.window.popMany n with
    | .ok (c?, window) => .ok c? (passed n.value.toNat c? { s with window })
    | .error fault => .error (.fifo fault) s := by
  rw [takeOut, get_bind]
  cases s.window.popMany n with
  | error fault => rfl
  | ok taken =>
    obtain ⟨c?, window⟩ := taken
    cases c? <;> rfl

def Refilled (n : Count) (s t : Source) : Prop :=
  if s.window.size < n.value then ∃ c?, Source.lookAhead (n.value - 1 : Int) s = .ok c? t
  else t = s

section Taking

variable {t : Source} {n : Count}

theorem accept_of_refilled (h : Refilled n s t) : Source.accept n s = takeOut n t := by
  rw [accept_eq]
  unfold Refilled at h
  split at h
  · rename_i hshort
    obtain ⟨c?, hlook⟩ := h
    rw [if_pos hshort, bind_of_ok hlook]
  · rename_i hheld
    rw [if_neg hheld, h]

theorem accept_of_popMany {c? : Option Char} {window : Fifo (Option Char)} (h : Refilled n s t)
    (hpop : t.window.popMany n = .ok (c?, window)) :
    Source.accept n s = .ok c? (passed n.value.toNat c? { t with window }) := by
  rw [accept_of_refilled h, takeOut_eq, hpop]

theorem accept_of_popMany_error {fault : Fifo.Fault} (h : Refilled n s t)
    (hpop : t.window.popMany n = .error fault) :
    Source.accept n s = .error (.fifo fault) t := by
  rw [accept_of_refilled h, takeOut_eq, hpop]

end Taking

theorem At.refilled (h : At u k s) {n : Count} (hwindow : n.value ≤ s.window.capacity) :
    ∃ t j, Refilled n s t ∧ At u j t ∧ Stays s t ∧ min n.value (u.length + 1) ≤ j := by
  have hsize := h.size
  by_cases hshort : s.window.size < n.value
  · obtain ⟨t, j, hlook, hplace, hstays, hj⟩ :=
      h.lookAhead (n := (n.value - 1 : Int)) (by simp; omega) (by simp; omega)
    refine ⟨t, j, ?_, hplace, hstays, ?_⟩
    · rw [Refilled, if_pos hshort]
      exact ⟨_, hlook⟩
    · rw [Count.value_number] at hj
      omega
  · refine ⟨s, k, ?_, h, .refl s, by omega⟩
    rw [Refilled, if_neg hshort]

theorem At.accept_of_outside (h : At u k s) {n : Count} (hn : s.window.capacity < n.value) :
    Source.accept n s = .error
      (.breach (.outsideWindow (n.value - 1 : Int) s.window.shownCapacity)) s := by
  have hsize := h.size
  have hcapacity := h.le_capacity
  have hlook : Source.lookAhead (n.value - 1 : Int) s = _ :=
    lookAhead_of_outside (by rw [Count.value_number]; omega)
  rw [Source.accept, get_bind, if_pos (by omega), bind_of_error hlook]

theorem At.accept_of_invalid (h : At u k s) {n : Count} (hwindow : n.value ≤ s.window.capacity)
    (hn : n.value ≤ 0 ∨ u.length + 1 < n.value) :
    ∃ t j, Source.accept n s = .error (.fifo (.popCount n j)) t ∧ At u j t ∧ Stays s t := by
  obtain ⟨t, j, hrefilled, hplace, hstays, -⟩ := h.refilled hwindow
  have hle := hplace.le
  have hlength := hplace.length_window
  have hpop : t.window.popMany n = _ := hplace.window.popMany_of_invalid (by omega)
  rw [show t.window.count = j from hplace.size] at hpop
  exact ⟨t, j, accept_of_popMany_error hrefilled hpop, hplace, hstays⟩

/-- Taking returns the last of the characters taken, or the end when it is taken with them. -/
theorem At.accept (h : At u k s) (n : Nat) (count : Count) (hcount : count.value = n + 1)
    (hwindow : count.value ≤ s.window.capacity) (hend : n ≤ u.length) :
    ∃ t j, Source.accept count s = .ok u[n]? t ∧ At (u.drop (n + 1)) j t ∧
      Stays (s.passed (n + 1) u[n]?) t := by
  obtain ⟨t, j, hrefilled, hplace, hstays, hj⟩ := h.refilled hwindow
  have hnat : count.value.toNat = n + 1 := by omega
  have hitem : ((ahead u).take j)[n]? = some u[n]? := by
    rw [List.getElem?_take_of_lt (by omega), getElem?_ahead hend]
  have haccept := accept_of_popMany hrefilled (hplace.window.popMany hitem hcount)
  have hdropped := hplace.dropHeads (n := n + 1) (by omega)
  rw [hnat] at haccept
  have hkept : Stays s { t with window := Fifo.dropHeads (n + 1) t.window } :=
    ⟨hstays.line, hstays.column, (Fifo.capacity_dropHeads _ _).trans hstays.capacity⟩
  exact ⟨_, j - (n + 1), haccept, hdropped.passed _ _, hkept.passed _ _⟩

end Requests

inductive Request
  | lookAhead (n : Count)
  | accept (n : Count)
  | isEnd

inductive Reply
  | char (c? : Option Char)
  | truth (b : Bool)
  | outsideWindow (n : Count)
  | badCount (n : Count)
  | failed (fault : Fault)

def Reply.ofFault : Fault → Reply
  | .breach (.outsideWindow n _) => outsideWindow n
  | .fifo (.popCount n _) => badCount n
  | fault => failed fault

def Reply.ofResult {α : Type} (f : α → Reply) : EStateM.Result Fault Source α → Reply × Source
  | .ok a s => (f a, s)
  | .error fault s => (ofFault fault, s)

/-- An index into a text, with the line and the column told there. -/
structure Spot where
  index : Nat := 0
  line : Nat := 1
  column : Nat := 1

def Spot.pass (n : Nat) (last : Char) (p : Spot) : Spot :=
  if last = '\n' then ⟨p.index + n, p.line + 1, 1⟩ else ⟨p.index + n, p.line, p.column + n⟩

theorem Spot.index_pass (n : Nat) (last : Char) (p : Spot) : (p.pass n last).index = p.index + n := by
  unfold Spot.pass
  split <;> rfl

namespace Request

def run (q : Request) (s : Source) : Reply × Source :=
  match q with
  | lookAhead n => Reply.ofResult .char (Source.lookAhead n s)
  | accept n => Reply.ofResult .char (Source.accept n s)
  | isEnd => Reply.ofResult .truth (Source.isEnd s)

def runAt (capacity : Nat) (text : Text) (q : Request) (p : Spot) : Reply × Spot :=
  match q with
  | lookAhead n =>
    if 0 ≤ n.value ∧ n.value < capacity then (.char text[p.index + n.value.toNat]?, p)
    else (.outsideWindow n, p)
  | accept n =>
    if capacity < n.value then (.outsideWindow (n.value - 1 : Int), p)
    else if n.value ≤ 0 ∨ (text.length - p.index + 1 : Nat) < n.value then (.badCount n, p)
    else match text[p.index + n.value.toNat - 1]? with
      | some c => (.char (some c), p.pass n.value.toNat c)
      | none => (.char none, { p with index := text.length })
  | isEnd => (.truth (p.index == text.length), p)

end Request

def after (qs : List Request) (s : Source) : Source := qs.foldl (fun s q => (q.run s).2) s

def replies : List Request → Source → List (Reply × Nat × Nat)
  | [], _ => []
  | q :: qs, s =>
    let (reply, s) := q.run s
    (reply, s.line, s.column) :: replies qs s

def Request.repliesAt (capacity : Nat) (text : Text) :
    List Request → Spot → List (Reply × Nat × Nat)
  | [], _ => []
  | q :: qs, p =>
    let (reply, p) := q.runAt capacity text p
    (reply, p.line, p.column) :: repliesAt capacity text qs p

def Request.after (capacity : Nat) (text : Text) (qs : List Request) (p : Spot) : Spot :=
  qs.foldl (fun p q => (q.runAt capacity text p).2) p

structure AtSpot (capacity : Nat) (text : Text) (p : Spot) (s : Source) : Prop where
  capacity_pos : 0 < capacity
  capacity : s.window.capacity = capacity
  index_le : p.index ≤ text.length
  place : ∃ k, At (text.drop p.index) k s
  line : s.line = p.line
  column : s.column = p.column

section Spots

variable {capacity : Nat} {text : Text} {p : Spot} {s : Source}

theorem AtSpot.stays {t : Source} {j : Nat} (h : AtSpot capacity text p s) (hstays : Stays s t)
    (hplace : At (text.drop p.index) j t) : AtSpot capacity text p t :=
  ⟨h.capacity_pos, hstays.capacity.trans h.capacity, h.index_le, ⟨j, hplace⟩,
    hstays.line.trans h.line, hstays.column.trans h.column⟩

theorem AtSpot.pass {t : Source} {n j : Nat} {c : Char} (h : AtSpot capacity text p s)
    (hstays : Stays (s.pass n c) t) (hn : p.index + n ≤ text.length)
    (hplace : At (text.drop (p.index + n)) j t) : AtSpot capacity text (p.pass n c) t := by
  obtain ⟨hline, hcolumn, hcapacity⟩ := hstays
  have hindex := p.index_pass n c
  unfold Source.pass at hline hcolumn hcapacity
  refine ⟨h.capacity_pos, ?_, hindex ▸ hn, ⟨j, hindex ▸ hplace⟩, ?_, ?_⟩
  · rw [hcapacity, ← h.capacity]
    split <;> rfl
  · rw [hline, Spot.pass]
    split <;> simp [h.line]
  · rw [hcolumn, Spot.pass]
    split <;> simp [h.column]

theorem AtSpot.lookAhead (h : AtSpot capacity text p s) (n : Count) :
    ((Request.lookAhead n).run s).1 = ((Request.lookAhead n).runAt capacity text p).1 ∧
      AtSpot capacity text ((Request.lookAhead n).runAt capacity text p).2
        ((Request.lookAhead n).run s).2 := by
  obtain ⟨k, hplace⟩ := h.place
  simp only [Request.run, Request.runAt]
  by_cases hn : 0 ≤ n.value ∧ n.value < capacity
  · obtain ⟨t, j, hlook, hplace', hstays, -⟩ := hplace.lookAhead hn.1 (by rw [h.capacity]; exact hn.2)
    rw [if_pos hn, hlook, List.getElem?_drop]
    exact ⟨rfl, h.stays hstays hplace'⟩
  · rw [if_neg hn, lookAhead_of_outside (by rwa [h.capacity])]
    exact ⟨rfl, h⟩

theorem AtSpot.isEnd (h : AtSpot capacity text p s) :
    (Request.isEnd.run s).1 = (Request.isEnd.runAt capacity text p).1 ∧
      AtSpot capacity text (Request.isEnd.runAt capacity text p).2 (Request.isEnd.run s).2 := by
  obtain ⟨k, hplace⟩ := h.place
  have hle := h.index_le
  have hpos := h.capacity_pos
  obtain ⟨t, j, hend, hplace', hstays⟩ := hplace.isEnd (by rw [h.capacity]; exact hpos)
  have hempty : (text.drop p.index).isEmpty = (p.index == text.length) := by
    rw [Bool.eq_iff_iff, List.isEmpty_iff, List.drop_eq_nil_iff, beq_iff_eq]
    omega
  simp only [Request.run, Request.runAt]
  rw [hend, hempty]
  exact ⟨rfl, h.stays hstays hplace'⟩

theorem AtSpot.accept (h : AtSpot capacity text p s) (n : Count) :
    ((Request.accept n).run s).1 = ((Request.accept n).runAt capacity text p).1 ∧
      AtSpot capacity text ((Request.accept n).runAt capacity text p).2
        ((Request.accept n).run s).2 := by
  obtain ⟨k, hplace⟩ := h.place
  have hle := h.index_le
  have hlength : (text.drop p.index).length = text.length - p.index := List.length_drop
  simp only [Request.run, Request.runAt]
  by_cases houtside : capacity < n.value
  · rw [if_pos houtside, hplace.accept_of_outside (by rw [h.capacity]; exact houtside)]
    exact ⟨rfl, h⟩
  have hwindow : n.value ≤ s.window.capacity := by
    rw [h.capacity]
    omega
  rw [if_neg houtside]
  by_cases hbad : n.value ≤ 0 ∨ (text.length - p.index + 1 : Nat) < n.value
  · obtain ⟨t, j, haccept, hplace', hstays⟩ := hplace.accept_of_invalid hwindow (by omega)
    rw [if_pos hbad, haccept]
    exact ⟨rfl, h.stays hstays hplace'⟩
  obtain ⟨m, hm⟩ : ∃ m : Nat, n.value = m + 1 := ⟨n.value.toNat - 1, by omega⟩
  have hnat : n.value.toNat = m + 1 := by omega
  obtain ⟨t, j, haccept, hplace', hstays⟩ := hplace.accept m n hm hwindow (by omega)
  rw [List.getElem?_drop] at haccept hstays
  rw [List.drop_drop] at hplace'
  rw [if_neg hbad, haccept, hnat, ← Nat.add_assoc, Nat.add_sub_cancel]
  cases hlast : text[p.index + m]? with
  | some c =>
    have hlt := (List.getElem?_eq_some_iff.1 hlast).1
    rw [hlast] at hstays
    exact ⟨rfl, h.pass hstays (by omega) hplace'⟩
  | none =>
    have hover := List.getElem?_eq_none_iff.1 hlast
    rw [hlast] at hstays
    rw [List.drop_eq_nil_of_le (by omega)] at hplace'
    refine ⟨rfl, h.capacity_pos, hstays.capacity.trans h.capacity, Nat.le_refl _, ⟨j, ?_⟩,
      hstays.line.trans h.line, hstays.column.trans h.column⟩
    rwa [List.drop_length]

theorem AtSpot.run (h : AtSpot capacity text p s) (q : Request) :
    (q.run s).1 = (q.runAt capacity text p).1 ∧
      AtSpot capacity text (q.runAt capacity text p).2 (q.run s).2 := by
  cases q with
  | lookAhead n => exact h.lookAhead n
  | accept n => exact h.accept n
  | isEnd => exact h.isEnd

theorem AtSpot.after (h : AtSpot capacity text p s) (qs : List Request) :
    AtSpot capacity text (Request.after capacity text qs p) (after qs s) := by
  induction qs generalizing p s with
  | nil => exact h
  | cons q qs ih => exact ih (h.run q).2

theorem AtSpot.unaccepted (h : AtSpot capacity text p s) : s.unaccepted = text.drop p.index := by
  obtain ⟨k, hplace⟩ := h.place
  exact hplace.unaccepted

theorem AtSpot.replies (h : AtSpot capacity text p s) (qs : List Request) :
    replies qs s = Request.repliesAt capacity text qs p := by
  induction qs generalizing p s with
  | nil => rfl
  | cons q qs ih =>
    obtain ⟨hreply, hspot⟩ := h.run q
    simp only [Source.replies, Request.repliesAt, hreply, hspot.line, hspot.column, ih hspot]

end Spots

section Reading

variable {u : Text} {k : Nat} {s : Source}

theorem At.length_le (h : At u k s) : u.length ≤ k + s.stream.size := by
  cases hended : s.ended with
  | true =>
    have hlast := h.ended hended
    omega
  | false =>
    obtain ⟨-, hshows⟩ := h.unended hended
    have hsize := hshows.length_le
    rw [List.length_drop] at hsize
    omega

theorem At.acceptUpTo {fuel : Nat} (h : At u k s) (hwindow : 0 < s.window.capacity)
    (hfuel : u.length < fuel) (done : Text) :
    ∃ t, Source.acceptUpTo fuel done s = .ok (done.reverse ++ u) t := by
  induction u generalizing k s fuel done with
  | nil =>
    obtain ⟨fuel, rfl⟩ : ∃ n, fuel = n + 1 := ⟨fuel - 1, by omega⟩
    obtain ⟨t, j, hend, -, -⟩ := h.isEnd hwindow
    refine ⟨t, ?_⟩
    rw [Source.acceptUpTo, bind_of_ok hend, List.append_nil]
    rfl
  | cons c u ih =>
    obtain ⟨fuel, rfl⟩ : ∃ n, fuel = n + 1 := ⟨fuel - 1, by omega⟩
    obtain ⟨t, j, hend, hplace, hstays⟩ := h.isEnd hwindow
    have hcapacity := hstays.capacity
    obtain ⟨v, i, haccept, hplace', hstays'⟩ :=
      hplace.accept 0 (1 : Nat) rfl (by simp; omega) (Nat.zero_le _)
    have hcapacity' := hstays'.capacity
    rw [window_passed] at hcapacity'
    rw [List.length_cons] at hfuel
    obtain ⟨w, hw⟩ := ih hplace' (by omega) (by omega : u.length < fuel) (c :: done)
    refine ⟨w, ?_⟩
    rw [Source.acceptUpTo, bind_of_ok hend]
    show (Source.accept (1 : Nat) >>= fun
      | some c => Source.acceptUpTo fuel (c :: done)
      | none => Source.acceptUpTo fuel done) t = _
    rw [bind_of_ok haccept]
    simpa using hw

theorem At.acceptAll (h : At u k s) (hwindow : 0 < s.window.capacity) :
    ∃ t, Source.acceptAll s = .ok u t := by
  have hsize := h.size
  have hlength := h.length_le
  obtain ⟨t, ht⟩ := h.acceptUpTo hwindow
    (by omega : u.length < s.window.size + s.stream.size + 1) []
  exact ⟨t, ht⟩

end Reading

theorem at_start {stream : Input.CharStream} {t : Text} (h : stream.Delivers t) (name : Text)
    {size : Nat} (hsize : 1 ≤ size) :
    At (visible t) 0 { stream, name, window := Fifo.ofCapacity size } :=
  ⟨Nat.zero_le _, Fifo.holds_nil size hsize false, fun _ => ⟨Nat.zero_le _, t, h, rfl⟩, nofun⟩

theorem ofStream_int (stream : Input.CharStream) (name : Option Text) (config : Config) {size : Nat}
    (hsize : 1 ≤ size) : ofStream stream name (.int size) config =
      (Fifo.ofValue (.int size)).map fun window =>
        { stream, name := name.getD "<stream>".toList, window } := by
  have htruthy : (Json.int size).isTruthy = true := by
    simp [Json.isTruthy]
    omega
  rw [ofStream, if_pos htruthy]
  cases (Fifo.ofValue (.int size) : Except _ (Fifo (Option Char))) <;> rfl

theorem atSpot_start {stream : Input.CharStream} {t : Text} (h : stream.Delivers t) (name : Text)
    {size : Nat} (hsize : 1 ≤ size) :
    AtSpot size (visible t) {} { stream, name, window := Fifo.ofCapacity size } :=
  ⟨hsize, rfl, Nat.zero_le _, ⟨0, at_start h name hsize⟩, rfl, rfl⟩

theorem atSpot_ofStream {stream : Input.CharStream} {t : Text} (h : stream.Delivers t)
    (name : Option Text) (config : Config) {size : Nat} (hsize : 1 ≤ size) :
    match ofStream stream name (.int size) config with
    | .error _ => Fifo.memoryLimit ≤ size
    | .ok s => AtSpot size (visible t) {} s := by
  rw [ofStream_int stream name config hsize]
  obtain ⟨fault, hrefused, hmemory⟩ | hgiven := Fifo.ofValue_natCast (α := Option Char) hsize
  · rw [hrefused]
    exact hmemory
  · rw [hgiven]
    exact atSpot_start h (name.getD "<stream>".toList) hsize

/-- Every source of a stream that does not fail is an index into the text that the stream shows,
which starts at zero; taking all of it takes that text. -/
theorem replies_ofStream {stream : Input.CharStream} {t : Text} (h : stream.Delivers t)
    (name : Option Text) (config : Config) {size : Nat} (hsize : 1 ≤ size) :
    match ofStream stream name (.int size) config with
    | .error _ => Fifo.memoryLimit ≤ size
    | .ok s => (∀ qs, replies qs s = Request.repliesAt size (visible t) qs {}) ∧
        ∃ s', acceptAll s = .ok (visible t) s' := by
  have hstart := atSpot_ofStream h name config hsize
  cases hopen : ofStream stream name (.int size) config with
  | error _ =>
    rw [hopen] at hstart
    exact hstart
  | ok s =>
    rw [hopen] at hstart
    obtain ⟨k, hplace⟩ := hstart.place
    exact ⟨hstart.replies, hplace.acceptAll (hstart.capacity ▸ hsize)⟩

theorem replies_ofStream_returnBetween :
    ∃ s, ofStream (.memory { text := "a\r\nb".toList }) none (.int 2) {} = .ok s ∧
      (∀ qs, replies qs s = Request.repliesAt 2 "a\nb".toList qs {}) ∧
      ∃ s', acceptAll s = .ok "a\nb".toList s' := by
  have hdelivers : (Input.CharStream.memory { text := "a\r\nb".toList }).Delivers "a\r\nb".toList :=
    ⟨rfl, fun _ _ => rfl⟩
  have hsource := replies_ofStream hdelivers none {} (by decide : 1 ≤ 2)
  exact ⟨_, rfl, hsource⟩

end LineLexer.Source
