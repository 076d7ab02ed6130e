import LineLexer.Proofs.FifoContents

/-!
# A buffer is a bounded list

Requests put to a buffer one after the other get the replies of a list that
holds so many items and no more. A request that is refused leaves every cell as
it was, and taking several items at once leaves the cells that are left when
they are taken one by one.
-/

namespace LineLexer.Fifo

variable {α : Type}

inductive Request (α : Type)
  | push (item : α)
  | pop
  | popMany (n : Count)
  | peek (n : Count)
  | isEmpty
  | isFull
  | size

inductive Reply (α : Type)
  | done
  | item (x : α)
  | truth (b : Bool)
  | number (n : Nat)

namespace Request

def run (q : Request α) (f : Fifo α) : Except Fault (Reply α × Fifo α) :=
  match q with
  | push item => (f.push item).map fun g => (.done, g)
  | pop => f.pop.map fun taken => (.item taken.1, taken.2)
  | popMany n => (f.popMany n).map fun taken => (.item taken.1, taken.2)
  | peek n => (f.peek n).map fun x => (.item x, f)
  | isEmpty => .ok (.truth f.isEmpty, f)
  | isFull => .ok (.truth f.isFull, f)
  | size => .ok (.number f.size, f)

def runOn (capacity : Nat) (q : Request α) (xs : List α) : Except Fault (Reply α × List α) :=
  match q with
  | push item =>
    if xs.length = capacity then .error (.full capacity) else .ok (.done, xs ++ [item])
  | pop => match xs with
    | [] => .error .empty
    | x :: rest => .ok (.item x, rest)
  | popMany n =>
    if h : 1 ≤ n.value ∧ n.value ≤ xs.length then
      .ok (.item (xs.get ⟨n.value.toNat - 1, by omega⟩), xs.drop n.value.toNat)
    else .error (.popCount n xs.length)
  | peek n =>
    if h : 0 ≤ n.value ∧ n.value < xs.length then .ok (.item (xs.get ⟨n.value.toNat, by omega⟩), xs)
    else .error (.peekOffset n xs.length)
  | isEmpty => .ok (.truth (xs.length == 0), xs)
  | isFull => .ok (.truth (xs.length == capacity), xs)
  | size => .ok (.number xs.length, xs)

end Request

def left {σ : Type} (s : σ) : Except Fault (Reply α × σ) → σ
  | .ok (_, t) => t
  | .error _ => s

def after (qs : List (Request α)) (f : Fifo α) : Fifo α :=
  qs.foldl (fun f q => left f (q.run f)) f

def replies : List (Request α) → Fifo α → List (Except Fault (Reply α))
  | [], _ => []
  | q :: qs, f => (q.run f).map Prod.fst :: replies qs (left f (q.run f))

def Request.repliesOn (capacity : Nat) :
    List (Request α) → List α → List (Except Fault (Reply α))
  | [], _ => []
  | q :: qs, xs => (q.runOn capacity xs).map Prod.fst ::
      repliesOn capacity qs (left xs (q.runOn capacity xs))

structure Queues (capacity : Nat) (xs : List α) (f : Fifo α) : Prop where
  holds : f.Holds xs
  capacity : f.capacity = capacity
  givenAsNumber : f.givenAsTruth = false

/-- Both give the same reply and end with the same items, or both refuse for the same reason. -/
inductive Agree (capacity : Nat) :
    Except Fault (Reply α × Fifo α) → Except Fault (Reply α × List α) → Prop
  | answered {f : Fifo α} {xs : List α} (reply : Reply α) (h : Queues capacity xs f) :
      Agree capacity (.ok (reply, f)) (.ok (reply, xs))
  | refused (fault : Fault) : Agree capacity (.error fault) (.error fault)

section Requests

variable {capacity : Nat} {f : Fifo α} {xs : List α}

theorem Agree.reply_eq {x : Except Fault (Reply α × Fifo α)} {y : Except Fault (Reply α × List α)}
    (h : Agree capacity x y) : x.map Prod.fst = y.map Prod.fst := by
  cases h <;> rfl

theorem Agree.left {x : Except Fault (Reply α × Fifo α)} {y : Except Fault (Reply α × List α)}
    (h : Agree capacity x y) (hstart : Queues capacity xs f) :
    Queues capacity (left xs y) (left f x) := by
  cases h with
  | answered reply hkept => exact hkept
  | refused fault => exact hstart

@[simp] theorem givenAsTruth_dropHeads (n : Nat) (f : Fifo α) :
    (dropHeads n f).givenAsTruth = f.givenAsTruth := by
  induction n generalizing f with
  | zero => rfl
  | succ n ih => exact ih f.dropHead

theorem Queues.dropHeads {n : Nat} (h : Queues capacity xs f) (hn : n ≤ xs.length) :
    Queues capacity (xs.drop n) (Fifo.dropHeads n f) :=
  ⟨h.holds.dropHeads hn, (capacity_dropHeads n f).trans h.capacity,
    (givenAsTruth_dropHeads n f).trans h.givenAsNumber⟩

theorem Queues.length_le (h : Queues capacity xs f) : xs.length ≤ capacity :=
  h.capacity ▸ h.holds.length_le

theorem Queues.push (h : Queues capacity xs f) (item : α) :
    Agree capacity ((Request.push item).run f) ((Request.push item).runOn capacity xs) := by
  have hcapacity := h.capacity
  simp only [Request.run, Request.runOn]
  by_cases hfull : xs.length = capacity
  · have hshown : f.shownCapacity = capacity := by
      rw [shownCapacity, h.givenAsNumber, if_neg Bool.false_ne_true, hcapacity]
    rw [if_pos hfull, h.holds.push_of_full (hfull.trans hcapacity.symm), hshown]
    exact .refused _
  · have hle := h.length_le
    have hcount := h.holds.count
    obtain ⟨g, hpush, hholds, hkept⟩ := h.holds.push (by omega) item
    have hg : g.givenAsTruth = f.givenAsTruth := by
      rw [push_of_room (by omega)] at hpush
      injection hpush with hpush
      rw [← hpush]
    rw [if_neg hfull, hpush]
    exact .answered .done ⟨hholds, hkept.trans hcapacity, hg.trans h.givenAsNumber⟩

theorem Queues.pop (h : Queues capacity xs f) :
    Agree capacity (Request.pop.run f) (Request.pop.runOn capacity xs) := by
  have hat := h.holds.at? 0
  simp only [Request.run, Request.runOn, Fifo.pop]
  cases xs with
  | nil =>
    rw [hat]
    exact .refused .empty
  | cons x rest =>
    rw [hat]
    exact .answered (.item x) ⟨h.holds.dropHead, h.capacity, h.givenAsNumber⟩

theorem Queues.popMany (h : Queues capacity xs f) (n : Count) :
    Agree capacity ((Request.popMany n).run f) ((Request.popMany n).runOn capacity xs) := by
  simp only [Request.run, Request.runOn]
  by_cases hn : 1 ≤ n.value ∧ n.value ≤ xs.length
  · have hlt : n.value.toNat - 1 < xs.length := by omega
    have hnat : n.value.toNat - 1 + 1 = n.value.toNat := by omega
    rw [dif_pos hn, h.holds.popMany (List.getElem?_eq_getElem hlt) (by omega), hnat]
    exact .answered _ (h.dropHeads (by omega))
  · rw [dif_neg hn, h.holds.popMany_of_invalid (by omega), h.holds.count]
    exact .refused _

theorem Queues.peek (h : Queues capacity xs f) (n : Count) :
    Agree capacity ((Request.peek n).run f) ((Request.peek n).runOn capacity xs) := by
  simp only [Request.run, Request.runOn]
  by_cases hn : 0 ≤ n.value ∧ n.value < xs.length
  · have hlt : n.value.toNat < xs.length := by omega
    rw [dif_pos hn, h.holds.peek (List.getElem?_eq_getElem hlt) (by omega)]
    exact .answered _ h
  · rw [dif_neg hn, h.holds.peek_of_invalid (by omega), h.holds.count]
    exact .refused _

theorem Queues.run (h : Queues capacity xs f) (q : Request α) :
    Agree capacity (q.run f) (q.runOn capacity xs) := by
  have hcount := h.holds.count
  cases q with
  | push item => exact h.push item
  | pop => exact h.pop
  | popMany n => exact h.popMany n
  | peek n => exact h.peek n
  | isEmpty =>
    have hempty : f.isEmpty = (xs.length == 0) := by rw [Fifo.isEmpty, hcount]
    rw [Request.run, hempty]
    exact .answered _ h
  | isFull =>
    have hle := h.length_le
    have hfull : f.isFull = (xs.length == capacity) := by
      rw [Fifo.isFull, h.capacity, hcount, Bool.eq_iff_iff, decide_eq_true_eq, beq_iff_eq]
      omega
    rw [Request.run, hfull]
    exact .answered _ h
  | size =>
    rw [Request.run, Fifo.size, hcount]
    exact .answered _ h

theorem Queues.left (h : Queues capacity xs f) (q : Request α) :
    Queues capacity (left xs (q.runOn capacity xs)) (left f (q.run f)) :=
  (h.run q).left h

theorem Queues.replies (h : Queues capacity xs f) (qs : List (Request α)) :
    replies qs f = Request.repliesOn capacity qs xs := by
  induction qs generalizing f xs with
  | nil => rfl
  | cons q qs ih =>
    rw [Fifo.replies, Request.repliesOn, (h.run q).reply_eq, ih (h.left q)]

theorem Queues.after (h : Queues capacity xs f) (qs : List (Request α)) :
    ∃ ys, Queues capacity ys (after qs f) := by
  induction qs generalizing f xs with
  | nil => exact ⟨xs, h⟩
  | cons q qs ih => exact ih (h.left q)

end Requests

structure Ordered (f : Fifo α) : Prop where
  size_cells : f.cells.size = f.capacity
  count_le : f.count ≤ f.capacity
  head_lt : f.head < f.capacity
  tail_lt : f.tail < f.capacity
  tail : f.tail = (f.head + f.count) % f.capacity
  vacant : ∀ cell < f.capacity, (∀ i < f.count, (f.head + i) % f.capacity ≠ cell) →
    f.cells[cell]? = some none

theorem exists_offset {capacity head cell : Nat} (hhead : head < capacity)
    (hcell : cell < capacity) : ∃ i < capacity, (head + i) % capacity = cell := by
  by_cases hle : head ≤ cell
  · refine ⟨cell - head, by omega, ?_⟩
    rw [Nat.add_sub_cancel' hle, Nat.mod_eq_of_lt hcell]
  · refine ⟨capacity - head + cell, by omega, ?_⟩
    have hsum : head + (capacity - head + cell) = cell + capacity := by omega
    rw [hsum, Nat.add_mod_right, Nat.mod_eq_of_lt hcell]

theorem Holds.ordered {f : Fifo α} {xs : List α} (h : f.Holds xs) : Ordered f := by
  have hcount := h.count
  have hle := h.length_le
  have hhead := h.head_lt
  refine ⟨h.size_cells, by omega, hhead, ?_, h.tail, ?_⟩
  · rw [h.tail]
    exact Nat.mod_lt _ (by omega)
  · intro cell hcell hfree
    obtain ⟨i, hi, hplace⟩ := exists_offset hhead hcell
    have hover : xs.length ≤ i := by
      by_contra hlt
      exact hfree i (by omega) hplace
    rw [← hplace, h.cells i hi, List.getElem?_eq_none hover]

def popEach : Nat → Fifo α → Except Fault (Fifo α)
  | 0, f => .ok f
  | n + 1, f => match f.pop with
    | .ok (_, g) => popEach n g
    | .error fault => .error fault

theorem Holds.popEach {f : Fifo α} {xs : List α} {n : Nat} (h : f.Holds xs)
    (hn : n ≤ xs.length) : popEach n f = .ok (Fifo.dropHeads n f) := by
  induction n generalizing f xs with
  | zero => rfl
  | succ n ih =>
    cases xs with
    | nil => simp at hn
    | cons x rest =>
      have hat : f.at? 0 = some x := h.at? 0
      have hpop : f.pop = .ok (x, f.dropHead) := by rw [pop, hat]
      rw [Fifo.popEach, hpop]
      exact ih h.dropHead (by simpa using hn)

theorem Holds.popMany_eq_popEach {f : Fifo α} {xs : List α} (h : f.Holds xs) {n : Count}
    (hn : 1 ≤ n.value) (hsize : n.value ≤ f.size) :
    ∃ x g, f.popMany n = .ok (x, g) ∧ Fifo.popEach n.value.toNat f = .ok g := by
  have hcount := h.count
  rw [size] at hsize
  have hlt : n.value.toNat - 1 < xs.length := by omega
  have hnat : n.value.toNat - 1 + 1 = n.value.toNat := by omega
  have hpop : f.popMany n = _ := h.popMany (List.getElem?_eq_getElem hlt) (by omega)
  rw [hnat] at hpop
  exact ⟨_, _, hpop, h.popEach (by omega)⟩

theorem queues_ofValue {capacity : Nat} (hpos : 1 ≤ capacity) :
    match (ofValue (.int capacity) : Except Config.Fault (Fifo α)) with
    | .error _ => memoryLimit ≤ capacity
    | .ok f => Queues capacity [] f := by
  obtain ⟨fault, hrefused, hmemory⟩ | hgiven := ofValue_natCast (α := α) hpos
  · rw [hrefused]
    exact hmemory
  · rw [hgiven]
    exact ⟨holds_nil capacity hpos false, rfl, rfl⟩

/-- A buffer replies as a list of its capacity, whatever it is asked for. -/
theorem replies_ofValue {capacity : Nat} (hpos : 1 ≤ capacity) :
    match (ofValue (.int capacity) : Except Config.Fault (Fifo α)) with
    | .error _ => memoryLimit ≤ capacity
    | .ok f => ∀ qs : List (Request α),
        replies qs f = Request.repliesOn capacity qs [] ∧ Ordered (after qs f) ∧
        (after qs f).capacity = capacity ∧
        (∀ q fault, q.run (after qs f) = .error fault → after (qs ++ [q]) f = after qs f) ∧
        ∀ n : Count, 1 ≤ n.value → n.value ≤ (after qs f).size →
          ∃ x g, (after qs f).popMany n = .ok (x, g) ∧ popEach n.value.toNat (after qs f) = .ok g := by
  have hstart := queues_ofValue (α := α) hpos
  cases hvalue : (ofValue (.int capacity) : Except Config.Fault (Fifo α)) with
  | error fault =>
    rw [hvalue] at hstart
    exact hstart
  | ok f =>
    rw [hvalue] at hstart
    intro qs
    obtain ⟨xs, hqueues⟩ := hstart.after qs
    refine ⟨hstart.replies qs, hqueues.holds.ordered, hqueues.capacity, ?_,
      fun n => hqueues.holds.popMany_eq_popEach⟩
    intro q fault hrefused
    have hlast : after (qs ++ [q]) f = left (after qs f) (q.run (after qs f)) := by
      rw [after, List.foldl_append]
      rfl
    rw [hlast, hrefused]
    rfl

theorem replies_ofValue_wrapped :
    ∃ f, ofValue (.int 2) = .ok f ∧ ∀ qs : List (Request (Option Char)),
      replies qs f = Request.repliesOn 2 qs [] ∧ Ordered (after qs f) ∧
      (after qs f).capacity = 2 ∧
      (∀ q fault, q.run (after qs f) = .error fault → after (qs ++ [q]) f = after qs f) ∧
      ∀ n : Count, 1 ≤ n.value → n.value ≤ (after qs f).size →
        ∃ x g, (after qs f).popMany n = .ok (x, g) ∧ popEach n.value.toNat (after qs f) = .ok g := by
  have hbuffer := replies_ofValue (α := Option Char) (by decide : 1 ≤ 2)
  exact ⟨_, rfl, hbuffer⟩

end LineLexer.Fifo
