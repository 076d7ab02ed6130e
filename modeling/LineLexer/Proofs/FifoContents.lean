import LineLexer.Fifo.Capacity
import Mathlib.Data.Nat.ModEq

/-!
# What a buffer holds

Counted from its head, the cells of a buffer are the items it holds and then
nothing, wherever the head stands in the array. Each operation is that of a
list: an item goes behind the last, and the first ones are taken away.
-/

namespace LineLexer.Fifo

variable {α : Type}

/-- The cells from the head on hold a list of items and nothing else. -/
structure Holds (f : Fifo α) (xs : List α) : Prop where
  size_cells : f.cells.size = f.capacity
  count : f.count = xs.length
  length_le : xs.length ≤ f.capacity
  head_lt : f.head < f.capacity
  tail : f.tail = (f.head + f.count) % f.capacity
  cells : ∀ i < f.capacity, f.cells[(f.head + i) % f.capacity]? = some xs[i]?

theorem eq_of_cell_eq {capacity head i j : Nat} (hi : i < capacity) (hj : j < capacity)
    (h : (head + i) % capacity = (head + j) % capacity) : i = j :=
  (Nat.ModEq.add_left_cancel' head h).eq_of_lt_of_lt hi hj

theorem holds_nil (capacity : Nat) (hpos : 0 < capacity) (givenAsTruth : Bool) :
    Holds ({ capacity, givenAsTruth } : Fifo α) [] := by
  refine ⟨by simp, rfl, Nat.zero_le _, hpos, by simp, fun i _ => ?_⟩
  have hlt : (0 + i) % capacity < (Array.replicate capacity (none : Option α)).size := by
    rw [Array.size_replicate]
    exact Nat.mod_lt _ hpos
  exact (Array.getElem?_eq_getElem hlt).trans (by simp)

theorem ofValue_int {n : Int} (hn : 0 < n) : (ofValue (.int n) : Except Config.Fault (Fifo α)) =
    if (indexLimit : Int) ≤ n then .error (.misuse .sizeTooLarge)
    else if (memoryLimit : Int) ≤ n then .error (.misuse .noMemory)
    else .ok (ofCapacity n.toNat) := by
  have hbelow : (Json.int n).isBelow false 0 = .ok false := by
    simp [Json.isBelow, Json.isBelow?, Json.isBelow?.compare, hn]
  unfold ofValue
  rw [hbelow]
  rfl

theorem ofValue_natCast {capacity : Nat} (hpos : 1 ≤ capacity) :
    (∃ fault, (ofValue (.int capacity) : Except Config.Fault (Fifo α)) = .error fault ∧
      memoryLimit ≤ capacity) ∨
    (ofValue (.int capacity) : Except Config.Fault (Fifo α)) = .ok (ofCapacity capacity) := by
  have hlimits : memoryLimit ≤ indexLimit := by decide
  rw [ofValue_int (Int.ofNat_lt.2 hpos)]
  by_cases hmemory : (memoryLimit : Int) ≤ capacity
  · left
    by_cases hindex : (indexLimit : Int) ≤ capacity
    · exact ⟨_, if_pos hindex, Int.ofNat_le.1 hmemory⟩
    · rw [if_neg hindex]
      exact ⟨_, if_pos hmemory, Int.ofNat_le.1 hmemory⟩
  · right
    have hindex : ¬(indexLimit : Int) ≤ capacity := by omega
    rw [if_neg hindex, if_neg hmemory, Int.toNat_natCast]

section Contents

variable {f : Fifo α} {xs : List α}

theorem Holds.at? (h : f.Holds xs) (n : Nat) : f.at? n = xs[n]? := by
  unfold Fifo.at?
  by_cases hn : n < f.count
  · have hle := h.length_le
    have hcount := h.count
    rw [if_pos hn, h.cells n (by omega)]
    rfl
  · have hlen : xs.length ≤ n := by
      have hcount := h.count
      omega
    rw [if_neg hn, List.getElem?_eq_none hlen]

theorem Holds.toList (h : f.Holds xs) : f.toList = xs := by
  have hitems : ∀ xs : List α, (List.range xs.length).filterMap (fun n => xs[n]?) = xs := by
    intro xs
    induction xs with
    | nil => rfl
    | cons x xs ih =>
      rw [List.length_cons, List.range_succ_eq_map, List.filterMap_cons]
      simpa [List.filterMap_map, Function.comp_def] using ih
  rw [Fifo.toList, h.count, funext h.at?]
  exact hitems xs

theorem Holds.push_of_full (h : f.Holds xs) (hfull : xs.length = f.capacity) (x : α) :
    f.push x = .error (.full f.shownCapacity) := by
  have hcount := h.count
  simp [push, isFull, hcount, hfull]

theorem push_of_room (hroom : f.count < f.capacity) (x : α) :
    f.push x = .ok { f with
      cells := f.cells.setIfInBounds f.tail (some x)
      tail := f.next f.tail
      count := f.count + 1 } := by
  have hnot : f.isFull = false := by simp [isFull, hroom]
  rw [Fifo.push, hnot]
  rfl

theorem Holds.push (h : f.Holds xs) (hroom : xs.length < f.capacity) (x : α) :
    ∃ g, f.push x = .ok g ∧ g.Holds (xs ++ [x]) ∧ g.capacity = f.capacity := by
  have hcount := h.count
  refine ⟨_, push_of_room (by omega) x, ⟨?_, ?_, ?_, h.head_lt, ?_, ?_⟩, rfl⟩
  · simp [h.size_cells]
  · simp [hcount]
  · rw [List.length_append]
    exact hroom
  · show f.next f.tail = (f.head + (f.count + 1)) % f.capacity
    rw [next, h.tail, Nat.mod_add_mod, Nat.add_assoc]
  · intro i hi
    have hi : i < f.capacity := hi
    show (f.cells.setIfInBounds f.tail (some x))[(f.head + i) % f.capacity]? = _
    rw [Array.getElem?_setIfInBounds, h.tail, h.size_cells]
    by_cases hlast : i = xs.length
    · have hlt : (f.head + i) % f.capacity < f.capacity := Nat.mod_lt _ (by omega)
      rw [hcount, ← hlast, if_pos rfl, if_pos hlt, hlast]
      simp
    · have hcell : ¬(f.head + f.count) % f.capacity = (f.head + i) % f.capacity := by
        intro heq
        have hsame := eq_of_cell_eq (by omega) hi heq
        omega
      rw [if_neg hcell, h.cells i hi]
      by_cases hbefore : i < xs.length
      · rw [List.getElem?_append_left hbefore]
      · have hover : (xs ++ [x]).length ≤ i := by
          rw [List.length_append, List.length_singleton]
          omega
        rw [List.getElem?_eq_none (by omega), List.getElem?_eq_none hover]

theorem Holds.dropHead {x : α} (h : f.Holds (x :: xs)) : f.dropHead.Holds xs := by
  have hcount := h.count
  have hle := h.length_le
  have hhead := h.head_lt
  rw [List.length_cons] at hcount hle
  have hshift (i : Nat) : (f.next f.head + i) % f.capacity = (f.head + (i + 1)) % f.capacity := by
    rw [next, Nat.mod_add_mod, Nat.add_assoc, Nat.add_comm 1 i]
  refine ⟨by simp [Fifo.dropHead, h.size_cells], by simp [hcount], by simp [Fifo.dropHead]; omega,
    Nat.mod_lt _ (by omega), ?_, ?_⟩
  · have hnext : f.count - 1 + 1 = f.count := by omega
    show f.tail = (f.next f.head + (f.count - 1)) % f.capacity
    rw [hshift, hnext, h.tail]
  · intro i hi
    have hi : i < f.capacity := hi
    show (f.cells.setIfInBounds f.head none)[(f.next f.head + i) % f.capacity]? = _
    rw [hshift, Array.getElem?_setIfInBounds]
    by_cases hlast : i + 1 = f.capacity
    · have hcell : (f.head + (i + 1)) % f.capacity = f.head := by
        rw [hlast, Nat.add_mod_right, Nat.mod_eq_of_lt hhead]
      rw [hcell, if_pos rfl, h.size_cells, if_pos hhead, List.getElem?_eq_none (by omega)]
    · have hcell : ¬f.head = (f.head + (i + 1)) % f.capacity := by
        intro heq
        have hzero : (f.head + 0) % f.capacity = (f.head + (i + 1)) % f.capacity := by
          rw [← heq, Nat.add_zero, Nat.mod_eq_of_lt hhead]
        have := eq_of_cell_eq (by omega) (by omega) hzero
        omega
      rw [if_neg hcell, h.cells (i + 1) (by omega), List.getElem?_cons_succ]

theorem Holds.dropHeads {n : Nat} (h : f.Holds xs) (hn : n ≤ xs.length) :
    (dropHeads n f).Holds (xs.drop n) := by
  induction n generalizing f xs with
  | zero => exact h
  | succ n ih =>
    cases xs with
    | nil => simp at hn
    | cons x xs => exact ih h.dropHead (by simpa using hn)

@[simp] theorem capacity_dropHeads (n : Nat) (f : Fifo α) : (dropHeads n f).capacity = f.capacity := by
  induction n generalizing f with
  | zero => rfl
  | succ n ih => exact ih f.dropHead

theorem Holds.peek {n : Nat} {x : α} {offset : Count} (h : f.Holds xs) (hx : xs[n]? = some x)
    (hn : offset.value = n) : f.peek offset = .ok x := by
  have hnot : ¬offset.value < 0 := by omega
  have hnat : offset.value.toNat = n := by omega
  have hat : f.at? n = some x := (h.at? n).trans hx
  simp only [Fifo.peek, hnot, if_false, hnat, hat]

theorem Holds.popMany {n : Nat} {x : α} {count : Count} (h : f.Holds xs) (hx : xs[n]? = some x)
    (hn : count.value = n + 1) : f.popMany count = .ok (x, Fifo.dropHeads (n + 1) f) := by
  have hpos : ¬count.value ≤ 0 := by omega
  have hnat : count.value.toNat = n + 1 := by omega
  have hat : f.at? (n + 1 - 1) = some x := (h.at? n).trans hx
  simp only [Fifo.popMany, hpos, if_false, hnat, hat]

theorem Holds.popMany_of_invalid (h : f.Holds xs) {count : Count}
    (hn : count.value ≤ 0 ∨ xs.length < count.value) :
    f.popMany count = .error (.popCount count f.count) := by
  unfold Fifo.popMany
  by_cases hpos : count.value ≤ 0
  · rw [if_pos hpos]
  · have hlen : xs.length ≤ count.value.toNat - 1 := by omega
    have hat : f.at? (count.value.toNat - 1) = none :=
      (h.at? _).trans (List.getElem?_eq_none hlen)
    rw [if_neg hpos, hat]

theorem Holds.peek_of_invalid (h : f.Holds xs) {offset : Count}
    (hn : offset.value < 0 ∨ xs.length ≤ offset.value) :
    f.peek offset = .error (.peekOffset offset f.count) := by
  unfold Fifo.peek
  by_cases hneg : offset.value < 0
  · rw [if_pos hneg]
  · have hat : f.at? offset.value.toNat = none :=
      (h.at? _).trans (List.getElem?_eq_none (by omega))
    rw [if_neg hneg, hat]

end Contents

end LineLexer.Fifo
