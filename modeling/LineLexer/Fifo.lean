import LineLexer.Count

/-! A first-in first-out buffer of fixed capacity in an array whose first and last cells are
neighbours. `head` is the cell of the oldest item, `tail` the cell that the next one goes to, and
cells without an item are empty. -/

namespace LineLexer

structure Fifo (α : Type) where
  capacity : Nat
  /-- the capacity was given as a truth value, which can only have been true -/
  givenAsTruth : Bool := false
  cells : Array (Option α) := Array.replicate capacity none
  head : Nat := 0
  tail : Nat := 0
  count : Nat := 0

namespace Fifo

inductive Fault
  | full (capacity : Count)
  | empty
  | popCount (n : Count) (size : Nat)
  | peekOffset (n : Count) (size : Nat)
  deriving DecidableEq

def Fault.message : Fault → String
  | full capacity => s!"push on full buffer (capacity {capacity.shown})"
  | empty => "pop on empty buffer"
  | popCount n size => s!"invalid pop count {n.shown} (size {size})"
  | peekOffset n size => s!"invalid peek offset {n.shown} (size {size})"

variable {α : Type}

def ofCapacity (capacity : Nat) : Fifo α := { capacity }

def shownCapacity (f : Fifo α) : Count :=
  if f.givenAsTruth then .truth true else .number f.capacity

def isEmpty (f : Fifo α) : Bool := f.count == 0

def isFull (f : Fifo α) : Bool := f.capacity ≤ f.count

def size (f : Fifo α) : Nat := f.count

def next (f : Fifo α) (cell : Nat) : Nat := (cell + 1) % f.capacity

def push (f : Fifo α) (item : α) : Except Fault (Fifo α) :=
  if f.isFull then .error (.full f.shownCapacity)
  else .ok { f with
    cells := f.cells.setIfInBounds f.tail (some item)
    tail := f.next f.tail
    count := f.count + 1 }

def at? (f : Fifo α) (n : Nat) : Option α :=
  if n < f.count then (f.cells[(f.head + n) % f.capacity]?).join else none

def peek (f : Fifo α) (n : Count) : Except Fault α :=
  if n.value < 0 then .error (.peekOffset n f.count)
  else match f.at? n.value.toNat with
    | some item => .ok item
    | none => .error (.peekOffset n f.count)

def dropHead (f : Fifo α) : Fifo α :=
  { f with
    cells := f.cells.setIfInBounds f.head none
    head := f.next f.head
    count := f.count - 1 }

def dropHeads : Nat → Fifo α → Fifo α
  | 0, f => f
  | n + 1, f => dropHeads n f.dropHead

def pop (f : Fifo α) : Except Fault (α × Fifo α) :=
  match f.at? 0 with
  | some item => .ok (item, f.dropHead)
  | none => .error .empty

def popMany (f : Fifo α) (n : Count) : Except Fault (α × Fifo α) :=
  if n.value ≤ 0 then .error (.popCount n f.count)
  else match f.at? (n.value.toNat - 1) with
    | some item => .ok (item, dropHeads n.value.toNat f)
    | none => .error (.popCount n f.count)

def toList (f : Fifo α) : List α := (List.range f.count).filterMap f.at?

def shown (item : α → String) (f : Fifo α) : String :=
  let items := ", ".intercalate (f.toList.map item)
  s!"CharFifo([{items}], capacity={f.shownCapacity.shown})"

@[simp] theorem count_dropHead (f : Fifo α) : f.dropHead.count = f.count - 1 := rfl

theorem count_dropHeads (n : Nat) (f : Fifo α) : (dropHeads n f).count = f.count - n := by
  induction n generalizing f with
  | zero => rfl
  | succ n ih => simp only [dropHeads, ih, count_dropHead]; omega

end Fifo
end LineLexer
