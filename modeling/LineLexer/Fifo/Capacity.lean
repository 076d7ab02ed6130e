import LineLexer.Config
import LineLexer.Fifo

/-! The capacity of a buffer as it is asked for: a positive whole number, no larger than memory
allows. -/

namespace LineLexer.Fifo

def indexLimit : Nat := Nat.pow 2 63

def memoryLimit : Nat := Nat.pow 2 40

def ofValue {α : Type} (v : Json) : Except Config.Fault (Fifo α) := do
  if ← Config.liftMisuse (v.isBelow false 0) then throw (.capacity v)
  match v with
  | .bool _ => return { capacity := 1, givenAsTruth := true }
  | .int n =>
    if indexLimit ≤ n then throw (.misuse .sizeTooLarge)
    else if memoryLimit ≤ n then throw (.misuse .noMemory)
    else return ofCapacity n.toNat
  | v => throw (.misuse (.sizeKind v.kind))

end LineLexer.Fifo
