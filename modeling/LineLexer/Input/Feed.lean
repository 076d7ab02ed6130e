import LineLexer.Input.Fault

/-! The results of reading something piece by piece: first those listed, one per read, and
from then on the same steady result, which is the end of the data or a lasting failure. A read
that fails does not keep later reads from delivering. -/

namespace LineLexer.Input

structure Feed (α : Type) where
  results : List (Except Fault α)
  last : Option Fault := none

namespace Feed

variable {α : Type}

def read (f : Feed α) : Except Fault (Option α) × Feed α :=
  match f.results with
  | [] => match f.last with
    | none => (.ok none, f)
    | some fault => (.error fault, f)
  | .ok piece :: rest => (.ok (some piece), { f with results := rest })
  | .error fault :: rest => (.error fault, { f with results := rest })

def pieces (f : Feed α) : List α :=
  f.results.filterMap fun
    | .ok piece => some piece
    | .error _ => none

def Clean (f : Feed α) : Prop := f.last = none ∧ ∀ r ∈ f.results, ∃ piece, r = .ok piece

end Feed

def readSize : Nat := 8192

def chunks (bytes : Bytes) : List Bytes :=
  match bytes with
  | [] => []
  | b :: r => (b :: r).take readSize :: chunks ((b :: r).drop readSize)
termination_by bytes.length
decreasing_by simp only [readSize, List.length_drop, List.length_cons]; omega

def Feed.ofBytes (bytes : Bytes) : Feed Bytes := ⟨(chunks bytes).map .ok, none⟩

end LineLexer.Input
