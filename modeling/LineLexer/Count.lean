/-! Numbers of things to take or skip, kept as they were given: a truth value stands for one or
zero and is shown as itself. -/

namespace LineLexer

inductive Count
  | number (n : Int)
  | truth (b : Bool)
  deriving DecidableEq

namespace Count

def value : Count → Int
  | number n => n
  | truth b => if b then 1 else 0

def shown : Count → String
  | number n => toString n
  | truth b => if b then "True" else "False"

instance : Coe Int Count := ⟨number⟩

instance : Coe Nat Count := ⟨fun n => number n⟩

@[simp] theorem value_number (n : Int) : (number n).value = n := rfl

end Count
end LineLexer
