import LineLexer.Decimal.Shortest
import LineLexer.Text.Quoted

/-! Values as a settings file holds them. Whole numbers and floating-point numbers are kept
apart, and an object keeps the order of its keys. -/

namespace LineLexer

inductive Json
  | null
  | bool (b : Bool)
  | int (n : Int)
  | float (x : Float)
  | text (s : Text)
  | list (items : List Json)
  | object (fields : List (Text × Json))
  deriving Inhabited

namespace Json

def kind : Json → String
  | null => "NoneType"
  | bool _ => "bool"
  | int _ => "int"
  | float _ => "float"
  | text _ => "str"
  | list _ => "list"
  | object _ => "dict"

def isTruthy : Json → Bool
  | null => false
  | bool b => b
  | int n => n != 0
  | float x => x != 0.0
  | text s => !s.isEmpty
  | list xs => !xs.isEmpty
  | object fs => !fs.isEmpty

def commaSeparated : List String → String
  | [] => ""
  | [s] => s
  | s :: t :: r => s ++ ", " ++ commaSeparated (t :: r)

mutual

def shown : Json → String
  | null => "None"
  | bool b => if b then "True" else "False"
  | int n => toString n
  | float x => Decimal.ofFloat x
  | text s => s.quoted
  | list xs => "[" ++ commaSeparated (shownItems xs) ++ "]"
  | object fs => "\x7b" ++ commaSeparated (shownFields fs) ++ "\x7d"

def shownItems : List Json → List String
  | [] => []
  | x :: xs => shown x :: shownItems xs

def shownFields : List (Text × Json) → List String
  | [] => []
  | (k, v) :: fs => (k.quoted ++ ": " ++ shown v) :: shownFields fs

end

def shownTuple (xs : List Json) : String :=
  match xs with
  | [x] => "(" ++ x.shown ++ ",)"
  | xs => "(" ++ commaSeparated (shownItems xs) ++ ")"

def parts? : Json → Option (List Json)
  | text s => some (s.map fun c => text [c])
  | list xs => some xs
  | object fs => some (fs.map fun f => text f.1)
  | _ => none

def size? : Json → Option Nat
  | text s => some s.length
  | list xs => some xs.length
  | object fs => some fs.length
  | _ => none

def isBelow? (strict : Bool) (bound : Int) : Json → Option Bool
  | bool b => some (compare (if b then 1 else 0))
  | int n => some (compare n)
  | float x =>
    let limit := Float.ofInt bound
    some (if strict then x < limit else x ≤ limit)
  | _ => none
where
  compare (n : Int) : Bool := if strict then n < bound else n ≤ bound

def whole? : Json → Option Int
  | bool b => some (if b then 1 else 0)
  | int n => some n
  | _ => none

/-- A later field replaces an earlier one of the same name and keeps its place. -/
def insertField (fields : List (Text × Json)) (key : Text) (value : Json) : List (Text × Json) :=
  if fields.any (·.1 = key) then fields.map fun f => if f.1 = key then (key, value) else f
  else fields ++ [(key, value)]

def field? (fields : List (Text × Json)) (key : Text) : Option Json :=
  (fields.find? (·.1 = key)).map (·.2)

end Json
end LineLexer
