import LineLexer.FileSystem

/-! Places in files, and texts found there. Lines and columns count from one. Two locations are
equal when line and column are and both name the same file, whatever names they use for it. -/

namespace LineLexer

structure Location where
  file : Text
  line : Int
  column : Int
  deriving DecidableEq

namespace Location

def decimal (n : Int) : Text := (toString n).toList

def toText (l : Location) : Text := l.file ++ ':' :: decimal l.line ++ ':' :: decimal l.column

def offset (l : Location) (columns : Int) : Location := { l with column := l.column + columns }

def equals (fs : FileSystem) (a b : Location) : Except Input.Fault Bool :=
  if a.line = b.line ∧ a.column = b.column then fs.sameFile a.file b.file else .ok false

structure Key where
  file : FileSystem.Identity
  line : Int
  column : Int
  deriving DecidableEq

def key (fs : FileSystem) (l : Location) : Except Input.Fault Key := do
  return ⟨← fs.identity l.file, l.line, l.column⟩

def distinct (fs : FileSystem) (a b : Location) : Except Input.Fault Nat := do
  let keyA ← a.key fs
  let keyB ← b.key fs
  if keyA = keyB then return if ← equals fs a b then 1 else 2 else return 2

end Location

structure Fragment where
  location : Location
  text : Text
  deriving DecidableEq

structure Capture where
  location : Location
  text : Option Text
  deriving DecidableEq

def Fragment.capture (f : Fragment) : Capture := ⟨f.location, some f.text⟩

namespace Capture

def fragment? (c : Capture) : Option Fragment := c.text.map fun s => ⟨c.location, s⟩

def shown (c : Capture) : String :=
  let text := (c.text.map Text.quoted).getD "None"
  s!"Fragment({text}, Ln {c.location.line}, Col {c.location.column})"

def equals (fs : FileSystem) (a b : Capture) : Except Input.Fault Bool := do
  return (← a.location.equals fs b.location) && a.text = b.text

def distinct (fs : FileSystem) (a b : Capture) : Except Input.Fault Nat := do
  let n ← a.location.distinct fs b.location
  return if a.text = b.text then n else 2

@[simp] theorem fragment?_capture (f : Fragment) : f.capture.fragment? = some f := rfl

end Capture
end LineLexer
