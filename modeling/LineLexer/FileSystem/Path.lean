import LineLexer.Text.Class

/-! Path names and their lexical normal form. -/

namespace LineLexer

def components : Text → List Text
  | [] => [[]]
  | '/' :: r => [] :: components r
  | c :: r => match components r with
    | [] => [[c]]
    | name :: names => (c :: name) :: names

def isAbsolute (path : Text) : Bool := path.head? == some '/'

/-- Exactly two slashes at the start of a path set it apart from the paths under the root. -/
def hasDoubleSlash (path : Text) : Bool :=
  match path with
  | '/' :: '/' :: '/' :: _ => false
  | '/' :: '/' :: _ => true
  | _ => false

structure NormalPath where
  doubleSlash : Bool
  names : List Text
  deriving DecidableEq

/-- A name `..` takes back the name before it, whatever the name stands for. -/
def stepLexically (names : List Text) (name : Text) : List Text :=
  if name = [] ∨ name = ['.'] then names
  else if name = ['.', '.'] then names.dropLast
  else names ++ [name]

def normalPath (workingDirectory : List Text) (path : Text) : NormalPath :=
  let start := if isAbsolute path then [] else workingDirectory
  ⟨hasDoubleSlash path, (components path).foldl stepLexically start⟩

end LineLexer
