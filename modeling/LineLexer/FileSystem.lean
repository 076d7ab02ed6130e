import LineLexer.FileSystem.Path
import LineLexer.Input.Codec

/-! A file system held in memory. Entries are found under their real paths, which hold no
links; several entries may name one file. What else differs from machine to machine is kept with
it: the encodings a file may have, and the names that patterns may call characters by. -/

namespace LineLexer

open Input (Bytes)

inductive Node
  | file (number : Nat)
  | directory (path : List Text)
  deriving DecidableEq

inductive Entry
  | directory
  | file (number : Nat)
  | link (target : Text)
  deriving DecidableEq

structure FileSystem where
  entries : List (List Text × Entry) := []
  contents : List Bytes := []
  workingDirectory : List Text := ["srv", "scan", "work"].map String.toList
  codecs : Text → Option Input.Codec := fun _ => none
  characterNames : Text → Option Char := fun _ => none

namespace FileSystem

def entry? (fs : FileSystem) (path : List Text) : Option Entry :=
  match fs.entries.find? (·.1 = path) with
  | some (_, e) => some e
  | none => if path.isPrefixOf fs.workingDirectory then some .directory else none

def maxLinks : Nat := 40

def walk (fs : FileSystem) (links : Nat) (here : List Text) (names : List Text) :
    Except Input.SystemFault Node :=
  match names with
  | [] => .ok (.directory here)
  | name :: rest =>
    if name = [] ∨ name = ['.'] then fs.walk links here rest
    else if name = ['.', '.'] then fs.walk links here.dropLast rest
    else match fs.entry? (here ++ [name]) with
      | none => .error .missing
      | some .directory => fs.walk links (here ++ [name]) rest
      | some (.file n) => if rest.isEmpty then .ok (.file n) else .error .notDirectory
      | some (.link target) => match links with
        | 0 => .error .linkLoop
        | links + 1 =>
          let start := if isAbsolute target then [] else here
          fs.walk links start (components target ++ rest)
termination_by (links, names.length)

/-- Where a name leads. A NUL in a name is refused before anything is looked up. -/
def status (fs : FileSystem) (name : Text) : Except Input.Fault Node :=
  if '\x00' ∈ name then .error .nulInName
  else if name = [] then .error (.system .missing name)
  else
    let start := if isAbsolute name then [] else fs.workingDirectory
    (fs.walk maxLinks start (components name)).mapError (Input.Fault.system · name)

def content (fs : FileSystem) (number : Nat) : Bytes := fs.contents.getD number []

def read (fs : FileSystem) (name : Text) : Except Input.Fault Bytes := do
  match ← fs.status name with
  | .file n => return fs.content n
  | .directory _ => throw (.system .directory name)

def size (fs : FileSystem) (name : Text) : Except Input.Fault Nat := do
  match ← fs.status name with
  | .file n => return (fs.content n).length
  | .directory _ => return 4096

/-- What tells files apart: the node of a name that leads somewhere, the normal path of one
that does not. -/
inductive Identity
  | node (n : Node)
  | path (p : NormalPath)
  deriving DecidableEq

def identity (fs : FileSystem) (name : Text) : Except Input.Fault Identity :=
  match fs.status name with
  | .ok n => .ok (.node n)
  | .error .nulInName => .error .nulInName
  | .error _ => .ok (.path (normalPath fs.workingDirectory name))

/-- Two names are the same file when they are equal, or lead to one node, or, if either leads
nowhere, have one normal path. The second name is not looked up when the first leads nowhere. -/
def sameFile (fs : FileSystem) (a b : Text) : Except Input.Fault Bool :=
  let sameText : Bool :=
    normalPath fs.workingDirectory a = normalPath fs.workingDirectory b
  if a = b then .ok true
  else match fs.status a with
    | .error .nulInName => .error .nulInName
    | .error _ => .ok sameText
    | .ok n => match fs.status b with
      | .error .nulInName => .error .nulInName
      | .error _ => .ok sameText
      | .ok m => .ok (n = m)

/-- The real path under which a name would be entered: its directory with links followed where
there is one, the names as they stand where there is none. -/
def placeOf (fs : FileSystem) (name : Text) : List Text :=
  let names := (components name).filter (· ≠ [])
  let start := if isAbsolute name then [] else fs.workingDirectory
  let parent := match fs.walk maxLinks start names.dropLast with
    | .ok (.directory path) => path
    | _ => names.dropLast.foldl stepLexically start
  names.drop (names.length - 1) |>.foldl stepLexically parent

def addEntry (fs : FileSystem) (place : List Text) (e : Entry) : FileSystem :=
  let parents := (List.range place.length).map fun n => (place.take n, Entry.directory)
  let missing := parents.filter fun p => (fs.entry? p.1).isNone
  { fs with entries := (place, e) :: missing ++ fs.entries.filter (·.1 ≠ place) }

def addDirectory (fs : FileSystem) (name : Text) : FileSystem :=
  fs.addEntry (fs.placeOf name) .directory

def addFile (fs : FileSystem) (name : Text) (bytes : Bytes) : FileSystem :=
  match fs.status name with
  | .ok (.file n) => { fs with contents := fs.contents.set n bytes }
  | _ =>
    let fs := fs.addEntry (fs.placeOf name) (.file fs.contents.length)
    { fs with contents := fs.contents ++ [bytes] }

def addLink (fs : FileSystem) (name target : Text) : FileSystem :=
  fs.addEntry (fs.placeOf name) (.link target)

def addName (fs : FileSystem) (name existing : Text) : FileSystem :=
  match fs.entry? (fs.placeOf existing) with
  | some e => fs.addEntry (fs.placeOf name) e
  | none => fs

end FileSystem
end LineLexer
