import LineLexer.Config
import LineLexer.FileSystem
import LineLexer.Input.Newline
import LineLexer.Input.Utf8
import LineLexer.Json.Parser

/-! Settings read from a JSON file. Every name in the document has to be the name of a setting;
the names of a document that is no object are its parts. -/

namespace LineLexer.Config

def isKnown (name : Json) : Bool :=
  match name with
  | .text s => ((({} : Draft).set (String.ofList s) .null)).isSome
  | _ => false

def sameKey : Json → Json → Bool
  | .text s, .text t => s == t
  | .null, .null => true
  | .float x, .float y => x == y
  | .float x, v | v, .float x => (v.whole?.map fun n => Float.ofInt n == x).getD false
  | v, w => match v.whole?, w.whole? with
    | some n, some m => n == m
    | _, _ => false

def distinctKeys (keys : List Json) : List Json :=
  keys.foldl (fun seen k => if seen.any (sameKey k) then seen else seen ++ [k]) []

def texts? (keys : List Json) : Option (List Text) :=
  keys.mapM fun
    | .text s => some s
    | _ => none

def codePoints (s : Text) : List Nat := s.map Char.toNat

def sortedNames (names : List Text) : List Text :=
  names.mergeSort fun a b => !(codePoints b).lex (codePoints a)

def numericOrder (a b : Json) : Bool :=
  let value : Json → Float
    | .float x => x
    | v => Float.ofInt (v.whole?.getD 0)
  value a ≤ value b

def unknown (keys : List Json) : Fault :=
  match texts? keys with
  | some names => .unknownKeys (sortedNames names)
  | none => match keys.mergeSort numericOrder with
    | [] => .unknownKeys []
    | k :: _ => .misuse (.joinItem 0 k.kind)

def isUnhashable : Json → Bool
  | .list _ | .object _ => true
  | _ => false

def ofDocument (document : Json) : Except Fault Config := do
  let keys ← liftMisuse document.parts
  match keys.find? isUnhashable with
  | some k => throw (.misuse (.unhashable k.kind))
  | none => pure ()
  let strange := (distinctKeys keys).filter fun k => !isKnown k
  if !strange.isEmpty then throw (unknown strange)
  match document with
  | .object fields => ofFields fields
  | v => throw (.misuse (.notMapping v.kind))

inductive FileFault
  | input (f : Input.Fault)
  | document (f : Json.Fault)
  | settings (f : Fault)

def FileFault.message : FileFault → String
  | input f => f.message
  | document f => f.message
  | settings f => f.message

def ofFile (fs : FileSystem) (name : Text) : Except FileFault Config := do
  let bytes ← (fs.read name).mapError .input
  match Input.Utf8.decodeAll bytes with
  | .bad fault => throw (.input (.undecodable fault))
  | .ok chars _ =>
    let document ← (Json.parse (Input.normalize chars)).mapError .document
    (ofDocument document).mapError .settings

end LineLexer.Config
