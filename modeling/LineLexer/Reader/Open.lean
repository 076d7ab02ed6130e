import LineLexer.FileSystem
import LineLexer.Input.Encoding
import LineLexer.Input.Gzip.Members
import LineLexer.Reader.Cursor

/-! Opening a file for reading. A file whose name ends with one of the suffixes for compressed
files is decompressed. The first line is loaded at once; when that fails the file is closed and
the failure is reported as it is. -/

namespace LineLexer.Reader

open Input (Bytes Encoding Feed)

abbrev Opening := EStateM Fault (List Note)

namespace Opening

def note (n : Note) : Opening Unit := modify (· ++ [n])

def ofInput {α : Type} (x : Except Input.Fault α) : Opening α :=
  match x with
  | .ok a => pure a
  | .error cause => throw (.input cause)

def isCompressed (name : Text) : List Json → Opening Bool
  | [] => return false
  | .text s :: rest => if s.isSuffixOf name then return true else isCompressed name rest
  | v :: _ => throw (.misuse (.suffixKind v.kind))

def encodingName (misuse : String → Misuse) : Json → Opening Text
  | .text name => return name
  | .null => return "utf-8".toList
  | v => throw (.misuse (misuse v.kind))

def compressed (fs : FileSystem) (name : Text) (config : Config) : Opening (Feed Text) := do
  note (.openingCompressed name)
  let bytes ← ofInput (fs.read name)
  let encoding ← ofInput (Encoding.ofName? (← encodingName .textEncoding config.encoding) fs.codecs)
  return (Feed.ofGzip bytes).decode encoding

/-- A buffer is as large as the file, but no smaller than what one read asks for and no larger
than the settings allow. -/
def bufferSize (fileSize : Nat) (limit : Json) : Json :=
  let wanted : Nat := max fileSize Input.readSize
  if (limit.isBelow? true wanted).getD false then limit else .int wanted

def wholePart : Json → Int
  | .float x => x.toUInt64.toNat
  | v => v.whole?.getD 0

def plain (fs : FileSystem) (name : Text) (config : Config) : Opening (Feed Text) := do
  let size := bufferSize (← ofInput (fs.size name)) config.fileBufferSize
  note (.openingPlain name (wholePart size))
  if size.whole?.isNone then throw (.misuse (.notWhole size.kind))
  let given ← encodingName .openEncoding config.encoding
  if '\x00' ∈ given then throw (.input .nulInEncoding)
  let bytes ← ofInput (fs.read name)
  let encoding ← ofInput (Encoding.ofName? given fs.codecs)
  return (Feed.ofBytes bytes).decode encoding

def decoded (fs : FileSystem) (name : Text) (config : Config) : Opening (Feed Text) := do
  if ← isCompressed name config.compressedSuffixes then compressed fs name config
  else plain fs name config

def text (fs : FileSystem) (name : Text) (config : Config) : Opening (Feed Text) := do
  return (← decoded fs name config).normalize

end Opening

structure OpenFailure where
  fault : Fault
  notes : List Note

def ofFile (fs : FileSystem) (name : Text) (config : Config) : Except OpenFailure Reader :=
  match Opening.text fs name config [] with
  | .error fault notes => .error ⟨fault, notes⟩
  | .ok feed notes =>
    match loadLine { file := name, config, stream := some { feed }, notes } with
    | .ok () r => .ok r
    | .error fault r => .error ⟨fault, r.close.notes⟩

end LineLexer.Reader
