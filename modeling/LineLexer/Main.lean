import LineLexer.CommandLine

/-! The program: the files named on the command line are read into a file system of their own,
and the answer of the run is printed. -/

namespace LineLexer

def addFromDisk (fs : FileSystem) (name : Text) : IO FileSystem := do
  try
    let bytes ← IO.FS.readBinFile (String.ofList name)
    return fs.addFile name bytes.toList
  catch
    | .inappropriateType .. => return fs.addDirectory name
    | _ => return fs

def namedFiles (words : List Text) : List Text :=
  match Options.ofWords words with
  | .ok o => o.file :: o.config.toList
  | .error _ => []

def fromDisk (words : List Text) : IO FileSystem := do
  let here := (← IO.currentDir).toString.toList
  let names := (components here).filter fun n => !n.isEmpty
  (namedFiles words).foldlM addFromDisk { workingDirectory := names }

end LineLexer

def main (args : List String) : IO UInt32 := do
  let words := args.map String.toList
  let answer := LineLexer.CommandLine.run (← LineLexer.fromDisk words) words
  IO.print answer.output
  IO.eprint answer.logShown
  match answer.ending with
  | .status n => return n.toUInt32
  | .refused .help =>
    IO.println LineLexer.Options.Refusal.help.message
    return 0
  | .refused refusal =>
    IO.eprintln refusal.message
    return 2
  | .fault f =>
    IO.eprintln f.message
    return 1
  | .settings f =>
    IO.eprintln f.message
    return 1
