import LineLexer.CommandLine.Options
import LineLexer.Config.File
import LineLexer.Scan

/-! The command line tool: it scans one file and prints a line for each fragment, its location
and its text with line ends, tabs and backslashes made visible. Failures to load settings or to
read the file, and errors in the source, are told in place of the fragments. -/

namespace LineLexer.CommandLine

/-- How a run ends. Failures that are not told to the user end it without a status. -/
inductive Ending
  | status (n : Nat)
  | refused (refusal : Options.Refusal)
  | fault (f : Fault)
  | settings (f : Config.FileFault)

structure Answer where
  ending : Ending
  output : String := ""
  log : List Log.Record := []
  verbose : Bool := false

def Answer.logShown (a : Answer) : String :=
  Log.shown (if a.verbose then .debug else .info) a.log

def noteRecord (n : Note) : Log.Record := ⟨n.level, "linescan.reader.line_reader", n.message⟩

def record (level : Log.Level) (message : String) : Log.Record := ⟨level, "linescan", message⟩

def isTold : Config.FileFault → Bool
  | .settings (.misuse _) => false
  | _ => true

def fragmentLine (f : Fragment) : String :=
  String.ofList (f.location.toText ++ '\t' :: f.text.escape ++ ['\n'])

def scanOf (fs : FileSystem) (o : Options) (config : Config) : Scan where
  config := config
  keepComments := o.keepComments
  patterns :=
    if o.patterns.isEmpty then Scan.usualPatterns.map (.written ·)
    else o.patterns.map (.written · fs.characterNames)

def scanFile (fs : FileSystem) (o : Options) (config : Config) (log : List Log.Record) : Answer :=
  let outcome := (scanOf fs o config).run fs o.file
  let log := log ++ outcome.notes.map noteRecord
  match outcome.result with
  | .ok found => ⟨.status 0, String.join (found.map fragmentLine), log, o.verbose⟩
  | .error fault => match fault with
    | .lexical .. => ⟨.status 1, fault.message ++ "\n", log, o.verbose⟩
    | .fatal .. => ⟨.status 1, "", log ++ [record .error fault.message], o.verbose⟩
    | .input cause =>
      if cause.isReported then
        ⟨.status 1, s!"Error reading file: {cause.message}\n", log, o.verbose⟩
      else ⟨.fault fault, "", log, o.verbose⟩
    | _ => ⟨.fault fault, "", log, o.verbose⟩

def runWith (fs : FileSystem) (o : Options) : Answer :=
  match o.config with
  | none | some [] => scanFile fs o {} []
  | some name =>
    let log := [record .info s!"Using config file: {String.ofList name}"]
    match Config.ofFile fs name with
    | .ok config => scanFile fs o config log
    | .error fault =>
      if isTold fault then
        ⟨.status 1, s!"Failed to load config: {fault.message}\n", log, o.verbose⟩
      else ⟨.settings fault, "", log, o.verbose⟩

def run (fs : FileSystem) (words : List Text) : Answer :=
  match Options.ofWords words with
  | .ok o => runWith fs o
  | .error refusal => { ending := .refused refusal }

end LineLexer.CommandLine
