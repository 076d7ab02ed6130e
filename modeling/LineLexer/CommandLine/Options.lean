import LineLexer.Text.Class

/-! The options of the command line. A word is read as a switch when it starts with a hyphen and
names one; long names may be shortened as long as they stay unambiguous, short switches may be
joined, and a value may be attached to its switch. Behind the word `--` no switch is read. -/

namespace LineLexer

structure Options where
  file : Text
  config : Option Text := none
  patterns : List Text := []
  keepComments : Bool := false
  verbose : Bool := false
  deriving DecidableEq

namespace Options

inductive Switch
  | help
  | file
  | config
  | pattern
  | keepComments
  | verbose
  deriving DecidableEq

namespace Switch

def takesValue : Switch → Bool
  | file | config | pattern => true
  | help | keepComments | verbose => false

def all : List (Char × String × Switch) :=
  [('h', "help", help), ('f', "file", file), ('c', "config", config), ('p', "pattern", pattern),
    ('k', "keep-comments", keepComments), ('v', "verbose", verbose)]

def ofShort? (c : Char) : Option Switch := (all.find? (·.1 == c)).map (·.2.2)

def ofLong? (name : Text) : Option Switch := (all.find? (·.2.1.toList == name)).map (·.2.2)

def withBeginning (name : Text) : List Switch :=
  (all.filter fun s => name.isPrefixOf s.2.1.toList).map (·.2.2)

end Switch

inductive Refusal
  | help
  | usage
  deriving DecidableEq

def Refusal.message : Refusal → String
  | help | usage => "usage: -f FILE [-c CONFIG] [-p PATTERN]... [-k] [-v]"

inductive Tail
  | nothing
  | value (v : Text)
  | joined (first : Char) (rest : Text)
  deriving DecidableEq

inductive Word
  | plain (word : Text)
  | divider
  | switch (s : Switch) (tail : Tail)
  | strange
  deriving DecidableEq

def splitValue (word : Text) : Text × Option Text :=
  match word.dropWhile (· ≠ '=') with
  | [] => (word, none)
  | _ :: value => (word.takeWhile (· ≠ '='), some value)

def isNegativeNumber (body : Text) : Bool :=
  let body := if body.getLast? = some '\n' then body.dropLast else body
  match body.dropWhile Text.isDigit with
  | [] => !body.isEmpty
  | '.' :: fraction => !fraction.isEmpty && fraction.all Text.isDigit
  | _ => false

/-- A word behind a hyphen that names no switch is plain if it can be no misspelt switch. -/
def unnamed (word body : Text) : Word :=
  if isNegativeNumber body || ' ' ∈ word then .plain word else .strange

def Tail.ofValue : Option Text → Tail
  | some v => .value v
  | none => .nothing

def readLong (word name : Text) : Except Refusal Word :=
  let (name, value) := splitValue name
  match Switch.ofLong? name, Switch.withBeginning name with
  | some s, _ => .ok (.switch s (.ofValue value))
  | none, [s] => .ok (.switch s (.ofValue value))
  | none, [] => .ok (unnamed word ('-' :: name))
  | none, _ => .error .usage

def readShort (word : Text) (c : Char) (rest : Text) : Word :=
  match Switch.ofShort? c with
  | none => unnamed word (c :: rest)
  | some s => match rest with
    | [] => .switch s .nothing
    | '=' :: value => .switch s (.value value)
    | c :: rest => .switch s (.joined c rest)

def readWord (word : Text) : Except Refusal Word :=
  match word with
  | ['-', '-'] => .ok .divider
  | '-' :: '-' :: name => readLong word name
  | '-' :: c :: rest => .ok (readShort word c rest)
  | word => .ok (.plain word)

def readWords : List Text → Except Refusal (List Word)
  | [] => .ok []
  | word :: rest => do
    match ← readWord word with
    | .divider => return .divider :: rest.map .plain
    | w => return w :: (← readWords rest)

inductive Step
  | flag (s : Switch)
  | value (s : Switch) (v : Text)
  | awaits (s : Switch)
  | strange

def alone (s : Switch) : Step := if s.takesValue then .awaits s else .flag s

def withValue (s : Switch) (v : Text) : Except Refusal (List Step) :=
  if s.takesValue then .ok [.value s v] else .error .usage

def joinedSteps (s : Switch) (c : Char) (rest : Text) : Except Refusal (List Step) :=
  if s.takesValue then .ok [.value s (c :: rest)]
  else if c = '-' then .error .usage
  else match Switch.ofShort? c with
    | none => .ok [.flag s, .strange]
    | some next => match rest with
      | [] => .ok [.flag s, alone next]
      | '=' :: v => (withValue next v).map (.flag s :: ·)
      | c :: rest => (joinedSteps next c rest).map (.flag s :: ·)

def Tail.steps (s : Switch) : Tail → Except Refusal (List Step)
  | nothing => .ok [alone s]
  | value v => withValue s v
  | joined c rest => joinedSteps s c rest

structure Draft where
  file : Option Text := none
  config : Option Text := none
  patterns : List Text := []
  keepComments : Bool := false
  verbose : Bool := false
  leftOver : Bool := false

def Draft.set (d : Draft) (s : Switch) (v : Text) : Draft :=
  match s with
  | .file => { d with file := some v }
  | .config => { d with config := some v }
  | .pattern => { d with patterns := d.patterns ++ [v] }
  | .keepComments => { d with keepComments := true }
  | .verbose => { d with verbose := true }
  | .help => d

def Draft.follow (d : Draft) (rest : List Word) : List Step → Except Refusal (Draft × List Word)
  | [] => .ok (d, rest)
  | .flag .help :: _ => .error .help
  | .flag s :: steps => (d.set s []).follow rest steps
  | .value s v :: steps => (d.set s v).follow rest steps
  | .strange :: steps => { d with leftOver := true }.follow rest steps
  | .awaits s :: steps => match rest with
    | .plain v :: rest => (d.set s v).follow rest steps
    | _ => .error .usage

theorem length_follow {d e : Draft} {steps : List Step} {rest rest' : List Word}
    (h : d.follow rest steps = .ok (e, rest')) : rest'.length ≤ rest.length := by
  fun_induction Draft.follow d rest steps <;> simp_all
  omega

def Draft.gather (d : Draft) (words : List Word) : Except Refusal Draft :=
  match words with
  | [] => .ok d
  | .switch s tail :: rest =>
    match tail.steps s with
    | .error refusal => .error refusal
    | .ok steps => match _h : d.follow rest steps with
      | .error refusal => .error refusal
      | .ok (d, rest) => d.gather rest
  | _ :: rest => { d with leftOver := true }.gather rest
termination_by words.length
decreasing_by
  · have := length_follow _h
    simp
    omega
  · simp

def ofWords (words : List Text) : Except Refusal Options := do
  let d ← Draft.gather {} (← readWords words)
  match d.file, d.leftOver with
  | some file, false => return ⟨file, d.config, d.patterns, d.keepComments, d.verbose⟩
  | _, _ => throw .usage

end Options
end LineLexer
