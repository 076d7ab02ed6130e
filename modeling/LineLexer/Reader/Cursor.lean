import LineLexer.Reader.Basic

/-! Moving through a file line by line, and looking at the present line without moving. -/

namespace LineLexer.Reader

open Input (LineStream)

def endInput (r : Reader) : Reader :=
  let r := { r with
    ended := true, cachedRemainder := none, lineNumber := max r.lineNumber 1 }.toLast
  (r.note (.reachedEnd r.file r.lineNumber)).close

def startLine (r : Reader) (line : Text) : Reader :=
  { r with
    lineNumber := r.lineNumber + 1
    passed := []
    rest := Input.withFinalNewline line
    cachedRemainder := none }

def loadLine : Op Unit := fun r =>
  if r.ended then .ok () r
  else match r.stream with
    | none => .error .closedReader r
    | some s => match s.readLine with
      | (.error fault, s) => .error (.input fault) { r with stream := some s }
      | (.ok [], s) => .ok () { r with stream := some s }.endInput
      | (.ok (c :: line), s) => .ok () ({ r with stream := some s }.startLine (c :: line))

/-- Failures of the device and bytes that are no text are noted and reported with the line
behind which they were met. -/
def report (fault : Fault) (r : Reader) : EStateM.Result Fault Reader Unit :=
  match fault with
  | .input cause =>
    if cause.isReported then
      .error (.fatal r.file r.lineNumber cause) (r.note (.failed r.file r.lineNumber cause))
    else .error fault r
  | _ => .error fault r

def nextLine : Op Unit := fun r =>
  match loadLine r with
  | .ok () r => .ok () r
  | .error fault r => report fault r

def lookAhead (n : Int) (r : Reader) : Except Fault (Option Char) :=
  if n < 0 then .error (.breach (.negativeLookahead n))
  else if r.ended then .ok none
  else match r.rest[n.toNat]? with
    | some c => .ok (some c)
    | none => .error (.breach (.beyondLine n r.lineNumber))

/-- Up to `n` characters from the cursor on, without the newline of the line. -/
def substring (n : Int) (r : Reader) : Except Fault Text :=
  if n < 0 then .error (.breach (.negativeLength n))
  else if r.ended then .ok []
  else .ok (r.rest.take (n.toNat + 1)).dropLast

def restOfLine (r : Reader) : Text := if r.ended then [] else r.rest.dropLast

def isEndOfLine (r : Reader) : Except Fault Bool := do
  return (← r.lookAhead 0) == some '\n'

def next : Op (Option Char) := fun r =>
  if r.ended then .ok none r
  else match r.rest with
    | [] => .error (.breach (.beyondLine 0 r.lineNumber)) r
    | [c] => match nextLine (r.advance 1) with
      | .ok () r => .ok (some c) r
      | .error fault r => .error fault r
    | c :: _ :: _ => .ok (some c) (r.advance 1)

def steps : Nat → Op Unit
  | 0, r => .ok () r
  | n + 1, r => match next r with
    | .ok _ r => steps n r
    | .error fault r => .error fault r

/-- Takes `n` characters, within the line at once and beyond it one by one. -/
def accept (n : Int) : Op Unit := fun r =>
  if r.ended || n ≤ 0 then .ok () r
  else if n.toNat < r.rest.length then .ok () (r.advance n.toNat)
  else steps (n.toNat + 1 - r.rest.length) r.toLast

/-- Whether the input goes on with a text. A single character may be the line's newline. -/
def looksAt (t : Text) (r : Reader) : Except Fault Bool :=
  match t with
  | [c] => do return (← r.lookAhead 0) == some c
  | t => do return (← r.substring t.length) == t

def acceptText (t : Text) : Op Bool := fun r =>
  match r.looksAt t with
  | .error fault => .error fault r
  | .ok false => .ok false r
  | .ok true => match accept t.length r with
    | .ok () r => .ok true r
    | .error fault r => .error fault r

def cacheRemainder : Op Text := fun r =>
  .ok r.restOfLine { r with cachedRemainder := some r.restOfLine }

def remainder : Op Text := fun r =>
  match r.cachedRemainder with
  | some s => .ok s r
  | none => cacheRemainder r

def endsLine (r : Reader) : Bool :=
  match r.rest.getLast? with
  | some c => c == '\n'
  | none => r.passed.head? == some '\n'

/-- Puts a text in the place of the characters from the `i`-th up to the `j`-th behind the
cursor; the line keeps a newline at its end. -/
def edit (i j : Nat) (text : Text) (r : Reader) : Reader :=
  let r := { r with rest := r.rest.take i ++ text ++ r.rest.drop j, cachedRemainder := none }
  if r.endsLine then r else { r with rest := r.rest ++ ['\n'] }

def replace (span : List Int) (text : Text) : Op Unit := fun r =>
  match span with
  | i :: j :: _ =>
    if 0 ≤ i ∧ i ≤ j ∧ j ≤ r.rest.length then .ok () (r.edit i.toNat j.toNat text)
    else .error (.breach (.outsideLine span r.lineNumber)) r
  | _ => .error .shortSpan r

end LineLexer.Reader
