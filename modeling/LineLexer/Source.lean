import LineLexer.Fault
import LineLexer.Fifo.Capacity
import LineLexer.Input.CharStream

/-! Characters taken from a stream one by one, with a look ahead through a window of fixed size.
Carriage returns are dropped. The end of the stream stands in the window like a character and can
be taken again and again; the position stays where it is then. -/

namespace LineLexer

structure Source where
  stream : Input.CharStream
  name : Text := "<stream>".toList
  window : Fifo (Option Char)
  ended : Bool := false
  line : Nat := 1
  column : Nat := 1

namespace Source

abbrev Op := EStateM Fault Source

def ofStream (stream : Input.CharStream) (name : Option Text) (lookahead : Json)
    (config : Config) : Except Config.Fault Source := do
  let size := if lookahead.isTruthy then lookahead else config.lookahead
  return { stream, name := name.getD "<stream>".toList, window := ← Fifo.ofValue size }

def ofFifo {α : Type} (x : Except Fifo.Fault α) : Op α :=
  match x with
  | .ok a => pure a
  | .error fault => throw (.fifo fault)

def report (s : Source) (cause : Input.Fault) : Fault :=
  if cause.isReported then .fatal s.name s.line cause else .input cause

/-- The next character of the stream, `none` at its end; the end is read only once. -/
def readChar : Op (Option Char) := fun s =>
  if s.ended then .ok none s
  else match s.stream.readVisible with
    | (.ok none, stream) => .ok none { s with stream, ended := true }
    | (.ok c?, stream) => .ok c? { s with stream }
    | (.error cause, stream) => .error (s.report cause) { s with stream }

def holdsEnd (s : Source) : Bool := s.window.at? (s.window.size - 1) == some none

def fill : Nat → Op Bool
  | 0 => return false
  | missing + 1 => do
    let s ← get
    if s.holdsEnd then return true
    let c? ← readChar
    let window ← ofFifo (s.window.push c?)
    modify fun s => { s with window }
    if c?.isNone then return true else fill missing

def lookAhead (n : Count) : Op (Option Char) := do
  let s ← get
  if 0 ≤ n.value ∧ n.value < s.window.capacity then
    if ← fill (n.value.toNat + 1 - s.window.size) then return none
    else ofFifo ((← get).window.peek n)
  else throw (.breach (.outsideWindow n s.window.shownCapacity))

def pass (n : Nat) (last : Char) (s : Source) : Source :=
  if last = '\n' then { s with line := s.line + 1, column := 1 }
  else { s with column := s.column + n }

def accept (n : Count) : Op (Option Char) := do
  if (← get).window.size < n.value then
    let _ ← lookAhead (n.value - 1 : Int)
  let (c?, window) ← ofFifo ((← get).window.popMany n)
  modify fun s => { s with window }
  match c? with
  | some c => modify (pass n.value.toNat c)
  | none => pure ()
  return c?

def isEnd : Op Bool := return (← lookAhead (0 : Nat)).isNone

def acceptUpTo : Nat → Text → Op Text
  | 0, done => return done.reverse
  | n + 1, done => do
    if ← isEnd then return done.reverse
    match ← accept (1 : Nat) with
    | some c => acceptUpTo n (c :: done)
    | none => acceptUpTo n done

def acceptAll : Op Text := do
  let s ← get
  acceptUpTo (s.window.size + s.stream.size + 1) []

end Source
end LineLexer
