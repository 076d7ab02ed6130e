import LineLexer.Config
import LineLexer.Fifo
import LineLexer.Location
import LineLexer.Pattern.Match
import LineLexer.Text.Escape

/-! Everything that can end an operation on a reader, by cause. The wording of each cause is in
one place. -/

namespace LineLexer

inductive Breach
  | outsideWindow (n window : Count)
  | negativeLookahead (n : Int)
  | beyondLine (n : Int) (line : Nat)
  | negativeLength (n : Int)
  | outsideLine (span : List Int) (line : Nat)
  | noSpan
  | noGroup (n : Int)
  | stated (message : Text)
  deriving DecidableEq

def Breach.message : Breach → String
  | outsideWindow n window => s!"lookahead {n.shown} outside window of {window.shown}"
  | negativeLookahead n => s!"negative lookahead {n}"
  | beyondLine n line => s!"lookahead {n} beyond end of line {line}"
  | negativeLength n => s!"negative substring length {n}"
  | outsideLine span line =>
    s!"replace span {Json.shownTuple (span.map .int)} outside line {line}"
  | noSpan => "no match to take a span from"
  | noGroup n => s!"no group {n} in last match"
  | stated message => String.ofList message

inductive LexicalKind
  | nestedBlockComment
  | unexpectedEnd
  | groupCount
  deriving DecidableEq

def LexicalKind.words : LexicalKind → String
  | nestedBlockComment => "Nested block comment"
  | unexpectedEnd => "Unexpected end of input"
  | groupCount => "Unexpected number of matched groups"

def LexicalKind.text (kind : LexicalKind) (doing : Option Text) : String :=
  match doing with
  | none | some [] => kind.words
  | some s => s!"{kind.words} while matching '{String.ofList s.escape}'"

def errorAt (location : Location) (text : String) : String :=
  s!"{String.ofList location.toText}: ERROR {text}"

inductive Fault
  | breach (b : Breach)
  | fifo (f : Fifo.Fault)
  | input (f : Input.Fault)
  | fatal (file : Text) (line : Int) (cause : Input.Fault)
  | lexical (kind : LexicalKind) (location : Location) (doing : Option Text)
  | scanner (message : Option Text) (location : Location)
  | noSuchGroup
  | noMatch
  | closedReader
  | emptyQueue
  | shortSpan
  | pattern (f : Pattern.Fault)
  | misuse (m : Misuse)
  | settings (f : Config.Fault)

def Pattern.Fault.message : Pattern.Fault → String
  | malformed => "malformed pattern"
  | repetitionTooLarge => "the repetition number is too large"

def Fault.message : Fault → String
  | breach b => b.message
  | fifo f => f.message
  | input f => f.message
  | fatal file line cause => s!"{String.ofList file}:{line}: FATAL read failed: {cause.message}"
  | lexical kind location doing => errorAt location (kind.text doing)
  | scanner message location => errorAt location ((message.map String.ofList).getD "None")
  | noSuchGroup => "no such group"
  | noMatch => "'NoneType' object has no attribute 'group'"
  | closedReader => "'NoneType' object has no attribute 'readline'"
  | emptyQueue => "pop from an empty deque"
  | shortSpan => "list index out of range"
  | pattern f => f.message
  | misuse m => m.message
  | settings f => f.message

def demand (condition : Json) (message : Text) : Except Fault Unit :=
  if condition.isTruthy then .ok () else .error (.breach (.stated message))

def usualDemand : Text := "invariant violated".toList

end LineLexer
