import LineLexer.Pattern.Parser

/-! Matching by backtracking: alternatives are tried from left to right, a greedy repetition
prefers one more turn and a lazy one prefers to stop. A match begins where the text begins and
need not reach its end. -/

namespace LineLexer.Pattern

structure Span where
  start : Nat
  stop : Nat
  deriving DecidableEq

/-- A place in the text with the texts on both sides, the left one read backwards, and the
spans of the groups met so far, latest first. -/
structure State where
  before : Text := []
  rest : Text
  position : Nat := 0
  groups : List (Nat × Span) := []
  deriving DecidableEq

namespace State

def advance (s : State) : State :=
  match s.rest with
  | [] => s
  | c :: r => { s with before := c :: s.before, rest := r, position := s.position + 1 }

def retreat (s : State) : State :=
  match s.before with
  | [] => s
  | c :: b => { s with before := b, rest := c :: s.rest, position := s.position - 1 }

def advanceBy : Nat → State → State
  | 0, s => s
  | n + 1, s => advanceBy n s.advance

def retreatBy : Nat → State → State
  | 0, s => s
  | n + 1, s => retreatBy n s.retreat

def span? (s : State) (number : Nat) : Option Span :=
  (s.groups.find? (·.1 = number)).map (·.2)

def text (s : State) : Text := s.before.reverse ++ s.rest

end State

def Span.of (span : Span) (text : Text) : Text :=
  (text.drop span.start).take (span.stop - span.start)

def wordEdge (ascii : Bool) (s : State) : Bool :=
  let isWord (c? : Option Char) : Bool := c?.any (Category.word.holds ascii)
  isWord s.before.head? != isWord s.rest.head?

def Anchor.holds (a : Anchor) (s : State) : Bool :=
  match a with
  | textStart => s.before.isEmpty
  | lineStart => s.before.isEmpty || s.before.head? == some '\n'
  | textEnd => s.rest.isEmpty
  | lastLineEnd => s.rest.isEmpty || s.rest == ['\n']
  | lineEnd => s.rest.isEmpty || s.rest.head? == some '\n'
  | boundary ascii => wordEdge ascii s
  | noBoundary ascii => !(s.before.isEmpty && s.rest.isEmpty) && !wordEdge ascii s

abbrev Next := State → Option State

def givingBack (next : Next) : Nat → Next
  | 0, s => next s
  | n + 1, s => match next s with
    | some t => some t
    | none => givingBack next n s.retreat

def takingMore (next : Next) : Nat → Next
  | 0, s => next s
  | n + 1, s => match next s with
    | some t => some t
    | none => takingMore next n s.advance

def runLength (test : CharTest) (max : Option Nat) (s : State) : Nat :=
  let run := (s.rest.takeWhile test.holds).length
  match max with
  | none => run
  | some m => Nat.min m run

def matchRepeatOne (test : CharTest) (min : Nat) (max : Option Nat) (greedy : Bool) (next : Next) :
    Next := fun s =>
  let run := runLength test max s
  if run < min then none
  else if greedy then givingBack next (run - min) (s.advanceBy run)
  else takingMore next (run - min) (s.advanceBy min)

/-- A further turn is allowed below the greatest number, and not where the turn before it
began: a turn that matches nothing is the last. -/
def mayTurn (max : Option Nat) (count : Nat) (last : Option Nat) (s : State) : Bool :=
  max.all (count < ·) && last != some s.position

/-- Turns of a repetition after the first `count`; `last` is where the latest turn beyond the
least number began. -/
def turns (body : Next → Next) (min : Nat) (max : Option Nat) (greedy : Bool) (next : Next) :
    Nat → Nat → Option Nat → Next
  | 0, _, _, _ => none
  | fuel + 1, count, last, s =>
    if count < min then body (turns body min max greedy next fuel (count + 1) last) s
    else if mayTurn max count last s then
      let more := turns body min max greedy next fuel (count + 1) (some s.position)
      if greedy then match body more s with
        | some t => some t
        | none => next s
      else match next s with
        | some t => some t
        | none => body more s
    else next s

def turnLimit (min : Nat) (s : State) : Nat := min + s.rest.length + 2

def matchAgain (number : Nat) (rule : CaseRule) (next : Next) : Next := fun s =>
  match s.span? number with
  | none => none
  | some span =>
    let held := span.of s.text
    let found := s.rest.take held.length
    if held.length = found.length && (held.zip found).all fun p => rule.same p.1 p.2 then
      next (s.advanceBy held.length)
    else none

/-- Goes on after a look around; what a look that succeeds has captured stays captured. -/
def afterLook (negated : Bool) (next : Next) (s : State) (found : Option State) : Option State :=
  match negated, found with
  | false, some t => next { s with groups := t.groups }
  | true, none => next s
  | _, _ => none

def Node.run : Node → Next → Next
  | empty, next, s => next s
  | one test, next, s => match s.rest with
    | c :: _ => if test.holds c then next s.advance else none
    | [] => none
  | anchor a, next, s => if a.holds s then next s else none
  | seq a b, next, s => a.run (b.run next) s
  | alt a b, next, s => match a.run next s with
    | some t => some t
    | none => b.run next s
  | group number body, next, s =>
    body.run (fun t => next { t with groups := (number, ⟨s.position, t.position⟩) :: t.groups }) s
  | again number rule, next, s => matchAgain number rule next s
  | repeatOne test min max greedy, next, s => matchRepeatOne test min max greedy next s
  | repeatAny body min max greedy, next, s =>
    turns body.run min max greedy next (turnLimit min s) 0 none s
  | atomic body, next, s => match body.run some s with
    | some t => next t
    | none => none
  | conditional number yes no, next, s =>
    if (s.span? number).isSome then yes.run next s else no.run next s
  | ahead negated body, next, s => afterLook negated next s (body.run some s)
  | behind negated width body, next, s =>
    if s.position < width then afterLook negated next s none
    else afterLook negated next s (body.run some (s.retreatBy width))

end Pattern

structure Match where
  text : Text
  whole : Pattern.Span
  groups : List (Option Pattern.Span)
  deriving DecidableEq

namespace Match

def span? (m : Match) (group : Int) : Option (Option Pattern.Span) :=
  if group < 0 then none
  else if group = 0 then some (some m.whole)
  else m.groups[group.toNat - 1]?

def groupText? (m : Match) (group : Int) : Option (Option Text) :=
  (m.span? group).map fun span? => span?.map fun span => span.of m.text

def wholeText (m : Match) : Text := m.whole.of m.text

end Match

def Pattern.match? (p : Pattern) (text : Text) : Option Match :=
  (p.node.run some { rest := text }).map fun s =>
    ⟨text, ⟨0, s.position⟩, (List.range p.groups).map fun n => s.span? (n + 1)⟩

end LineLexer
