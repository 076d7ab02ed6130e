import LineLexer.Text.Class

/-! Patterns as trees. Flags are resolved when a pattern is read, so each node stands on its
own. -/

namespace LineLexer.Pattern

inductive CaseRule
  | exact
  | asciiFold
  | fold
  deriving DecidableEq

def CaseRule.lower : CaseRule → Char → Char
  | exact, c => c
  | asciiFold, c => Text.toAsciiLower c
  | fold, c => Char.ofNat (Text.lowerCode c.toNat)

def CaseRule.forms : CaseRule → Char → List Nat
  | exact, c => [c.toNat]
  | asciiFold, c =>
    if c.isUpper then [c.toNat, c.toNat + 0x20]
    else if c.isLower then [c.toNat, c.toNat - 0x20]
    else [c.toNat]
  | fold, c =>
    let lower := Text.lowerCode c.toNat
    let mates := (Text.caseMates.find? (·.contains lower)).getD [lower]
    mates.flatMap Text.withLowerCode

def CaseRule.same (r : CaseRule) (a b : Char) : Bool := r.lower a == r.lower b

inductive Category
  | digit
  | blank
  | word
  deriving DecidableEq

def Category.holds (ascii : Bool) : Category → Char → Bool
  | digit, c => if ascii then Text.isAsciiDigit c else Text.isDigit c
  | blank, c => if ascii then Text.isAsciiBlank c else Text.isBlank c
  | word, c => if ascii then Text.isAsciiWord c else Text.isWord c

/-- A range is one of code points, those of surrogates included. -/
inductive ClassItem
  | range (low high : Nat)
  | category (kind : Category) (ascii negated : Bool)
  deriving DecidableEq

def ClassItem.holds (r : CaseRule) : ClassItem → Char → Bool
  | range low high, c => (r.forms c).any fun n => low ≤ n && n ≤ high
  | category kind ascii negated, c => kind.holds ascii c != negated

inductive CharTest
  | any
  | notNewline
  | literal (c : Char) (rule : CaseRule)
  | oneOf (negated : Bool) (items : List ClassItem) (rule : CaseRule)
  deriving DecidableEq

def CharTest.holds : CharTest → Char → Bool
  | any, _ => true
  | notNewline, c => c != '\n'
  | literal a rule, c => (rule.forms c).contains a.toNat
  | oneOf negated items rule, c => (items.any fun i => i.holds rule c) != negated

inductive Anchor
  | textStart
  | lineStart
  | textEnd
  | lastLineEnd
  | lineEnd
  | boundary (ascii : Bool)
  | noBoundary (ascii : Bool)
  deriving DecidableEq

inductive Node
  | empty
  | one (test : CharTest)
  | anchor (a : Anchor)
  | seq (first second : Node)
  | alt (first second : Node)
  | group (number : Nat) (body : Node)
  | again (number : Nat) (rule : CaseRule)
  | repeatOne (test : CharTest) (min : Nat) (max : Option Nat) (greedy : Bool)
  | repeatAny (body : Node) (min : Nat) (max : Option Nat) (greedy : Bool)
  /-- the body as it matches first, with no other choice in it -/
  | atomic (body : Node)
  | conditional (number : Nat) (yes no : Node)
  | ahead (negated : Bool) (body : Node)
  /-- the body ends here and began `width` characters earlier -/
  | behind (negated : Bool) (width : Nat) (body : Node)
  deriving DecidableEq

structure Width where
  least : Nat
  most : Option Nat
  deriving DecidableEq

namespace Width

def exactly (n : Nat) : Width := ⟨n, some n⟩

def add (v w : Width) : Width :=
  ⟨v.least + w.least, do return (← v.most) + (← w.most)⟩

def or (v w : Width) : Width :=
  ⟨min v.least w.least, do return max (← v.most) (← w.most)⟩

def times (w : Width) (min : Nat) (max : Option Nat) : Width :=
  ⟨min * w.least, if max = some 0 || w.most = some 0 then some 0
    else do return (← max) * (← w.most)⟩

end Width

namespace Node

def ofList : List Node → Node
  | [] => empty
  | [n] => n
  | n :: m :: r => seq n (ofList (m :: r))

def width (groups : Nat → Width) : Node → Width
  | empty | anchor _ | ahead .. | behind .. => .exactly 0
  | one _ => .exactly 1
  | seq a b => (a.width groups).add (b.width groups)
  | alt a b => (a.width groups).or (b.width groups)
  | group _ body | atomic body => body.width groups
  | again number _ => groups number
  | repeatOne _ min max _ => (Width.exactly 1).times min max
  | repeatAny body min max _ => (body.width groups).times min max
  | conditional _ yes no => (yes.width groups).or (no.width groups)

end Node
end LineLexer.Pattern

namespace LineLexer

structure Pattern where
  node : Pattern.Node
  groups : Nat
  deriving DecidableEq

end LineLexer
