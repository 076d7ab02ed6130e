import LineLexer.Pattern.Syntax

/-! Reading patterns as they are written. Groups are numbered by their opening parentheses; a
brace that begins no repetition stands for itself. The names of characters are given with the
pattern. -/

namespace LineLexer.Pattern

inductive Fault
  | malformed
  | repetitionTooLarge
  deriving DecidableEq

/-- Without one of `ascii` and `unicode` a pattern is read as with `unicode`. -/
structure Flags where
  ignoreCase : Bool := false
  dotAll : Bool := false
  multiLine : Bool := false
  verbose : Bool := false
  ascii : Bool := false
  unicode : Bool := false
  deriving DecidableEq

def Flags.rule (f : Flags) : CaseRule :=
  if f.ignoreCase then if f.ascii then .asciiFold else .fold else .exact

def Flags.add? (f : Flags) : Char → Option Flags
  | 'i' => some { f with ignoreCase := true }
  | 's' => some { f with dotAll := true }
  | 'm' => some { f with multiLine := true }
  | 'x' => some { f with verbose := true }
  | 'a' => some { f with ascii := true }
  | 'u' => some { f with unicode := true }
  | _ => none

def Flags.clear? (f : Flags) : Char → Option Flags
  | 'i' => some { f with ignoreCase := false }
  | 's' => some { f with dotAll := false }
  | 'm' => some { f with multiLine := false }
  | 'x' => some { f with verbose := false }
  | _ => none

/-- What a part of a pattern is read with: flags given for the part replace those around it, and
no flag is both set and cleared. -/
def Flags.scoped? (f : Flags) (set clear : Text) : Option Flags := do
  let added ← set.foldlM Flags.add? {}
  let f := if added.ascii || added.unicode then { f with ascii := false, unicode := false } else f
  let f ← set.foldlM Flags.add? f
  if (added.ascii && added.unicode) || set.any (· ∈ clear) then none
  else clear.foldlM Flags.clear? f

structure Parse where
  rest : Text
  flags : Flags
  named : Text → Option Char := fun _ => none
  groups : Nat := 0
  names : List (Text × Nat) := []
  unclosed : List Nat := []
  widths : List (Nat × Width) := []
  lookBehind : Option Nat := none
  asked : List Nat := []

abbrev Parsing := Except Fault

def malformed {α : Type} : Parsing α := throw .malformed

namespace Parse

def skip (p : Parse) (n : Nat) : Parse := { p with rest := p.rest.drop n }

def category? (p : Parse) : Char → Option ClassItem
  | 'd' => some (.category .digit p.flags.ascii false)
  | 'D' => some (.category .digit p.flags.ascii true)
  | 's' => some (.category .blank p.flags.ascii false)
  | 'S' => some (.category .blank p.flags.ascii true)
  | 'w' => some (.category .word p.flags.ascii false)
  | 'W' => some (.category .word p.flags.ascii true)
  | _ => none

def control? : Char → Option Char
  | 'a' => some '\x07'
  | 'f' => some '\x0c'
  | 'n' => some '\n'
  | 'r' => some '\r'
  | 't' => some '\t'
  | 'v' => some '\x0b'
  | _ => none

def digitValue? (base : Nat) (c : Char) : Option Nat :=
  let value :=
    if '0' ≤ c ∧ c ≤ '9' then c.toNat - 48
    else if 'a' ≤ c ∧ c ≤ 'f' then c.toNat - 87
    else if 'A' ≤ c ∧ c ≤ 'F' then c.toNat - 55
    else base
  if value < base then some value else none

def digits (base limit : Nat) (s : Text) : Nat × Nat :=
  (s.take limit |>.takeWhile fun c => (digitValue? base c).isSome).foldl
    (fun (count, value) c => (count + 1, value * base + (digitValue? base c).getD 0)) (0, 0)

def hexEscape (p : Parse) (width : Nat) : Parsing (Nat × Parse) := do
  let (count, value) := digits 16 width p.rest
  if count < width || 0x110000 ≤ value then malformed
  else return (value, p.skip width)

def octalEscape (p : Parse) : Parsing (Nat × Parse) := do
  let (count, value) := digits 8 3 p.rest
  if 0o377 < value then malformed else return (value, p.skip count)

def nameEscape (p : Parse) : Parsing (Nat × Parse) :=
  match p.rest with
  | '{' :: r =>
    let name := r.takeWhile (· ≠ '}')
    match p.named name with
    | some c =>
      if name.isEmpty || name.length = r.length then malformed
      else return (c.toNat, p.skip (name.length + 2))
    | none => malformed
  | _ => malformed

def charEscape (p : Parse) : Parsing (Nat × Parse) :=
  match p.rest with
  | [] => malformed
  | 'x' :: _ => (p.skip 1).hexEscape 2
  | 'u' :: _ => (p.skip 1).hexEscape 4
  | 'U' :: _ => (p.skip 1).hexEscape 8
  | 'N' :: _ => (p.skip 1).nameEscape
  | c :: _ => match control? c with
    | some d => return (d.toNat, p.skip 1)
    | none => if c.isAlphanum then malformed else return (c.toNat, p.skip 1)

def codePoint (p : Parse) (n : Nat) : CharTest :=
  if n.isValidChar then .literal (Char.ofNat n) p.flags.rule else .oneOf false [] .exact

inductive Member
  | code (n : Nat)
  | category (item : ClassItem)

def Member.item : Member → ClassItem
  | code n => .range n n
  | category i => i

def member (p : Parse) : Parsing (Member × Parse) :=
  match p.rest with
  | [] => malformed
  | '\\' :: c :: _ =>
    let q := p.skip 1
    match q.category? c with
    | some item => return (.category item, q.skip 1)
    | none =>
      if c = 'b' then return (.code 0x08, q.skip 1)
      else do
        let (n, q) ← if '0' ≤ c ∧ c ≤ '7' then q.octalEscape else q.charEscape
        return (.code n, q)
  | ['\\'] => malformed
  | c :: _ => return (.code c.toNat, p.skip 1)

def classItems : Nat → List ClassItem → Parse → Parsing (List ClassItem × Parse)
  | 0, _, _ => malformed
  | fuel + 1, done, p => do
    if p.rest.head? = some ']' && !done.isEmpty then return (done.reverse, p.skip 1)
    let (low, p) ← p.member
    match p.rest with
    | '-' :: ']' :: _ => return ((.range 0x2D 0x2D :: low.item :: done).reverse, p.skip 2)
    | '-' :: _ =>
      let (high, p) ← (p.skip 1).member
      match low, high with
      | .code a, .code b =>
        if b < a then malformed else classItems fuel (.range a b :: done) p
      | _, _ => malformed
    | _ => classItems fuel (low.item :: done) p

def charClass (p : Parse) : Parsing (Node × Parse) := do
  let negated := p.rest.head? = some '^'
  let p := if negated then p.skip 1 else p
  let (items, p) ← classItems (p.rest.length + 1) [] p
  return (.one (.oneOf negated items p.flags.rule), p)

inductive Repeatable
  | yes
  | anchor
  | repetition

structure Piece where
  node : Node
  repeatable : Repeatable := .yes

def mayRefer (p : Parse) (number : Nat) : Bool :=
  p.widths.any (·.1 = number) && p.lookBehind.all (number < ·)

def reference (p : Parse) (number : Nat) : Parsing (Piece × Parse) :=
  if p.mayRefer number then return (⟨.again number p.flags.rule, .yes⟩, p) else malformed

def numberEscape (p : Parse) : Parsing (Piece × Parse) := do
  if (digits 8 3 p.rest).1 = 3 then
    let (n, p) ← p.octalEscape
    return (⟨.one (p.codePoint n), .yes⟩, p)
  else
    let (count, value) := digits 10 2 p.rest
    (p.skip count).reference value

def anchorEscape? (ascii : Bool) : Char → Option Anchor
  | 'A' => some .textStart
  | 'Z' => some .textEnd
  | 'b' => some (.boundary ascii)
  | 'B' => some (.noBoundary ascii)
  | _ => none

def escape (p : Parse) : Parsing (Piece × Parse) :=
  match p.rest with
  | [] => malformed
  | c :: _ =>
    match anchorEscape? p.flags.ascii c, p.category? c with
    | some a, _ => return (⟨.anchor a, .anchor⟩, p.skip 1)
    | none, some item => return (⟨.one (.oneOf false [item] .exact), .yes⟩, p.skip 1)
    | none, none =>
      if '1' ≤ c ∧ c ≤ '9' then p.numberEscape
      else do
        let (n, p) ← if c = '0' then p.octalEscape else p.charEscape
        return (⟨.one (p.codePoint n), .yes⟩, p)

abbrev Times := Nat × Option Nat

def tooLarge : Nat := 4294967295

def braces? (s : Text) : Option (Parsing Times × Nat) :=
  let (minCount, min) := digits 10 s.length s
  let s := s.drop minCount
  let (comma, maxCount, max) : Nat × Nat × Nat := match s with
    | ',' :: r => let (n, v) := digits 10 r.length r; (1, n, v)
    | _ => (0, minCount, min)
  let after := if comma = 0 then s else s.drop (1 + maxCount)
  if after.head? ≠ some '}' ∨ minCount = 0 ∧ comma = 0 then none
  else
    let length := minCount + comma + (if comma = 0 then 0 else maxCount) + 1
    let bound? := if maxCount = 0 then none else some max
    let times : Parsing Times :=
      if after = ['}', '\\'] then malformed
      else if 0 < minCount ∧ tooLarge ≤ min ∨ 0 < maxCount ∧ tooLarge ≤ max then
        throw .repetitionTooLarge
      else if bound?.any (· < min) then malformed
      else return (min, bound?)
    some (times, length)

def times? (p : Parse) : Option (Parsing Times × Nat) :=
  match p.rest with
  | '*' :: _ => some (.ok (0, none), 1)
  | '+' :: _ => some (.ok (1, none), 1)
  | '?' :: _ => some (.ok (0, some 1), 1)
  | '{' :: r => (braces? r).map fun (t, n) => (t, n + 1)
  | _ => none

inductive Preference
  | greedy
  | lazy
  | possessive
  deriving DecidableEq

/-- A possessive repetition gives back no turn and no part of one. -/
def repeated (node : Node) (times : Times) (preference : Preference) : Node :=
  match node, preference with
  | .one test, .greedy => .repeatOne test times.1 times.2 true
  | .one test, .lazy => .repeatOne test times.1 times.2 false
  | .one test, .possessive => .atomic (.repeatOne test times.1 times.2 true)
  | node, .greedy => .repeatAny node times.1 times.2 true
  | node, .lazy => .repeatAny node times.1 times.2 false
  | node, .possessive => .atomic (.repeatAny (.atomic node) times.1 times.2 true)

def preference (p : Parse) : Preference × Parse :=
  match p.rest with
  | '?' :: _ => (.lazy, p.skip 1)
  | '+' :: _ => (.possessive, p.skip 1)
  | _ => (.greedy, p)

def applyTimes (p : Parse) (times : Parsing Times) (length : Nat) (done : List Piece) :
    Parsing (List Piece × Parse) := do
  let times ← times
  match done with
  | ⟨node, .yes⟩ :: done =>
    let (preference, p) := (p.skip length).preference
    return (⟨repeated node times preference, .repetition⟩ :: done, p)
  | _ => malformed

def upTo (p : Parse) (terminator : Char) : Parsing (Text × Parse) :=
  let s := p.rest.takeWhile (· ≠ terminator)
  if s.length = p.rest.length then malformed else return (s, p.skip (s.length + 1))

def name (p : Parse) (terminator : Char) : Parsing (Text × Parse) := do
  let (n, p) ← p.upTo terminator
  if Text.isIdentifier n then return (n, p) else malformed

def number? (p : Parse) (name : Text) : Option Nat := (p.names.find? (·.1 = name)).map (·.2)

def openGroup (p : Parse) : Nat × Parse :=
  let number := p.groups + 1
  (number, { p with groups := number, unclosed := number :: p.unclosed })

def groupWidth (p : Parse) (number : Nat) : Width :=
  ((p.widths.find? (·.1 = number)).map (·.2)).getD (.exactly 0)

def closeGroup (p : Parse) (number : Nat) (body : Node) : Parse :=
  { p with
    unclosed := p.unclosed.filter (· ≠ number)
    widths := (number, body.width p.groupWidth) :: p.widths }

inductive Opening
  | capture (number : Nat)
  | plain
  | atomic
  | flagged (flags : Flags)
  | ahead (negated : Bool)
  | behind (negated : Bool)

def Opening.inside (o : Opening) (p : Parse) : Parse :=
  match o with
  | flagged flags => { p with flags }
  | behind _ => { p with lookBehind := p.lookBehind <|> some (p.groups + 1) }
  | _ => p

def Opening.close (o : Opening) (before : Parse) (body : Node) (p : Parse) :
    Parsing (Node × Parse) :=
  let p := { p with flags := before.flags, lookBehind := before.lookBehind }
  match o with
  | capture n => return (.group n body, p.closeGroup n body)
  | plain | flagged _ => return (body, p)
  | atomic => return (.atomic body, p)
  | ahead negated => return (.ahead negated body, p)
  | behind negated =>
    let width := body.width p.groupWidth
    if width.most = some width.least ∧ width.least ≤ tooLarge then
      return (.behind negated width.least body, p)
    else malformed

/-- Letters that set flags, and behind a hyphen letters that clear them; then a colon begins the
part they are for, and a parenthesis ends those for the whole pattern. -/
def flagged (p : Parse) : Parsing (Option Opening × Parse) :=
  let set := p.rest.takeWhile (· ∉ [')', '-', ':'])
  let q := p.skip (set.length + 1)
  match p.rest.drop set.length with
  | ')' :: _ => match set.foldlM Flags.add? p.flags, ({} : Flags).scoped? set [] with
    | some flags, some _ => if set.isEmpty then malformed else return (none, { q with flags })
    | _, _ => malformed
  | ':' :: _ => match p.flags.scoped? set [] with
    | some flags => return (some (.flagged flags), q)
    | none => malformed
  | '-' :: _ => do
    let (clear, q) ← q.upTo ':'
    match p.flags.scoped? set clear with
    | some flags => if clear.isEmpty then malformed else return (some (.flagged flags), q)
    | none => malformed
  | _ => malformed

def namedGroup (p : Parse) : Parsing (Opening × Parse) := do
  let (n, p) ← p.name '>'
  if (p.number? n).isSome then malformed
  let (number, p) := p.openGroup
  return (.capture number, { p with names := (n, number) :: p.names })

def namedReference (p : Parse) : Parsing (Piece × Parse) := do
  let (n, p) ← p.name ')'
  match p.number? n with
  | some number => p.reference number
  | none => malformed

def wholeNumber? (s : Text) : Option Int :=
  let s := ((s.dropWhile Text.isBlank).reverse.dropWhile Text.isBlank).reverse
  let (negative, s) := match s with
    | '+' :: r => (false, r)
    | '-' :: r => (true, r)
    | r => (false, r)
  let rec go (value : Nat) : Text → Option Nat
    | [] => some value
    | '_' :: c :: r => (Text.digitValue? c).bind fun d => go (value * 10 + d) r
    | c :: r => (Text.digitValue? c).bind fun d => go (value * 10 + d) r
  match s with
  | c :: _ =>
    if (Text.digitValue? c).isSome then
      (go 0 s).map fun (n : Nat) => if negative then -(n : Int) else n
    else none
  | [] => none

def condition (p : Parse) : Parsing (Nat × Parse) := do
  let (s, p) ← p.upTo ')'
  let (number, p) ← if Text.isIdentifier s then match p.number? s with
      | some n => pure (n, p)
      | none => malformed
    else match wholeNumber? s with
      | some n => if 0 < n then pure (n.toNat, { p with asked := n.toNat :: p.asked }) else malformed
      | none => malformed
  if p.lookBehind.isNone || p.mayRefer number then return (number, p) else malformed

/-- Goes past the next such character, but not one behind a backslash. A backslash that ends the
pattern is left to be refused. -/
def past? (stop : Char) : Text → Option Text
  | [] => none
  | ['\\'] => some ['\\']
  | '\\' :: _ :: rest => past? stop rest
  | c :: rest => if c = stop then some rest else past? stop rest

def comment (p : Parse) : Parsing Parse :=
  match past? ')' p.rest with
  | some rest => return { p with rest }
  | none => malformed

def unspaced? (p : Parse) : Option Parse :=
  match p.flags.verbose, p.rest with
  | true, '#' :: rest => some { p with rest := (past? '\n' rest).getD [] }
  | true, c :: rest => if Text.isAsciiBlank c then some { p with rest } else none
  | _, _ => none

def plainNode (flags : Flags) : Char → Piece
  | '.' => ⟨.one (if flags.dotAll then .any else .notNewline), .yes⟩
  | '^' => ⟨.anchor (if flags.multiLine then .lineStart else .textStart), .anchor⟩
  | '$' => ⟨.anchor (if flags.multiLine then .lineEnd else .lastLineEnd), .anchor⟩
  | c => ⟨.one (.literal c flags.rule), .yes⟩

inductive Beginning
  | enclosure (o : Opening)
  | reference (piece : Piece)
  | condition
  | comment
  | flags

def beginning (p : Parse) : Parsing (Beginning × Parse) :=
  match p.rest with
  | '?' :: ':' :: _ => return (.enclosure .plain, p.skip 2)
  | '?' :: '>' :: _ => return (.enclosure .atomic, p.skip 2)
  | '?' :: '=' :: _ => return (.enclosure (.ahead false), p.skip 2)
  | '?' :: '!' :: _ => return (.enclosure (.ahead true), p.skip 2)
  | '?' :: '<' :: '=' :: _ => return (.enclosure (.behind false), p.skip 3)
  | '?' :: '<' :: '!' :: _ => return (.enclosure (.behind true), p.skip 3)
  | '?' :: '#' :: _ => return (.comment, ← (p.skip 2).comment)
  | '?' :: '(' :: _ => return (.condition, p.skip 2)
  | '?' :: 'P' :: '<' :: _ => do
    let (o, p) ← (p.skip 3).namedGroup
    return (.enclosure o, p)
  | '?' :: 'P' :: '=' :: _ => do
    let (piece, p) ← (p.skip 3).namedReference
    return (.reference piece, p)
  | '?' :: 'P' :: _ => malformed
  | '?' :: _ => do match ← (p.skip 1).flagged with
    | (some o, p) => return (.enclosure o, p)
    | (none, p) => return (.flags, p)
  | _ =>
    let (number, p) := p.openGroup
    return (.enclosure (.capture number), p)

def closed (p : Parse) : Parsing Parse :=
  match p.rest with
  | ')' :: _ => return p.skip 1
  | _ => malformed

mutual

/-- Alternatives up to a closing parenthesis or the end; `leading` where flags for the whole
pattern may stand. -/
def alternatives : Nat → (leading : Bool) → Parse → Parsing (Node × Parse)
  | 0, _, _ => malformed
  | fuel + 1, leading, p => do
    let (first, p) ← sequence fuel leading [] p
    match p.rest with
    | '|' :: _ =>
      let (second, p) ← alternatives fuel false (p.skip 1)
      return (.alt first second, p)
    | _ => return (first, p)

def sequence : Nat → (leading : Bool) → List Piece → Parse → Parsing (Node × Parse)
  | 0, _, _, _ => malformed
  | fuel + 1, leading, done, p => do
    match p.unspaced?, p.times?, p.rest with
    | some p, _, _ => sequence fuel leading done p
    | none, some (times, length), _ =>
      let (done, p) ← p.applyTimes times length done
      sequence fuel leading done p
    | none, none, [] | none, none, '|' :: _ | none, none, ')' :: _ =>
      return (.ofList (done.reverse.map (·.node)), p)
    | none, none, '(' :: _ => match ← (p.skip 1).beginning with
      | (.comment, p) => sequence fuel leading done p
      | (.flags, p) => if leading && done.isEmpty then sequence fuel leading done p else malformed
      | (.reference piece, p) => sequence fuel leading (piece :: done) p
      | (.condition, q) =>
        let (node, p) ← conditional fuel q
        sequence fuel leading (⟨node, .yes⟩ :: done) p
      | (.enclosure o, q) =>
        let (body, q) ← alternatives fuel false (o.inside q)
        let (node, p) ← o.close p body (← q.closed)
        sequence fuel leading (⟨node, .yes⟩ :: done) p
    | none, none, '[' :: _ =>
      let (node, p) ← (p.skip 1).charClass
      sequence fuel leading (⟨node, .yes⟩ :: done) p
    | none, none, '\\' :: _ =>
      let (piece, p) ← (p.skip 1).escape
      sequence fuel leading (piece :: done) p
    | none, none, c :: _ => sequence fuel leading (plainNode p.flags c :: done) (p.skip 1)

def conditional : Nat → Parse → Parsing (Node × Parse)
  | 0, _ => malformed
  | fuel + 1, p => do
    let (number, p) ← p.condition
    let (yes, p) ← sequence fuel false [] p
    match p.rest with
    | '|' :: _ =>
      let (no, p) ← sequence fuel false [] (p.skip 1)
      return (.conditional number yes no, ← p.closed)
    | _ => return (.conditional number yes .empty, ← p.closed)

end

end Parse

def parse (flags : Flags) (source : Text) (named : Text → Option Char := fun _ => none) :
    Except Fault Pattern := do
  let (node, p) ← Parse.alternatives (4 * source.length + 4) true { rest := source, flags, named }
  if p.rest.isEmpty && !(p.flags.ascii && p.flags.unicode) && p.asked.all (· ≤ p.groups) then
    return ⟨node, p.groups⟩
  else malformed

end LineLexer.Pattern
