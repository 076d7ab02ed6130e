import LineLexer.Json

/-! Reading a JSON document. Blanks are space, tab and the two line ends; numbers without a
fraction or exponent are whole; besides the standard the words `NaN`, `Infinity` and
`-Infinity` are numbers. A document that is no JSON is reported with the first place that
cannot be read on. -/

namespace LineLexer.Json

inductive Flaw
  | value
  | propertyName
  | colon
  | comma
  | extraData
  | unterminatedString
  | controlCharacter
  | escape
  | unicodeEscape
  | byteOrderMark

def Flaw.message : Flaw → String
  | value => "Expecting value"
  | propertyName => "Expecting property name enclosed in double quotes"
  | colon => "Expecting ':' delimiter"
  | comma => "Expecting ',' delimiter"
  | extraData => "Extra data"
  | unterminatedString => "Unterminated string starting at"
  | controlCharacter => "Invalid control character at"
  | escape => "Invalid \\escape"
  | unicodeEscape => "Invalid \\uXXXX escape"
  | byteOrderMark => "Unexpected UTF-8 BOM (decode using utf-8-sig)"

structure Fault where
  flaw : Flaw
  document : Text
  position : Nat

def Fault.message (f : Fault) : String :=
  let before := f.document.take f.position
  let line := before.count '\n' + 1
  let column := (before.reverse.takeWhile (· ≠ '\n')).length + 1
  s!"{f.flaw.message}: line {line} column {column} (char {f.position})"

structure Place where
  rest : Text
  position : Nat

abbrev Reading := Except (Flaw × Nat)

def Place.advance (p : Place) (n : Nat) : Place := ⟨p.rest.drop n, p.position + n⟩

def isGap (c : Char) : Bool := c == ' ' || c == '\t' || c == '\n' || c == '\r'

def Place.skipGap (p : Place) : Place := p.advance (p.rest.takeWhile isGap).length

def Place.fail {α : Type} (p : Place) (flaw : Flaw) : Reading (α × Place) := .error (flaw, p.position)

def hexValue? (c : Char) : Option Nat :=
  if '0' ≤ c ∧ c ≤ '9' then some (c.toNat - 48)
  else if 'a' ≤ c ∧ c ≤ 'f' then some (c.toNat - 87)
  else if 'A' ≤ c ∧ c ≤ 'F' then some (c.toNat - 55)
  else none

def hexNumber? (digits : Text) : Option Nat :=
  digits.foldl (fun n? c => do return (← n?) * 16 + (← hexValue? c)) (some 0)

def plainEscape? : Char → Option Char
  | '"' => some '"'
  | '\\' => some '\\'
  | '/' => some '/'
  | 'b' => some '\x08'
  | 'f' => some '\x0c'
  | 'n' => some '\n'
  | 'r' => some '\r'
  | 't' => some '\t'
  | _ => none

def charOfCode (n : Nat) : Char := if 0xD800 ≤ n ∧ n < 0xE000 then '\uFFFD' else Char.ofNat n

def isHighHalf (n : Nat) : Bool := decide (0xD800 ≤ n ∧ n < 0xDC00)

def isLowHalf (n : Nat) : Bool := decide (0xDC00 ≤ n ∧ n < 0xE000)

def joinHalves (high low : Nat) : Char :=
  Char.ofNat (0x10000 + (high - 0xD800) * 0x400 + (low - 0xDC00))

def codeUnit? (s : Text) : Option Nat :=
  if (s.drop 4).isEmpty then none else hexNumber? (s.take 4)

def stringBody (start : Nat) (done : Text) (p : Nat) (s : Text) : Reading (Text × Place) :=
  match s with
  | [] => .error (.unterminatedString, start)
  | '"' :: r => .ok (done.reverse, ⟨r, p + 1⟩)
  | ['\\'] => .error (.unterminatedString, start)
  | '\\' :: 'u' :: r =>
    match codeUnit? r with
    | none => .error (.unicodeEscape, p + 1)
    | some n =>
      if isHighHalf n && ['\\', 'u'].isPrefixOf (r.drop 4) && !(r.drop 10).isEmpty then
        match codeUnit? (r.drop 6) with
        | none => .error (.unicodeEscape, p + 7)
        | some low =>
          if isLowHalf low then stringBody start (joinHalves n low :: done) (p + 12) (r.drop 10)
          else stringBody start (charOfCode n :: done) (p + 6) (r.drop 4)
      else stringBody start (charOfCode n :: done) (p + 6) (r.drop 4)
  | '\\' :: c :: r =>
    match plainEscape? c with
    | some e => stringBody start (e :: done) (p + 2) r
    | none => .error (.escape, p)
  | c :: r =>
    if c.toNat < 0x20 then .error (.controlCharacter, p)
    else stringBody start (c :: done) (p + 1) r
termination_by s.length
decreasing_by all_goals (simp only [List.length_drop, List.length_cons]; omega)

def Place.string (p : Place) : Reading (Text × Place) :=
  stringBody p.position [] (p.position + 1) (p.rest.drop 1)

def digitsOf (s : Text) : Text := s.takeWhile Text.isAsciiDigit

def numberOf (digits : Text) : Nat := digits.foldl (fun n c => n * 10 + (c.toNat - 48)) 0

def exponent? : Text → Option (Int × Nat)
  | e :: r =>
    if e = 'e' ∨ e = 'E' then
      let (sign, marks, s) : Int × Nat × Text := match r with
        | '-' :: s => (-1, 2, s)
        | '+' :: s => (1, 2, s)
        | s => (1, 1, s)
      let ds := digitsOf s
      if ds.isEmpty then none else some (sign * numberOf ds, marks + ds.length)
    else none
  | [] => none

def fraction? : Text → Option Text
  | '.' :: r =>
    let ds := digitsOf r
    if ds.isEmpty then none else some ds
  | _ => none

def wholePart (s : Text) : Text :=
  match s with
  | '0' :: _ => ['0']
  | s => digitsOf s

def Place.number (p : Place) : Reading (Json × Place) :=
  let (negative, s) := match p.rest with
    | '-' :: s => (true, s)
    | s => (false, s)
  let whole := wholePart s
  if whole.isEmpty then p.fail .value
  else
    let afterWhole := s.drop whole.length
    let fraction := (fraction? afterWhole).getD []
    let fractionLength := if fraction.isEmpty then 0 else fraction.length + 1
    let exponent := exponent? (afterWhole.drop fractionLength)
    let length := (if negative then 1 else 0) + whole.length + fractionLength
      + (exponent.map (·.2)).getD 0
    let next := p.advance length
    if fraction.isEmpty && exponent.isNone then
      let n : Int := numberOf whole
      .ok (.int (if negative then -n else n), next)
    else
      let power := (exponent.map (·.1)).getD 0 - fraction.length
      let x := Decimal.toFloat (numberOf (whole ++ fraction)) power
      .ok (.float (if negative then -x else x), next)

def words : List (Text × Json) :=
  [("null".toList, .null), ("true".toList, .bool true), ("false".toList, .bool false),
    ("NaN".toList, .float (0.0 / 0.0)), ("Infinity".toList, .float (1.0 / 0.0)),
    ("-Infinity".toList, .float (-1.0 / 0.0))]

def Place.word? (p : Place) : Option (Json × Place) :=
  (words.find? fun w => w.1.isPrefixOf p.rest).map fun w => (w.2, p.advance w.1.length)

mutual

def readValue : Nat → Place → Reading (Json × Place)
  | 0, p => p.fail .value
  | fuel + 1, p =>
    match p.rest with
    | '"' :: _ => do
      let (s, q) ← p.string
      return (.text s, q)
    | '{' :: _ =>
      let q := (p.advance 1).skipGap
      match q.rest with
      | '}' :: _ => .ok (.object [], q.advance 1)
      | _ => readFields fuel [] q
    | '[' :: _ =>
      let q := (p.advance 1).skipGap
      match q.rest with
      | ']' :: _ => .ok (.list [], q.advance 1)
      | _ => readItems fuel [] q
    | _ => match p.word? with
      | some found => .ok found
      | none => p.number

def readItems : Nat → List Json → Place → Reading (Json × Place)
  | 0, _, p => p.fail .value
  | fuel + 1, done, p => do
    let (x, q) ← readValue fuel p
    let q := q.skipGap
    match q.rest with
    | ']' :: _ => return (.list (x :: done).reverse, q.advance 1)
    | ',' :: _ => readItems fuel (x :: done) (q.advance 1).skipGap
    | _ => q.fail .comma

def readFields : Nat → List (Text × Json) → Place → Reading (Json × Place)
  | 0, _, p => p.fail .value
  | fuel + 1, done, p =>
    match p.rest with
    | '"' :: _ => do
      let (key, q) ← p.string
      let q := q.skipGap
      match q.rest with
      | ':' :: _ =>
        let (x, q) ← readValue fuel (q.advance 1).skipGap
        let q := q.skipGap
        let done := insertField done key x
        match q.rest with
        | '}' :: _ => return (.object done, q.advance 1)
        | ',' :: _ => readFields fuel done (q.advance 1).skipGap
        | _ => q.fail .comma
      | _ => q.fail .colon
    | _ => p.fail .propertyName

end

def readDocument (document : Text) : Reading (Json × Place) :=
  let start : Place := ⟨document, 0⟩
  match document with
  | '\uFEFF' :: _ => start.fail .byteOrderMark
  | _ => do
    let (x, p) ← readValue (2 * document.length + 4) start.skipGap
    let p := p.skipGap
    if p.rest.isEmpty then return (x, p) else p.fail .extraData

def parse (document : Text) : Except Fault Json :=
  match readDocument document with
  | .ok (x, _) => .ok x
  | .error (flaw, position) => .error ⟨flaw, document, position⟩

end LineLexer.Json
