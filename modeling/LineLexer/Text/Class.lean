import LineLexer.Text.Unicode

/-! Classes of characters, over all of Unicode and over ASCII alone. -/

namespace LineLexer.Text

def isBlank (c : Char) : Bool := blanks.holds c

def isAsciiBlank (c : Char) : Bool := c == ' ' || '\t' ≤ c && c ≤ '\r'

def isDigit (c : Char) : Bool := digits.holds c

def isAsciiDigit (c : Char) : Bool := '0' ≤ c && c ≤ '9'

def isAsciiWord (c : Char) : Bool := asciiWordCharacters.holds c

def isWord (c : Char) : Bool :=
  if c.toNat < 0x80 then isAsciiWord c else wordCharacters.holds c

def isPrintable (c : Char) : Bool := !unprintable.holds c

def beginsIdentifier (c : Char) : Bool :=
  isWord c && !isDigit c && !unnameable.holds c || c ∈ ['\u1885', '\u1886', '\u2118', '\u212e']

def isIdentifier : Text → Bool
  | [] => false
  | c :: rest => beginsIdentifier c && rest.all fun d =>
      beginsIdentifier d || isDigit d || joiners.holds d

def digitValue? (c : Char) : Option Nat :=
  (digits.ranges.find? fun r => r.1 ≤ c.toNat && c.toNat ≤ r.2).map fun r => (c.toNat - r.1) % 10

def lowerCode (n : Nat) : Nat :=
  match (caseRuns.takeWhile (·.low ≤ n)).find? (·.holds n) with
  | some r => (n + r.shift).toNat
  | none => n

def withLowerCode (n : Nat) : List Nat :=
  n :: caseRuns.filterMap fun r =>
    let upper := ((n : Int) - r.shift).toNat
    if r.holds upper then some upper else none

def toAsciiLower (c : Char) : Char :=
  if 'A' ≤ c ∧ c ≤ 'Z' then Char.ofNat (c.toNat + 0x20) else c

theorem isBlank_newline : isBlank '\n' = true := by decide

end LineLexer.Text
