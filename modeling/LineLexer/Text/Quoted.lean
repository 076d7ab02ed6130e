import LineLexer.Text.Class

/-! A text between quotes, as diagnostics show it: characters without a printed shape are
written as escapes of two, four or eight hexadecimal digits, whichever is the first to fit. -/

namespace LineLexer.Text

def hexDigits (width n : Nat) : Text :=
  let ds := Nat.toDigits 16 n
  List.replicate (width - ds.length) '0' ++ ds

/-- Single quotes, unless the text holds one and no double quote. -/
def quoteMark (s : Text) : Char :=
  if '\'' ∈ s ∧ '"' ∉ s then '"' else '\''

def quotedChar (mark c : Char) : Text :=
  if c = mark ∨ c = '\\' then ['\\', c]
  else match c with
    | '\n' => ['\\', 'n']
    | '\r' => ['\\', 'r']
    | '\t' => ['\\', 't']
    | c =>
      if isPrintable c then [c]
      else if c.toNat < 0x100 then '\\' :: 'x' :: hexDigits 2 c.toNat
      else if c.toNat < 0x10000 then '\\' :: 'u' :: hexDigits 4 c.toNat
      else '\\' :: 'U' :: hexDigits 8 c.toNat

def quoted (s : Text) : String :=
  let mark := quoteMark s
  String.ofList (mark :: s.flatMap (quotedChar mark) ++ [mark])

def quotedBytes (bytes : List UInt8) : String :=
  let s := bytes.map fun b => Char.ofNat b.toNat
  let mark := quoteMark s
  let shown (c : Char) : Text :=
    if c.toNat < 0x80 then quotedChar mark c else '\\' :: 'x' :: hexDigits 2 c.toNat
  "b" ++ String.ofList (mark :: s.flatMap shown ++ [mark])

end LineLexer.Text
