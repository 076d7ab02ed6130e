/-! The decimal text of a binary floating-point number has the fewest digits that read back as
the same number; of several such texts the one nearest to the number is taken. The search runs
over exact fractions. -/

namespace LineLexer.Decimal

/-- A positive double as `mantissa * 2 ^ exponent`. The doubles just below a power of two lie
half as far apart as those above it. -/
structure Binary where
  mantissa : Nat
  exponent : Int
  denseBelow : Bool

def Binary.ofBits (bits : Nat) : Binary :=
  let biased : Nat := bits / Nat.pow 2 52 % 2048
  let fraction : Nat := bits % Nat.pow 2 52
  if biased = 0 then ⟨fraction, -1074, false⟩
  else ⟨fraction + Nat.pow 2 52, (biased : Int) - 1075, fraction == 0 && 1 < biased⟩

/-- A point `digits * 10 ^ power` of the decimal grid. -/
structure Grid where
  digits : Nat
  power : Int

def Binary.quarter (b : Binary) (power : Int) : Nat × Nat :=
  let twos := b.exponent - 2
  (Nat.pow 2 twos.toNat * Nat.pow 10 (-power).toNat,
    Nat.pow 2 (-twos).toNat * Nat.pow 10 power.toNat)

/-- The decimals nearer to this number than to its neighbours; the ends belong to it when its
mantissa is even. -/
def Binary.owns (b : Binary) (g : Grid) : Bool :=
  let (unit, denominator) := b.quarter g.power
  let low := (4 * b.mantissa - if b.denseBelow then 1 else 2) * unit
  let high := (4 * b.mantissa + 2) * unit
  let point := g.digits * denominator
  if b.mantissa % 2 = 0 then low ≤ point && point ≤ high else low < point && point < high

def Binary.around (b : Binary) (power : Int) : List Grid :=
  let (unit, denominator) := b.quarter power
  let value := 4 * b.mantissa * unit
  let below := value / denominator
  let twice := 2 * (value % denominator)
  if twice < denominator || (twice == denominator && below % 2 == 0) then
    [⟨below, power⟩, ⟨below + 1, power⟩]
  else [⟨below + 1, power⟩, ⟨below, power⟩]

def Binary.magnitude (b : Binary) : Int :=
  let reached (e : Int) : Bool :=
    let (unit, denominator) := b.quarter e
    denominator ≤ 4 * b.mantissa * unit
  (((List.range 640).map fun (k : Nat) => (309 : Int) - k).find? reached).getD (-330)

def Binary.shortest (b : Binary) : Grid :=
  let top := b.magnitude
  let grids := (List.range 17).flatMap fun (n : Nat) => b.around (top - n)
  (grids.find? b.owns).getD ⟨b.mantissa, 0⟩

def dropZeros (digits : List Char) : List Char :=
  (digits.reverse.dropWhile (· == '0')).reverse

def Grid.text (g : Grid) : String :=
  let all := Nat.toDigits 10 g.digits
  let point : Int := all.length + g.power
  let ds := dropZeros all
  let zeros (n : Int) : String := String.ofList (List.replicate n.toNat '0')
  if -4 < point && point ≤ 16 then
    if point ≤ 0 then "0." ++ zeros (-point) ++ String.ofList ds
    else
      let whole := String.ofList (ds.take point.toNat) ++ zeros (point - ds.length)
      let rest := ds.drop point.toNat
      whole ++ "." ++ if rest.isEmpty then "0" else String.ofList rest
  else
    let e := point - 1
    let magnitude := Nat.toDigits 10 e.natAbs
    let padded := if magnitude.length < 2 then '0' :: magnitude else magnitude
    String.ofList (ds.take 1) ++ (if ds.length ≤ 1 then "" else "." ++ String.ofList (ds.drop 1))
      ++ "e" ++ (if e < 0 then "-" else "+") ++ String.ofList padded

def ofFloat (x : Float) : String :=
  if x.isNaN then "nan"
  else
    let sign := if x.toBits.toNat / Nat.pow 2 63 = 1 then "-" else ""
    let magnitude := x.toBits.toNat % Nat.pow 2 63
    if x.isInf then sign ++ "inf"
    else if magnitude = 0 then sign ++ "0.0"
    else sign ++ (Binary.ofBits magnitude).shortest.text

def toFloat (digits : Nat) (power : Int) : Float :=
  let size : Int := (Nat.toDigits 10 digits).length + power
  if digits = 0 || size < -400 then 0.0
  else if 400 < size then 1.0 / 0.0
  else if power < 0 then Float.ofScientific digits true power.natAbs
  else Float.ofScientific digits false power.toNat

end LineLexer.Decimal
