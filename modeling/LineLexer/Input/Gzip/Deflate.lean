import LineLexer.Input.Gzip.PrefixCode

/-! Compressed data as a list of steps. Each step carries the number of bits that have been read
when it is taken, so that a reader who gets the data piece by piece can tell which steps a piece
allows. Data that stop early give the steps up to there. -/

namespace LineLexer.Input.Gzip

inductive Step
  | produce (bytes : Bytes) (stop : Nat)
  | finish (stop : Nat)
  | invalid (stop : Nat)

structure Inflated where
  history : Array UInt8 := #[]
  steps : List Step := []

namespace Inflated

def literal (out : Inflated) (b : UInt8) (stop : Nat) : Inflated :=
  ⟨out.history.push b, .produce [b] stop :: out.steps⟩

/-- Bytes from `distance` back on, which may include those the copy itself produces. -/
def copied (history : Array UInt8) (distance : Nat) : Nat → Bytes → Array UInt8 × Bytes
  | 0, done => (history, done.reverse)
  | n + 1, done =>
    let b := history.getD (history.size - distance) 0
    copied (history.push b) distance n (b :: done)

def copy (out : Inflated) (length distance stop : Nat) : Inflated :=
  let (history, bytes) := copied out.history distance length []
  ⟨history, .produce bytes stop :: out.steps⟩

def invalid (out : Inflated) (stop : Nat) : Inflated :=
  { out with steps := .invalid stop :: out.steps }

end Inflated

inductive Progress
  | ended (out : Inflated) (rest : Bits)
  | stopped (out : Inflated)

def lengthTable : List (Nat × Nat) :=
  [(3, 0), (4, 0), (5, 0), (6, 0), (7, 0), (8, 0), (9, 0), (10, 0), (11, 1), (13, 1), (15, 1),
    (17, 1), (19, 2), (23, 2), (27, 2), (31, 2), (35, 3), (43, 3), (51, 3), (59, 3), (67, 4),
    (83, 4), (99, 4), (115, 4), (131, 5), (163, 5), (195, 5), (227, 5), (258, 0)]

def distanceTable : List (Nat × Nat) :=
  [(1, 0), (2, 0), (3, 0), (4, 0), (5, 1), (7, 1), (9, 2), (13, 2), (17, 3), (25, 3), (33, 4),
    (49, 4), (65, 5), (97, 5), (129, 6), (193, 6), (257, 7), (385, 7), (513, 8), (769, 8),
    (1025, 9), (1537, 9), (2049, 10), (3073, 10), (4097, 11), (6145, 11), (8193, 12),
    (12289, 12), (16385, 13), (24577, 13)]

def extended? (entry : Nat × Nat) (b : Bits) : Option (Nat × Bits) :=
  (b.number? entry.2).map fun (extra, rest) => (entry.1 + extra, rest)

structure Codes where
  literals : PrefixCode
  distances : PrefixCode

def copyStep (codes : Codes) (out : Inflated) (entry : Nat × Nat) (b : Bits) : Progress :=
  match extended? entry b with
  | none => .stopped out
  | some (length, b) => match codes.distances.decode b with
    | .cutShort => .stopped out
    | .noSuchWord used => .stopped (out.invalid used)
    | .symbol d b => match distanceTable[d]? with
      | none => .stopped (out.invalid b.used)
      | some entry => match extended? entry b with
        | none => .stopped out
        | some (distance, b) =>
          if out.history.size < distance then .stopped (out.invalid b.used)
          else .ended (out.copy length distance b.used) b

def symbols (codes : Codes) : Nat → Inflated → Bits → Progress
  | 0, out, _ => .stopped out
  | fuel + 1, out, b => match codes.literals.decode b with
    | .cutShort => .stopped out
    | .noSuchWord used => .stopped (out.invalid used)
    | .symbol n b =>
      if n < 256 then symbols codes fuel (out.literal (UInt8.ofNat n) b.used) b
      else if n = 256 then .ended out b
      else match lengthTable[n - 257]? with
        | none => .stopped (out.invalid b.used)
        | some entry => match copyStep codes out entry b with
          | .ended out b => symbols codes fuel out b
          | .stopped out => .stopped out

def storedBytes : Nat → Inflated → Bits → Progress
  | 0, out, b => .ended out b
  | n + 1, out, b => match b.number? 8 with
    | none => .stopped out
    | some (byte, b) => storedBytes n (out.literal (UInt8.ofNat byte) b.used) b

def storedBlock (out : Inflated) (b : Bits) : Progress :=
  match b.align.number? 32 with
  | none => .stopped out
  | some (header, b) =>
    let length := header % 0x10000
    if length + header / 0x10000 = 0xFFFF then storedBytes length out b
    else .stopped (out.invalid b.used)

def fixedCodes : Codes :=
  let literals := List.replicate 144 8 ++ List.replicate 112 9 ++ List.replicate 24 7
    ++ List.replicate 8 8
  ⟨(PrefixCode.ofLengths? false literals).getD .gap,
    (PrefixCode.ofLengths? false (List.replicate 32 5)).getD .gap⟩

def lengthOrder : List Nat :=
  [16, 17, 18, 0, 8, 7, 9, 6, 10, 5, 11, 4, 12, 3, 13, 2, 14, 1, 15]

inductive Lengths
  | ok (lengths : List Nat) (rest : Bits)
  | invalid (used : Nat)
  | cutShort

def readNumbers (width : Nat) : Nat → Bits → Option (List Nat × Bits)
  | 0, b => some ([], b)
  | n + 1, b => do
    let (x, b) ← b.number? width
    let (xs, b) ← readNumbers width n b
    return (x :: xs, b)

def lengthCode? (widths : List Nat) : Option PrefixCode :=
  if widths.all (· = 0) then some (.fork (.symbol 0) (.symbol 0))
  else PrefixCode.ofLengths? false widths

/-- Reads `count` lengths, latest first in `done`; three symbols repeat the length before or
zero. -/
def readLengths (code : PrefixCode) (count : Nat) : Nat → List Nat → Bits → Lengths
  | 0, _, _ => .cutShort
  | fuel + 1, done, b =>
    if count ≤ done.length then .ok done.reverse b
    else match code.decode b with
      | .cutShort => .cutShort
      | .noSuchWord used => .invalid used
      | .symbol n b =>
        if n < 16 then readLengths code count fuel (n :: done) b
        else
          let (width, base) := if n = 16 then (2, 3) else if n = 17 then (3, 3) else (7, 11)
          match b.number? width with
          | none => .cutShort
          | some (extra, b) =>
            let times := base + extra
            match n, done with
            | 16, [] => .invalid b.used
            | _, _ =>
              let value := if n = 16 then done.headD 0 else 0
              if count < done.length + times then .invalid b.used
              else readLengths code count fuel (List.replicate times value ++ done) b

inductive Header
  | ok (codes : Codes) (rest : Bits)
  | invalid (used : Nat)
  | cutShort

def readCodes (b : Bits) : Header :=
  match b.number? 14 with
  | none => .cutShort
  | some (sizes, b) =>
    let literals := sizes % 32 + 257
    let distances := sizes / 32 % 32 + 1
    let written := sizes / 1024 + 4
    if 286 < literals || 30 < distances then .invalid b.used
    else match readNumbers 3 written b with
      | none => .cutShort
      | some (widths, b) =>
        let lengthOf (s : Nat) : Nat := widths.getD (lengthOrder.idxOf s) 0
        match lengthCode? ((List.range 19).map lengthOf) with
        | none => .invalid b.used
        | some code => match readLengths code (literals + distances) 400 [] b with
          | .cutShort => .cutShort
          | .invalid used => .invalid used
          | .ok lengths b =>
            let own := lengths.take literals
            match own.getD 256 0, PrefixCode.ofLengths? true own,
                PrefixCode.ofLengths? true (lengths.drop literals) with
            | _ + 1, some ls, some ds => .ok ⟨ls, ds⟩ b
            | _, _, _ => .invalid b.used

def block (kind : Nat) (out : Inflated) (b : Bits) : Progress :=
  match kind with
  | 0 => storedBlock out b
  | 1 => symbols fixedCodes (b.rest.length + 1) out b
  | 2 => match readCodes b with
    | .ok codes b => symbols codes (b.rest.length + 1) out b
    | .invalid used => .stopped (out.invalid used)
    | .cutShort => .stopped out
  | _ => .stopped (out.invalid b.used)

def blocks : Nat → Inflated → Bits → Inflated
  | 0, out, _ => out
  | fuel + 1, out, b => match b.number? 3 with
    | none => out
    | some (header, b) => match block (header / 2) out b with
      | .stopped out => out
      | .ended out b =>
        if header % 2 = 1 then { out with steps := .finish b.used :: out.steps }
        else blocks fuel out b

def inflate (bytes : Bytes) : List Step :=
  let b := Bits.ofBytes bytes
  (blocks (b.rest.length + 1) {} b).steps.reverse

end LineLexer.Input.Gzip
