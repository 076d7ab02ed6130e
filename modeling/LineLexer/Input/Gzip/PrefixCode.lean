import LineLexer.Input.Fault

/-! Bits and the prefix codes over them. A code is given by the lengths of its words alone:
words of one length are consecutive numbers in the order of their symbols, and a shorter word
precedes every longer one. -/

namespace LineLexer.Input.Gzip

structure Bits where
  rest : List Bool
  used : Nat := 0

def bitsOfByte (b : UInt8) : List Bool := (List.range 8).map fun i => b.toNat.testBit i

def Bits.ofBytes (bytes : Bytes) : Bits := ⟨bytes.flatMap bitsOfByte, 0⟩

def Bits.drop (b : Bits) (n : Nat) : Bits := ⟨b.rest.drop n, b.used + n⟩

def Bits.align (b : Bits) : Bits := b.drop ((8 - b.used % 8) % 8)

def number : List Bool → Nat
  | [] => 0
  | b :: r => b.toNat + 2 * number r

def Bits.number? (b : Bits) (width : Nat) : Option (Nat × Bits) :=
  let taken := b.rest.take width
  if taken.length < width then none else some (number taken, b.drop width)

inductive PrefixCode
  | gap
  | symbol (n : Nat)
  | fork (zero one : PrefixCode)

namespace PrefixCode

def insert (n : Nat) : List Bool → PrefixCode → PrefixCode
  | [], _ => symbol n
  | false :: w, fork zero one => fork (insert n w zero) one
  | true :: w, fork zero one => fork zero (insert n w one)
  | false :: w, _ => fork (insert n w gap) gap
  | true :: w, _ => fork gap (insert n w gap)

def maxLength : Nat := 15

def share (length : Nat) : Nat := Nat.pow 2 (maxLength - length)

def word (length value : Nat) : List Bool :=
  (List.range length).map fun i => value.testBit (length - 1 - i)

def ordered (lengths : List Nat) : List (Nat × Nat) :=
  (List.range maxLength).flatMap fun l =>
    (lengths.zipIdx.filter (·.1 = l + 1))

def ofOrdered : Nat → PrefixCode → List (Nat × Nat) → PrefixCode
  | _, code, [] => code
  | start, code, (length, n) :: rest =>
    let code := code.insert n (word length (start / share length))
    ofOrdered (start + share length) code rest

/-- Lengths that take up more words than there are give no code; lengths that leave words over
give one only where allowed and when no word is longer than one bit. -/
def ofLengths? (mayLeaveGap : Bool) (lengths : List Nat) : Option PrefixCode :=
  let used := ordered lengths
  let taken := used.foldl (fun n u => n + share u.1) 0
  if share 0 < taken then none
  else if taken < share 0 && !(mayLeaveGap && used.all (·.1 ≤ 1)) then none
  else some (ofOrdered 0 gap used)

inductive Decoded
  | symbol (n : Nat) (rest : Bits)
  | noSuchWord (used : Nat)
  | cutShort

def decodeFrom (code : PrefixCode) (used : Nat) (bits : List Bool) : Decoded :=
  match code, bits with
  | symbol n, bits => .symbol n ⟨bits, used⟩
  | gap, _ => .noSuchWord used
  | fork .., [] => .cutShort
  | fork zero _, false :: r => decodeFrom zero (used + 1) r
  | fork _ one, true :: r => decodeFrom one (used + 1) r

def decode (code : PrefixCode) (b : Bits) : Decoded :=
  match code, b.rest with
  | gap, [] => .cutShort
  | gap, _ :: _ => .noSuchWord (b.used + 1)
  | code, bits => decodeFrom code b.used bits

end PrefixCode
end LineLexer.Input.Gzip
