import LineLexer.Input.Utf8

/-! UTF-16 in either byte order: two bytes a unit, and two surrogate units a character beyond
the first plane. -/

namespace LineLexer.Input.Utf16

inductive Order
  | little
  | big
  deriving DecidableEq

def Order.codec : Order → String
  | little => "utf-16-le"
  | big => "utf-16-be"

def Order.unit (o : Order) (first second : UInt8) : Nat :=
  match o with
  | little => second.toNat * 0x100 + first.toNat
  | big => first.toNat * 0x100 + second.toNat

def isHigh (u : Nat) : Bool := 0xD800 ≤ u && u < 0xDC00

def isLow (u : Nat) : Bool := 0xDC00 ≤ u && u < 0xE000

def decodeFrom (o : Order) (position : Nat) (done : Text) : Bytes → Decoded
  | a :: b :: rest =>
    let u := o.unit a b
    if isLow u then .bad ⟨o.codec, a, position, position + 2, .illegalEncoding⟩
    else if isHigh u then match rest with
      | c :: d :: rest =>
        let v := o.unit c d
        if isLow v then
          let c := Char.ofNat (0x10000 + (u - 0xD800) * 0x400 + (v - 0xDC00))
          decodeFrom o (position + 4) (c :: done) rest
        else .bad ⟨o.codec, a, position, position + 2, .illegalSurrogate⟩
      | rest => .ok done.reverse (a :: b :: rest)
    else decodeFrom o (position + 2) (Char.ofNat u :: done) rest
  | unfinished => .ok done.reverse unfinished

def decode (o : Order) (skipped : Nat) (bytes : Bytes) : Decoded := decodeFrom o skipped [] bytes

def decodeAll (o : Order) (skipped : Nat) (bytes : Bytes) : Decoded :=
  match decode o skipped bytes with
  | .ok chars [] => .ok chars []
  | .ok _ (a :: rest) =>
    let stop := skipped + bytes.length
    let reason := if rest.isEmpty then .truncatedUnit else .unexpectedEnd
    .bad ⟨o.codec, a, stop - (rest.length + 1), stop, reason⟩
  | .bad fault => .bad fault

def mark? : Bytes → Option Order
  | 0xFF :: 0xFE :: _ => some .little
  | 0xFE :: 0xFF :: _ => some .big
  | _ => none

end LineLexer.Input.Utf16
