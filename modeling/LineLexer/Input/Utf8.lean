import LineLexer.Input.Fault

/-! UTF-8: a lead byte fixes how many continuation bytes follow and, for four leads, narrows the
range of the first of them, so that surrogates, overlong forms and code points beyond the last
plane have no encoding. -/

namespace LineLexer.Input

inductive Decoded
  | ok (chars : Text) (unfinished : Bytes)
  | bad (fault : DecodeFault)

namespace Utf8

inductive Sequence
  | char (c : Char) (continuations : Nat)
  | unfinished
  | bad (length : Nat) (reason : DecodeReason)

def isContinuation (b : UInt8) : Bool := 0x80 ≤ b.toNat && b.toNat < 0xC0

def mayFollow (lead second : UInt8) : Bool :=
  isContinuation second &&
    match lead.toNat with
    | 0xE0 => 0xA0 ≤ second.toNat
    | 0xED => second.toNat < 0xA0
    | 0xF0 => 0x90 ≤ second.toNat
    | 0xF4 => second.toNat < 0x90
    | _ => true

def payload (b : UInt8) : Nat := b.toNat % 0x40

def sequence (lead : UInt8) (rest : Bytes) : Sequence :=
  let n := lead.toNat
  if n < 0x80 then .char (Char.ofNat n) 0
  else if n < 0xC2 then .bad 1 .invalidStart
  else if n < 0xE0 then match rest with
    | [] => .unfinished
    | b :: _ =>
      if isContinuation b then .char (Char.ofNat (n % 0x20 * 0x40 + payload b)) 1
      else .bad 1 .invalidContinuation
  else if n < 0xF0 then match rest with
    | [] => .unfinished
    | b :: more =>
      if !mayFollow lead b then .bad 1 .invalidContinuation
      else match more with
        | [] => .unfinished
        | c :: _ =>
          if isContinuation c then
            .char (Char.ofNat (n % 0x10 * 0x1000 + payload b * 0x40 + payload c)) 2
          else .bad 2 .invalidContinuation
  else if n < 0xF5 then match rest with
    | [] => .unfinished
    | b :: more =>
      if !mayFollow lead b then .bad 1 .invalidContinuation
      else match more with
        | [] => .unfinished
        | c :: more =>
          if !isContinuation c then .bad 2 .invalidContinuation
          else match more with
            | [] => .unfinished
            | d :: _ =>
              if isContinuation d then
                .char (Char.ofNat (n % 0x08 * 0x40000 + payload b * 0x1000 + payload c * 0x40
                  + payload d)) 3
              else .bad 3 .invalidContinuation
  else .bad 1 .invalidStart

def decodeFrom (position : Nat) (done : Text) (bytes : Bytes) : Decoded :=
  match bytes with
  | [] => .ok done.reverse []
  | lead :: rest => match sequence lead rest with
    | .char c n => decodeFrom (position + n + 1) (c :: done) (rest.drop n)
    | .unfinished => .ok done.reverse (lead :: rest)
    | .bad length reason => .bad ⟨"utf-8", lead, position, position + length, reason⟩
termination_by bytes.length
decreasing_by simp only [List.length_drop, List.length_cons]; omega

def decode (bytes : Bytes) : Decoded := decodeFrom 0 [] bytes

def decodeAll (bytes : Bytes) : Decoded :=
  match decode bytes with
  | .ok chars [] => .ok chars []
  | .ok _ (lead :: rest) =>
    .bad ⟨"utf-8", lead, bytes.length - (rest.length + 1), bytes.length, .unexpectedEnd⟩
  | .bad fault => .bad fault

def signature : Bytes := [0xEF, 0xBB, 0xBF]

end Utf8
end LineLexer.Input
