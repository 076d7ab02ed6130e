import LineLexer.Input.Fault

/-! The cyclic redundancy check of 32 bits, lowest bit first. -/

namespace LineLexer.Input.Gzip

def checksumBit (x : UInt32) : UInt32 :=
  if x &&& 1 = 1 then (x >>> 1) ^^^ 0xEDB88320 else x >>> 1

def checksumByte (x : UInt32) (b : UInt8) : UInt32 :=
  Nat.repeat checksumBit 8 (x ^^^ b.toUInt32)

def checksum (bytes : Bytes) : Nat :=
  ((bytes.foldl checksumByte 0xFFFFFFFF) ^^^ 0xFFFFFFFF).toNat

end LineLexer.Input.Gzip
