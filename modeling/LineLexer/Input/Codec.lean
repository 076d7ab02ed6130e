import LineLexer.Input.Fault

/-! Encodings that a machine knows besides those that every machine has. -/

namespace LineLexer.Input

/-- A decoder is given the data chunk by chunk. It tells what the next chunk stands for after the
chunks before it, and without a next chunk what is left over at the end of the data. -/
structure Codec where
  decode : List Bytes → Option Bytes → Except Fault Text
  told : ∀ seen chunk? fault, decode seen chunk? = .error fault → '\t' ∉ fault.message.toList

end LineLexer.Input
