import LineLexer.Text.Quoted

/-! What can go wrong between a file's bytes and the text they stand for. -/

namespace LineLexer.Input

abbrev Bytes := List UInt8

inductive DecodeReason
  | invalidStart
  | invalidContinuation
  | unexpectedEnd
  | notAscii
  | truncatedUnit
  | illegalEncoding
  | illegalSurrogate
  | other (words : { words : String // '\t' ∉ words.toList })
  deriving DecidableEq

def DecodeReason.message : DecodeReason → String
  | invalidStart => "invalid start byte"
  | invalidContinuation => "invalid continuation byte"
  | unexpectedEnd => "unexpected end of data"
  | notAscii => "ordinal not in range(128)"
  | truncatedUnit => "truncated data"
  | illegalEncoding => "illegal encoding"
  | illegalSurrogate => "illegal UTF-16 surrogate"
  | other words => words.val

structure DecodeFault where
  codec : String
  lead : UInt8
  start : Nat
  stop : Nat
  reason : DecodeReason
  deriving DecidableEq

def DecodeFault.message (f : DecodeFault) : String :=
  let place :=
    if f.stop = f.start + 1 then
      s!"byte 0x{String.ofList (Text.hexDigits 2 f.lead.toNat)} in position {f.start}"
    else s!"bytes in position {f.start}-{f.stop - 1}"
  s!"'{f.codec}' codec can't decode {place}: {f.reason.message}"

inductive GzipFault
  | notGzip (lead : Bytes)
  | unknownMethod
  | checksum (stored computed : Nat)
  | dataLength
  deriving DecidableEq

def GzipFault.message : GzipFault → String
  | notGzip lead => s!"Not a gzipped file ({Text.quotedBytes lead})"
  | unknownMethod => "Unknown compression method"
  | checksum stored computed =>
    let hex (n : Nat) : String := "0x" ++ String.ofList (Nat.toDigits 16 n)
    s!"CRC check failed {hex stored} != {hex computed}"
  | dataLength => "Incorrect length of data produced"

inductive SystemFault
  | missing
  | notDirectory
  | directory
  | linkLoop
  deriving DecidableEq

def SystemFault.number : SystemFault → Nat
  | missing => 2
  | notDirectory => 20
  | directory => 21
  | linkLoop => 40

def SystemFault.words : SystemFault → String
  | missing => "No such file or directory"
  | notDirectory => "Not a directory"
  | directory => "Is a directory"
  | linkLoop => "Too many levels of symbolic links"

inductive Fault
  | system (fault : SystemFault) (name : Text)
  | nulInName
  | device (message : Text)
  | gzip (fault : GzipFault)
  | cutShort
  | invalidDeflate
  | undecodable (fault : DecodeFault)
  | noByteOrderMark
  | unknownEncoding (name : Text)
  | nulInEncoding
  | closed
  deriving DecidableEq

def Fault.message : Fault → String
  | system f name => s!"[Errno {f.number}] {f.words}: {name.quoted}"
  | nulInName => "embedded null byte"
  | device message => String.ofList message
  | gzip f => f.message
  | cutShort => "Compressed file ended before the end-of-stream marker was reached"
  | invalidDeflate => "Error -3 while decompressing data"
  | undecodable f => f.message
  | noByteOrderMark => "UTF-16 stream does not start with BOM"
  | unknownEncoding name => s!"unknown encoding: {String.ofList name}"
  | nulInEncoding => "embedded null character"
  | closed => "I/O operation on closed file"

def Fault.isSystem : Fault → Bool
  | system .. | device .. | gzip .. => true
  | _ => false

def Fault.isUndecodable : Fault → Bool
  | undecodable .. => true
  | _ => false

def Fault.isReported (f : Fault) : Bool := f.isSystem || f.isUndecodable

end LineLexer.Input
