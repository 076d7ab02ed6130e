import LineLexer.Input.Codec
import LineLexer.Input.Feed
import LineLexer.Input.Utf16

/-! Encodings and their names. A decoder takes bytes chunk by chunk: the bytes of a character
that a chunk leaves unfinished are carried into the next one, a chunk that cannot be decoded is
dropped whole, and positions in errors count from the first carried byte. -/

namespace LineLexer.Input

inductive Encoding
  | utf8
  | utf8Signed
  | latin1
  | ascii
  | utf16Marked
  | utf16 (order : Utf16.Order)
  | further (codec : Codec) (seen : List Bytes)

namespace Encoding

/-- Lower case, with every run of other characters than letters, digits and points between two
of them written as one underscore. -/
def normalName (name : Text) : Text :=
  let kept (c : Char) : Bool := Text.isWord c && c != '_' || c == '.'
  let rec go (gap : Bool) (done : Text) : Text → Text
    | [] => done.reverse
    | c :: r =>
      if kept c then
        let done := if gap && !done.isEmpty then '_' :: done else done
        go false (if c.toNat < 0x80 then Text.toAsciiLower c :: done else done) r
      else go true done r
  go false [] name

def names : List (Encoding × String × List String) :=
  [(utf8, "utf_8", ["u8", "utf", "utf8", "utf8_ucs2", "utf8_ucs4", "cp65001"]),
    (utf8Signed, "utf_8_sig", []),
    (latin1, "latin_1", ["8859", "cp819", "csisolatin1", "ibm819", "iso8859", "iso8859_1",
      "iso_8859_1", "iso_8859_1_1987", "iso_ir_100", "l1", "latin", "latin1"]),
    (ascii, "ascii", ["646", "ansi_x3.4_1968", "ansi_x3_4_1968", "ansi_x3.4_1986", "cp367",
      "csascii", "ibm367", "iso646_us", "iso_646.irv_1991", "iso_ir_6", "us", "us_ascii"]),
    (utf16Marked, "utf_16", ["u16", "utf16"]),
    (utf16 .little, "utf_16_le", ["unicodelittleunmarked", "utf_16le"]),
    (utf16 .big, "utf_16_be", ["unicodebigunmarked", "utf_16be"])]

/-- A point may stand for an underscore, but not in the name itself. -/
def named? (normal : Text) : Option Encoding :=
  let given := String.ofList normal
  let unpointed := String.ofList (normal.map fun c => if c = '.' then '_' else c)
  (names.find? fun (_, name, others) =>
    given = name || others.contains given || others.contains unpointed).map (·.1)

def ofName? (name : Text) (codecs : Text → Option Codec := fun _ => none) : Except Fault Encoding :=
  if '\x00' ∈ name then .error .nulInEncoding
  else match named? (normalName name), codecs (normalName name) with
    | some encoding, _ => .ok encoding
    | none, some codec => .ok (.further codec [])
    | none, none => .error (.unknownEncoding name)

end Encoding

structure Decoder where
  encoding : Encoding
  carry : Bytes := []

namespace Decoder

def settle (d : Decoder) : Decoded → Except Fault Text × Decoder
  | .ok chars unfinished => (.ok chars, { d with carry := unfinished })
  | .bad fault => (.error (.undecodable fault), d)

def asciiDecode (bytes : Bytes) : Decoded :=
  match bytes.findIdx? fun b => 0x80 ≤ b.toNat with
  | none => .ok (bytes.map fun b => Char.ofNat b.toNat) []
  | some i => .bad ⟨"ascii", bytes.getD i 0, i, i + 1, .notAscii⟩

def feed (d : Decoder) (chunk : Bytes) : Except Fault Text × Decoder :=
  let bytes := d.carry ++ chunk
  match d.encoding with
  | .utf8 => d.settle (Utf8.decode bytes)
  | .latin1 => (.ok (bytes.map fun b => Char.ofNat b.toNat), d)
  | .ascii => d.settle (asciiDecode bytes)
  | .utf16 o => d.settle (Utf16.decode o 0 bytes)
  | .utf8Signed =>
    let unsigned : Decoder := { d with encoding := .utf8 }
    if bytes.length < 3 && bytes.isPrefixOf Utf8.signature then (.ok [], { d with carry := bytes })
    else if Utf8.signature.isPrefixOf bytes then unsigned.settle (Utf8.decode (bytes.drop 3))
    else unsigned.settle (Utf8.decode bytes)
  | .utf16Marked =>
    match Utf16.mark? bytes with
    | some o =>
      match Utf16.decode o 2 (bytes.drop 2) with
      | .ok chars unfinished => (.ok chars, ⟨.utf16 o, unfinished⟩)
      | .bad fault => (.error (.undecodable fault), d)
    | none =>
      match Utf16.decode .little 0 bytes with
      | .ok _ unfinished =>
        if 2 ≤ bytes.length - unfinished.length then (.error .noByteOrderMark, d)
        else (.ok [], { d with carry := bytes })
      | .bad fault => (.error (.undecodable fault), d)
  | .further codec seen =>
    (codec.decode seen (some chunk), { d with encoding := .further codec (seen ++ [chunk]) })

def finish (d : Decoder) : Option Fault :=
  let fault? : Decoded → Option Fault
    | .ok .. => none
    | .bad fault => some (.undecodable fault)
  match d.encoding with
  | .utf8 => fault? (Utf8.decodeAll d.carry)
  | .utf16 o => fault? (Utf16.decodeAll o 0 d.carry)
  | .utf16Marked => fault? (Utf16.decodeAll .little 0 d.carry)
  | .utf8Signed | .latin1 | .ascii => none
  | .further codec seen => match codec.decode seen none with
    | .ok _ => none
    | .error fault => some fault

def left (d : Decoder) : Text :=
  match d.encoding with
  | .further codec seen => ((codec.decode seen none).toOption).getD []
  | _ => []

def run (d : Decoder) (last : Option Fault) : List (Except Fault Bytes) → Feed Text
  | [] => ⟨if last.isSome || d.left.isEmpty then [] else [.ok d.left], last <|> d.finish⟩
  | .error fault :: rest =>
    let f := d.run last rest
    { f with results := .error fault :: f.results }
  | .ok chunk :: rest =>
    let (result, next) := d.feed chunk
    let f := next.run last rest
    { f with results := result :: f.results }

end Decoder

def Feed.decode (e : Encoding) (f : Feed Bytes) : Feed Text := Decoder.run ⟨e, []⟩ f.last f.results

end LineLexer.Input
