import LineLexer.Input.Feed
import LineLexer.Input.Gzip.Checksum
import LineLexer.Input.Gzip.Deflate

/-! A gzip file is a sequence of members, each with a header, compressed data and a trailer that
tells the checksum and the length of what they stand for; zero bytes may follow a member. The
file is read as a feed: one read delivers at most one piece of data, taken from at most one piece
of input unless that gives nothing. A read that fails leaves the file behind the bytes it took,
so the next one goes on there. -/

namespace LineLexer.Input.Gzip

inductive Ending
  | finished (stop : Nat)
  | invalid
  | cutShort

structure Gathered where
  delivered : List Bytes := []
  bytes : Bytes := []
  count : Nat := 0

namespace Gathered

def add (g : Gathered) (bytes : Bytes) : Gathered :=
  { g with bytes := bytes.reverse ++ g.bytes, count := g.count + bytes.length }

def deliver (g : Gathered) : Gathered :=
  if g.count = 0 then g else ⟨g.bytes.reverse :: g.delivered, [], 0⟩

def pieces (g : Gathered) : List Bytes := g.deliver.delivered.reverse

end Gathered

def bytesFor (bits : Nat) : Nat := (bits + 7) / 8

/-- The pieces that successive reads deliver. `limit` is the number of bytes of input that the
present read may use; what a read has gathered is lost when it comes upon invalid data. -/
def pieces : List Step → (limit : Nat) → Gathered → List Bytes × Ending
  | [], _, g => (g.pieces, .cutShort)
  | .finish stop :: _, _, g => (g.pieces, .finished stop)
  | .invalid stop :: _, limit, g =>
    ((if 8 * limit < stop then g else { g with bytes := [], count := 0 }).pieces, .invalid)
  | .produce bytes stop :: steps, limit, g =>
    let (limit, g) := if 8 * limit < stop then (limit + readSize, g.deliver) else (limit, g)
    let room := readSize - g.count
    if bytes.length ≤ room then pieces steps limit (g.add bytes)
    else
      let g := (g.add (bytes.take room)).deliver
      pieces steps (bytesFor stop + readSize) (g.add (bytes.drop room))

def afterZero (bytes : Bytes) : Bytes := (bytes.dropWhile (· ≠ 0)).drop 1

def afterField (length : Nat) (bytes : Bytes) : Except (Fault × Bytes) Bytes :=
  if bytes.length < length then .error (.cutShort, []) else .ok (bytes.drop length)

def afterHeader (bytes : Bytes) : Except (Fault × Bytes) Bytes := do
  let lead := bytes.take 2
  if lead ≠ [0x1F, 0x8B] then throw (.gzip (.notGzip lead), bytes.drop 2)
  let body := bytes.drop 2
  let rest ← afterField 8 body
  if body.getD 0 0 ≠ 8 then throw (.gzip .unknownMethod, rest)
  let flags := (body.getD 1 0).toNat
  let rest ←
    if flags.testBit 2 then do
      let after ← afterField 2 rest
      afterField ((rest.getD 0 0).toNat + 256 * (rest.getD 1 0).toNat) after
    else pure rest
  let rest := if flags.testBit 3 then afterZero rest else rest
  let rest := if flags.testBit 4 then afterZero rest else rest
  if flags.testBit 1 then afterField 2 rest else return rest

def word (bytes : Bytes) : Nat := (bytes.take 4).foldr (fun b n => b.toNat + 256 * n) 0

inductive Part
  | header
  | trailer (checksum length : Nat)

/-- Reads on from the given part of a member; each step takes a byte or more. -/
def readFrom : Nat → Part → Bytes → Feed Bytes
  | 0, _, _ => ⟨[], none⟩
  | _ + 1, .header, [] => ⟨[], none⟩
  | fuel + 1, .header, bytes => match afterHeader bytes with
    | .error (fault, rest) =>
      let f := readFrom fuel .header rest
      { f with results := .error fault :: f.results }
    | .ok data =>
      let (delivered, ending) := pieces (inflate data) readSize {}
      let results := delivered.map .ok
      match ending with
      | .invalid => ⟨results, some .invalidDeflate⟩
      | .cutShort => ⟨results, some .cutShort⟩
      | .finished stop =>
        let content := delivered.flatten
        let part := .trailer (checksum content) (content.length % Nat.pow 2 32)
        let f := readFrom fuel part (data.drop (bytesFor stop))
        { f with results := results ++ f.results }
  | fuel + 1, .trailer sum length, bytes =>
    if bytes.length < 8 then ⟨[], some .cutShort⟩
    else
      let rest := bytes.drop 8
      let stored := word bytes
      if stored ≠ sum then
        let f := readFrom fuel (.trailer sum length) rest
        { f with results := .error (.gzip (.checksum stored sum)) :: f.results }
      else if word (bytes.drop 4) ≠ length then
        let f := readFrom fuel (.trailer sum length) rest
        { f with results := .error (.gzip .dataLength) :: f.results }
      else readFrom fuel .header (rest.dropWhile (· = 0))

end Gzip

def Feed.ofGzip (bytes : Bytes) : Feed Bytes := Gzip.readFrom (bytes.length + 1) .header bytes

end LineLexer.Input
