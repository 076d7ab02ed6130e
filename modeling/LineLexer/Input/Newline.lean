import LineLexer.Input.Feed

/-! Line ends: a carriage return, with or without the newline after it, is read as a newline,
and no other character ends a line. Chunk by chunk, a return at the end of a chunk is held back
until it is known whether a newline follows. -/

namespace LineLexer.Input

def normalize : Text → Text
  | [] => []
  | '\r' :: '\n' :: r => '\n' :: normalize r
  | '\r' :: r => '\n' :: normalize r
  | c :: r => c :: normalize r

def normalizeChunk (held : Bool) (chunk : Text) : Text × Bool :=
  if chunk.isEmpty then ([], held)
  else
    let s := if held then '\r' :: chunk else chunk
    if s.getLast? = some '\r' then (normalize s.dropLast, true) else (normalize s, false)

def normalizeResults (last : Option Fault) :
    Bool → List (Except Fault Text) → List (Except Fault Text)
  | held, [] => if held && last.isNone then [.ok ['\n']] else []
  | held, .error fault :: rest => .error fault :: normalizeResults last held rest
  | held, .ok chunk :: rest =>
    let (s, held) := normalizeChunk held chunk
    .ok s :: normalizeResults last held rest

/-- A return held at the end of the data is a line end of its own; one held when reading fails
for good is never delivered. -/
def Feed.normalize (f : Feed Text) : Feed Text :=
  { f with results := normalizeResults f.last false f.results }

end LineLexer.Input
