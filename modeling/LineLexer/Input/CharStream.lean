import LineLexer.Input.Encoding

/-! Streams that deliver one character a read, line ends untouched: a text held in memory whose
reads fail at chosen times, and the decoded text of a feed. -/

namespace LineLexer.Input

/-- A read that fails consumes nothing. Reads are counted from zero. -/
structure MemoryStream where
  text : Text
  reads : Nat := 0
  fails : Nat → Bool := fun _ => false
  message : Text := []

def MemoryStream.read (s : MemoryStream) : Except Fault (Option Char) × MemoryStream :=
  let next := { s with reads := s.reads + 1 }
  if s.fails s.reads then (.error (.device s.message), next)
  else match s.text with
    | [] => (.ok none, next)
    | c :: r => (.ok (some c), { next with text := r })

structure FeedStream where
  buffer : Text := []
  feed : Feed Text

def nextChunk (last : Option Fault) :
    List (Except Fault Text) → Except Fault Text × List (Except Fault Text)
  | [] => match last with
    | none => (.ok [], [])
    | some fault => (.error fault, [])
  | .ok [] :: rest => nextChunk last rest
  | result :: rest => (result, rest)

def FeedStream.read (s : FeedStream) : Except Fault (Option Char) × FeedStream :=
  match s.buffer with
  | c :: r => (.ok (some c), { s with buffer := r })
  | [] => match nextChunk s.feed.last s.feed.results with
    | (.ok [], results) => (.ok none, { s with feed := { s.feed with results } })
    | (.ok (c :: r), results) => (.ok (some c), ⟨r, { s.feed with results }⟩)
    | (.error fault, results) => (.error fault, { s with feed := { s.feed with results } })

inductive CharStream
  | memory (s : MemoryStream)
  | decoded (s : FeedStream)
  | closed (reads : Nat)

namespace CharStream

def read : CharStream → Except Fault (Option Char) × CharStream
  | memory s => let (r, s) := s.read; (r, memory s)
  | decoded s => let (r, s) := s.read; (r, decoded s)
  | closed n => (.error .closed, closed (n + 1))

def reads : CharStream → Nat
  | memory s => s.reads
  | decoded _ => 0
  | closed n => n

def close (s : CharStream) : CharStream := closed s.reads

def size : CharStream → Nat
  | memory s => s.text.length
  | decoded s => s.buffer.length + s.feed.pieces.flatten.length
  | closed _ => 0

theorem nextChunk_size (last : Option Fault) (results : List (Except Fault Text)) :
    ∀ {chunk rest}, nextChunk last results = (.ok chunk, rest) →
      (⟨results, last⟩ : Feed Text).pieces.flatten.length =
        chunk.length + (⟨rest, last⟩ : Feed Text).pieces.flatten.length := by
  induction results with
  | nil => intro chunk rest h; cases last <;> simp_all [nextChunk, Feed.pieces]
  | cons result results ih =>
    intro chunk rest h
    match result with
    | .ok [] => simpa [Feed.pieces] using ih h
    | .ok (c :: r) =>
      simp only [nextChunk, Prod.mk.injEq, Except.ok.injEq] at h
      simp [Feed.pieces, ← h.1, ← h.2]
      omega
    | .error fault => simp [nextChunk] at h

theorem size_read {s t : CharStream} {c : Char} (h : s.read = (.ok (some c), t)) :
    t.size < s.size := by
  match s with
  | memory s =>
    simp only [read, MemoryStream.read] at h
    split at h <;> simp_all
    split at h <;> simp_all
    obtain ⟨-, rfl⟩ := h
    simp_all [size]
  | decoded s =>
    simp only [read, FeedStream.read] at h
    split at h
    · simp_all
      obtain ⟨-, rfl⟩ := h
      simp_all [size]
    · split at h <;> simp_all
      have := nextChunk_size _ _ ‹_›
      obtain ⟨-, rfl⟩ := h
      simp_all [size]
  | closed n => simp [read] at h

def readVisible (s : CharStream) : Except Fault (Option Char) × CharStream :=
  match _h : s.read with
  | (.ok (some c), t) => if c = '\r' then readVisible t else (.ok (some c), t)
  | (.ok none, t) => (.ok none, t)
  | (.error fault, t) => (.error fault, t)
termination_by s.size
decreasing_by exact size_read (by assumption)

end CharStream
end LineLexer.Input
