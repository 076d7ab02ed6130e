import LineLexer.Fault
import LineLexer.Input.LineStream
import LineLexer.Log

/-! A reader holds one line of a file with a cursor in it: the characters before the cursor,
nearest first, and those from the cursor on, which end with the line's newline. At the end of
input the last line stays in place and nothing more is read. -/

namespace LineLexer

inductive Note
  | openingCompressed (file : Text)
  | openingPlain (file : Text) (bufferSize : Int)
  | reachedEnd (file : Text) (lines : Nat)
  | failed (file : Text) (line : Nat) (cause : Input.Fault)
  | closed (file : Text)
  deriving DecidableEq

def Note.level : Note → Log.Level
  | failed .. => .error
  | _ => .debug

def Note.message : Note → String
  | openingCompressed file => s!"Opening {String.ofList file} with gzip decompression"
  | openingPlain file size => s!"Opening {String.ofList file} with a {size} byte buffer"
  | reachedEnd file lines => s!"Reached end of {String.ofList file} after {lines} line(s)"
  | failed file line cause =>
    s!"Failed reading {String.ofList file} at line {line}: {cause.message}"
  | closed file => s!"Closed {String.ofList file}"

structure Reader where
  file : Text
  config : Config
  lineNumber : Nat := 0
  passed : Text := []
  rest : Text := []
  ended : Bool := false
  cachedRemainder : Option Text := none
  lastMatch : Option Match := none
  queue : List Capture := []
  stream : Option Input.LineStream
  notes : List Note := []

/-- An operation keeps the state it leaves also when it fails. -/
abbrev Op := EStateM Fault Reader

namespace Reader

def line (r : Reader) : Text := r.passed.reverse ++ r.rest

def cursor (r : Reader) : Nat := r.passed.length

def column (r : Reader) : Nat := r.cursor + 1

def location (r : Reader) : Location := ⟨r.file, r.lineNumber, r.column⟩

def note (r : Reader) (n : Note) : Reader := { r with notes := r.notes ++ [n] }

def advance (r : Reader) (n : Nat) : Reader :=
  { r with
    passed := (r.rest.take n).reverse ++ r.passed
    rest := r.rest.drop n
    cachedRemainder := none }

def toLast (r : Reader) : Reader :=
  match r.rest.reverse, r.passed with
  | c :: before, passed => { r with passed := before ++ passed, rest := [c] }
  | [], c :: passed => { r with passed, rest := [c] }
  | [], [] => r

def close (r : Reader) : Reader :=
  match r.stream with
  | some _ => { r with stream := none }.note (.closed r.file)
  | none => r

def breakStream (message : Text) (r : Reader) : Reader :=
  { r with stream := r.stream.map fun s => { s with broken := some message } }

/-- The text still to be read, each line with its newline, as far as reading succeeds. -/
def unreadText (r : Reader) : Text :=
  if r.ended then []
  else r.rest ++ Input.withFinalNewline ((r.stream.map Input.LineStream.text).getD [])

def unread (r : Reader) : Nat := r.unreadText.length

end Reader

namespace Op

def ofExcept {α : Type} (x : Except Fault α) : Op α :=
  match x with
  | .ok a => pure a
  | .error fault => throw fault

def observe {α : Type} (f : Reader → Except Fault α) : Op α := fun r =>
  match f r with
  | .ok a => .ok a r
  | .error fault => .error fault r

theorem bind_eq_ok {α β : Type} {x : Op α} {f : α → Op β} {r s : Reader} {b : β} :
    (x >>= f) r = .ok b s ↔ ∃ a t, x r = .ok a t ∧ f a t = .ok b s := by
  show EStateM.bind x f r = _ ↔ _
  unfold EStateM.bind
  cases x r with
  | ok a t => exact ⟨fun h => ⟨a, t, rfl, h⟩, fun ⟨_, _, h, hf⟩ => by cases h; exact hf⟩
  | error fault t => simp

theorem bind_of_ok {α β : Type} {x : Op α} {f : α → Op β} {r s : Reader} {a : α}
    (h : x r = .ok a s) : (x >>= f) r = f a s := by
  show EStateM.bind x f r = _
  simp [EStateM.bind, h]

theorem bind_of_error {α β : Type} {x : Op α} {f : α → Op β} {r s : Reader} {fault : Fault}
    (h : x r = .error fault s) : (x >>= f) r = .error fault s := by
  show EStateM.bind x f r = _
  simp [EStateM.bind, h]

theorem get_bind {β : Type} (f : Reader → Op β) (r : Reader) : (get >>= f) r = f r r := rfl

theorem pure_eq_ok {α : Type} {a b : α} {r s : Reader} :
    (pure a : Op α) r = .ok b s ↔ a = b ∧ r = s := by
  show EStateM.Result.ok a r = _ ↔ _
  simp

end Op
end LineLexer
