import LineLexer.Json.Misuse

/-! The settings of a scan. Values are kept as they were given; when settings are put together it
is checked that the sizes are large enough and that no comment delimiter is empty. -/

namespace LineLexer

structure Config where
  lookahead : Json := .int 16
  fileBufferSize : Json := .int 1048576
  encoding : Json := .text "utf-8".toList
  compressedSuffixes : List Json := [.text ".gz".toList]
  opener : Json := .text "/*".toList
  closer : Json := .text "*/".toList
  lineComment : Json := .text "//".toList
  opener_isTruthy : opener.isTruthy = true := by decide
  closer_isTruthy : closer.isTruthy = true := by decide
  lineComment_isTruthy : lineComment.isTruthy = true := by decide

namespace Config

inductive Fault
  | misuse (m : Misuse)
  | lookahead (given : Json)
  | fileBufferSize (given : Json)
  | delimiterCount (given : List Json)
  | emptyDelimiter (block : List Json) (line : Json)
  | unknownKeys (names : List Text)
  | capacity (given : Json)

def Fault.message : Fault → String
  | misuse m => m.message
  | lookahead v => s!"lookahead must be positive, got {v.shown}"
  | fileBufferSize v => s!"file_buffer_size must be at least 2, got {v.shown}"
  | delimiterCount vs => s!"block_comment needs an opener and a closer, got {Json.shownTuple vs}"
  | emptyDelimiter vs line =>
    s!"comment delimiters must not be empty, got {Json.shownTuple vs} and {line.shown}"
  | unknownKeys names =>
    "Unknown config keys: " ++ Json.commaSeparated (names.map fun n => String.ofList n)
  | capacity v => s!"capacity must be positive, got {v.shown}"

structure Draft where
  lookahead : Json := .int 16
  fileBufferSize : Json := .int 1048576
  encoding : Json := .text "utf-8".toList
  compressedSuffixes : Json := .list [.text ".gz".toList]
  blockComment : Json := .list [.text "/*".toList, .text "*/".toList]
  lineComment : Json := .text "//".toList

def liftMisuse {α : Type} (x : Except Misuse α) : Except Fault α := x.mapError .misuse

def Draft.check (d : Draft) : Except Fault Config := do
  let suffixes ← liftMisuse d.compressedSuffixes.parts
  let block ← liftMisuse d.blockComment.parts
  if ← liftMisuse (d.lookahead.isBelow false 0) then throw (.lookahead d.lookahead)
  if ← liftMisuse (d.fileBufferSize.isBelow true 2) then throw (.fileBufferSize d.fileBufferSize)
  match block with
  | [opener, closer] =>
    if h : opener.isTruthy = true ∧ closer.isTruthy = true ∧ d.lineComment.isTruthy = true then
      return ⟨d.lookahead, d.fileBufferSize, d.encoding, suffixes, opener, closer, d.lineComment,
        h.1, h.2.1, h.2.2⟩
    else throw (.emptyDelimiter block d.lineComment)
  | _ => throw (.delimiterCount block)

def Draft.set (d : Draft) (name : String) (v : Json) : Option Draft :=
  match name with
  | "lookahead" => some { d with lookahead := v }
  | "file_buffer_size" => some { d with fileBufferSize := v }
  | "encoding" => some { d with encoding := v }
  | "compressed_suffixes" => some { d with compressedSuffixes := v }
  | "block_comment" => some { d with blockComment := v }
  | "line_comment" => some { d with lineComment := v }
  | _ => none

def Draft.ofFields (d : Draft) : List (Text × Json) → Except Fault Draft
  | [] => .ok d
  | (name, v) :: rest => match d.set (String.ofList name) v with
    | some d => d.ofFields rest
    | none => .error (.misuse (.unexpectedSetting name))

def ofFields (fields : List (Text × Json)) : Except Fault Config := do
  (← Draft.ofFields {} fields).check

end Config
end LineLexer
