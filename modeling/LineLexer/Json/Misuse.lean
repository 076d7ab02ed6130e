import LineLexer.Json

/-! Uses of a value that its kind does not allow. -/

namespace LineLexer

inductive Misuse
  | unordered (relation kind : String)
  | notIterable (kind : String)
  | unsized (kind : String)
  | unhashable (kind : String)
  | notMapping (kind : String)
  | unexpectedSetting (name : Text)
  | sizeKind (kind : String)
  | sizeTooLarge
  | noMemory
  | joinItem (index : Nat) (kind : String)
  | suffixKind (kind : String)
  | joinedTo (kind : String)
  | openEncoding (kind : String)
  | textEncoding (kind : String)
  | notWhole (kind : String)
  deriving DecidableEq

namespace Misuse

def message : Misuse → String
  | unordered relation kind =>
    s!"'{relation}' not supported between instances of '{kind}' and 'int'"
  | notIterable kind => s!"'{kind}' object is not iterable"
  | unsized kind => s!"object of type '{kind}' has no len()"
  | unhashable kind => s!"unhashable type: '{kind}'"
  | notMapping kind =>
    s!"linescan.utils.Config() argument after ** must be a mapping, not {kind}"
  | unexpectedSetting name =>
    s!"Config.__init__() got an unexpected keyword argument '{String.ofList name}'"
  | sizeKind kind => s!"can't multiply sequence by non-int of type '{kind}'"
  | sizeTooLarge => "cannot fit 'int' into an index-sized integer"
  | noMemory => ""
  | joinItem index kind => s!"sequence item {index}: expected str instance, {kind} found"
  | suffixKind kind => s!"tuple for endswith must only contain str, not {kind}"
  | joinedTo kind =>
    if kind = "list" then "can only concatenate list (not \"str\") to list"
    else s!"unsupported operand type(s) for +: '{kind}' and 'str'"
  | openEncoding kind => s!"open() argument 'encoding' must be str or None, not {kind}"
  | textEncoding kind => s!"TextIOWrapper() argument 'encoding' must be str or None, not {kind}"
  | notWhole kind => s!"'{kind}' object cannot be interpreted as an integer"

end Misuse

namespace Json

def parts (v : Json) : Except Misuse (List Json) :=
  match v.parts? with
  | some xs => .ok xs
  | none => .error (.notIterable v.kind)

def size (v : Json) : Except Misuse Nat :=
  match v.size? with
  | some n => .ok n
  | none => .error (.unsized v.kind)

def isBelow (v : Json) (strict : Bool) (bound : Int) : Except Misuse Bool :=
  match v.isBelow? strict bound with
  | some b => .ok b
  | none => .error (.unordered (if strict then "<" else "<=") v.kind)

end Json
end LineLexer
