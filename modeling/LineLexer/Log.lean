import LineLexer.Text.Class

/-! Log records. A record of a level below the threshold is not shown. -/

namespace LineLexer.Log

inductive Level
  | debug
  | info
  | error
  deriving DecidableEq

def Level.name : Level → String
  | debug => "DEBUG"
  | info => "INFO"
  | error => "ERROR"

def Level.rank : Level → Nat
  | debug => 0
  | info => 1
  | error => 2

structure Record where
  level : Level
  source : String
  message : String
  deriving DecidableEq

def Record.line (r : Record) : String := s!"{r.level.name} {r.source} {r.message}\n"

def shown (threshold : Level) (records : List Record) : String :=
  String.join ((records.filter fun r => threshold.rank ≤ r.level.rank).map Record.line)

end LineLexer.Log
