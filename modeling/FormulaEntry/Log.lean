import FormulaEntry.Fault

/-! Log records. -/

namespace FormulaEntry

inductive Level where
  | notset
  | debug
  | info
  | warning
  | error
  | critical
deriving DecidableEq, Repr

def Level.severity : Level → Nat
  | notset => 0
  | debug => 10
  | info => 20
  | warning => 30
  | error => 40
  | critical => 50

def Level.word : Level → String
  | notset => "NOTSET"
  | debug => "DEBUG"
  | info => "INFO"
  | warning => "WARNING"
  | error => "ERROR"
  | critical => "CRITICAL"

structure LogRecord where
  level : Level
  message : String
  /-- The fault that led to the record. -/
  cause : Option Fault
deriving DecidableEq, Repr

end FormulaEntry
