import FormulaEntry.App.Basic

/-! The log level, chosen by a word in the environment, and the start of the program. -/

namespace FormulaEntry

/-- Capital letters; the dotless i and the long s have capitals among the ASCII ones. -/
def capital (c : Char) : Char :=
  if c = 'ı' then 'I' else if c = 'ſ' then 'S' else c.toUpper

def Level.ofWord? : String → Option Level
  | "CRITICAL" | "FATAL" => some critical
  | "ERROR" => some error
  | "WARNING" | "WARN" => some warning
  | "INFO" => some info
  | "DEBUG" => some debug
  | "NOTSET" => some notset
  | _ => none

namespace Settings

def levelVariable : String := "CALCINPUT_LOG_LEVEL"

/-- A missing or unknown word stands for warnings. -/
def level (word : Option String) : Level :=
  match word with
  | some word =>
    let cs := (Text.strip word.toList).map capital
    (Level.ofWord? (String.ofList cs)).getD .warning
  | none => .warning

/-- The level of the root logger, and whether it has been set up; only the first set-up counts. -/
structure Root where
  level : Level
  configured : Bool
deriving DecidableEq, Repr

def Root.initial : Root := ⟨.warning, false⟩

def Root.configure (root : Root) (level : Level) : Root :=
  if root.configured then root else ⟨level, true⟩

/-- Sets up logging from an environment; gives the level asked for, and the root logger. -/
def configure (root : Root) (environ : String → Option String) : Level × Root :=
  let asked := level (environ levelVariable)
  (asked, root.configure asked)

structure Launch where
  root : Root
  /-- How many windows wait for events. -/
  windows : Nat
  title : String
  status : String

def launch (environ : String → Option String) : Launch where
  root := (configure .initial environ).2
  windows := 1
  title := App.title
  status := (App.create : App Empty).status

end Settings

end FormulaEntry
