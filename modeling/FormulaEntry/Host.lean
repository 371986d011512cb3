import FormulaEntry.Fault

/-! Hosts: the widgets that boxes are put into, known by their paths. -/

namespace FormulaEntry

/-- A widget to put a box into, by its path or itself. -/
inductive Host where
  | path (path : String)
  | widget (name : String)
deriving DecidableEq, Repr

def resolveHost (widgets : List String) : Option Host → Except Fault String
  | none => .error (.hostMissing none)
  | some (.path path) => if path ∈ widgets then .ok path else .error (.hostMissing (some path))
  | some (.widget name) => .ok name

end FormulaEntry
