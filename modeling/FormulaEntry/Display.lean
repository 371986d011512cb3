import FormulaEntry.Datum

/-! How a control's value, text and validity are shown to the user. -/

namespace FormulaEntry.Display

def value? : Datum → Option String
  | .none => some "(empty)"
  | .undetermined => some "(undetermined)"
  | d => d.text?

def text (s : String) : String := if s.isEmpty then "\"\"" else s

/-- The same for data that need not be text. -/
def textOf? (d : Datum) : Option String := if d.isTruthy then d.text? else some (text "")

def validity (isValid : Bool) : String := if isValid then "valid" else "invalid"

end FormulaEntry.Display
