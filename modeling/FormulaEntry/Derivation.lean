import FormulaEntry.Fault
import FormulaEntry.Formula.Evaluate

/-! From a text to a value: as a plain number, as a formula, or as a field that
may be left blank. Each gives finite numbers only. -/

namespace FormulaEntry

/-- A way to derive a value from a non-empty text. A content fault makes the text
invalid; any other fault is passed on to whoever set the text. -/
structure Derivation where
  label : String
  derive : String → Except Fault (Option Number)

/-- What a number field may hold besides a numeral: infinity and not-a-number,
which are then refused as not finite. -/
def namesNonFinite (cs : List Char) : Bool :=
  let word := ((splitSign cs).2.map Char.toLower)
  word == "inf".toList || word == "infinity".toList || word == "nan".toList

def parseNumber (text : String) : Except Fault Double :=
  let cs := Text.strip text.toList
  match Numeral.entry? cs with
  | some n => if n.toDouble.isFinite then .ok n.toDouble else .error (.notFinite text)
  | none => .error (if namesNonFinite cs then .notFinite text else .notNumber text)

def evaluateFormula (text : String) : Except Fault Double :=
  match evaluate text with
  | .ok x => if x.isFinite then .ok x else .error (.resultNotFinite text)
  | .error e => .error (.formula e)

/-- A blank field means no value. -/
def parseValueEntry (text : String) : Except Fault (Option Double) :=
  if Text.strip text.toList = [] then .ok none else (parseNumber text).map some

namespace Derivation

def ofDouble (label : String) (f : String → Except Fault Double) : Derivation :=
  ⟨label, fun s => (f s).map fun x => some (.double x)⟩

def number : Derivation := ofDouble "number" parseNumber

def formula : Derivation := ofDouble "formula" evaluateFormula

/-- Formulas whose value need not be finite. -/
def anyFormula : Derivation := ofDouble "any formula" fun s => (evaluate s).mapError .formula

def field : Derivation :=
  ⟨"field", fun s => (parseValueEntry s).map fun v => v.map .double⟩

end Derivation

end FormulaEntry
