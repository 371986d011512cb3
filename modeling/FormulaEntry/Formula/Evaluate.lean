import FormulaEntry.Formula.Shape

/-! The value of a formula: the value of its shape, given those of the parts.
Chains of operators are folded from the left, whatever their length; only
nesting costs depth, and the number of evaluations under way at once is limited. -/

namespace FormulaEntry

namespace Shape

/-- The first part that has no value decides the error. -/
def value (part : List Char → Except FormulaError Double) : Shape → Except FormulaError Double
  | blank => .error .missingOperand
  | literal n => .ok n.toDouble
  | chain first rest => do
    let a ← part first
    rest.foldlM (fun acc r => return r.1.apply acc (← part r.2)) a
  | negated inner => return (← part inner).neg
  | bracketed inner => part inner
  | malformed text => .error (.malformed (String.ofList text))

end Shape

/-- Evaluation with at most `limit` evaluations under way at once. -/
def evaluateWithin : Nat → List Char → Except FormulaError Double
  | 0, _ => .error .nestingTooDeep
  | limit + 1, text => do (← Shape.of text).value (evaluateWithin limit)

def nestingLimit : Nat := 1000

def evaluate (formula : String) : Except FormulaError Double :=
  evaluateWithin nestingLimit formula.toList

def applySymbol (symbol : String) (x y : Double) : Except FormulaError Double :=
  match symbol.toList with
  | [c] =>
    match Operator.ofChar? c with
    | some op => .ok (op.apply x y)
    | none => .error (.unsupportedOperator symbol)
  | _ => .error (.unsupportedOperator symbol)

end FormulaEntry
