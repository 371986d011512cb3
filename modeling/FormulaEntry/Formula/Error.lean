import FormulaEntry.Text.Quoted

/-! What can be wrong with a formula. -/

namespace FormulaEntry

inductive FormulaError where
  | missingOperand
  | extraClosing
  | extraOpening
  | unsupportedOperator (symbol : String)
  | malformed (text : String)
  | nestingTooDeep
deriving DecidableEq, Repr

def FormulaError.message : FormulaError → String
  | .missingOperand => "Missing operand"
  | .extraClosing => "Extra closing bracket"
  | .extraOpening => "Extra opening bracket"
  | .unsupportedOperator symbol => "Unsupported operator " ++ Text.quoted symbol
  | .malformed text => "Formula syntax error: " ++ Text.quoted text
  | .nestingTooDeep => "Formula nesting too deep"

end FormulaEntry
