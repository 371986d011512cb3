import FormulaEntry.Formula.Scan
import FormulaEntry.Number.Numeral

/-! The outermost form of a formula. Its parts are texts again, each shorter
than the whole. -/

namespace FormulaEntry

inductive Shape where
  | blank
  | literal (n : Numeral)
  | chain (first : List Char) (rest : List (Operator × List Char))
  | negated (inner : List Char)
  | bracketed (inner : List Char)
  | malformed (text : List Char)
deriving DecidableEq

/-- The text before the first match, then each operator with the text up to the
next one. `position` is where `text` begins. -/
def cut (position : Nat) (text : List Char) : List Match → List Char × List (Operator × List Char)
  | [] => (text, [])
  | m :: ms =>
    let (next, rest) := cut (m.position + 1) (text.drop (m.position + 1 - position)) ms
    (text.take (m.position - position), (m.operator, next) :: rest)

namespace Shape

/-- A text without operators to split at. -/
def ofPlain : List Char → Shape
  | '-' :: c :: cs => negated (c :: cs)
  | '(' :: cs => if cs.getLast? = some ')' then bracketed cs.dropLast else malformed ('(' :: cs)
  | cs => malformed cs

def ofTrimmed (text : List Char) : Except FormulaError Shape :=
  if text = [] then .ok blank
  else match Numeral.literal? text with
    | some n => .ok (literal n)
    | none => do
      match cut 0 text (← findOperators text) with
      | (_, []) => .ok (ofPlain text)
      | (first, rest) => .ok (chain first rest)

def of (text : List Char) : Except FormulaError Shape := ofTrimmed (Text.strip text)

end Shape

end FormulaEntry
