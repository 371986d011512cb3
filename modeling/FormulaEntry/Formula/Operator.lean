import FormulaEntry.Number.Double

/-! The four operators of a formula: their symbols, how tightly they bind, and
what they compute. -/

namespace FormulaEntry

inductive Operator where
  | add
  | sub
  | mul
  | div
deriving DecidableEq, Repr

namespace Operator

def symbol : Operator → Char
  | add => '+'
  | sub => '-'
  | mul => '*'
  | div => '/'

def ofChar? : Char → Option Operator
  | '+' => some add
  | '-' => some sub
  | '*' => some mul
  | '/' => some div
  | _ => none

/-- A formula is split at its operators of the lowest priority. -/
def priority : Operator → Nat
  | add | sub => 1
  | mul | div => 2

/-- Above every operator's priority: where nothing to split at has been found. -/
def unranked : Nat := 100

def apply : Operator → Double → Double → Double
  | add => Double.add
  | sub => Double.sub
  | mul => Double.mul
  | div => Double.div

theorem ofChar?_eq_some_iff {c : Char} {op : Operator} : ofChar? c = some op ↔ c = op.symbol := by
  constructor
  · unfold ofChar?
    split <;> rintro ⟨⟩ <;> rfl
  · rintro rfl
    cases op <;> rfl

end Operator

end FormulaEntry
