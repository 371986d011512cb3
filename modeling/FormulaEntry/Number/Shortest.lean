import FormulaEntry.Number.Rounding

/-! The shortest decimal that reads back as a given double, and of the shortest
ones the nearest. For one digit, two digits and so on, the two neighbours of the
value on that decimal grid are tried; the first grid with a hit wins. -/

namespace FormulaEntry.Double

/-- The value in steps of `10 ^ exp`, as numerator and denominator. -/
def onGrid (x : Double) (exp : Int) : Nat × Nat :=
  (x.units * Nat.pow 10 (-exp).toNat, unitsPerOne * Nat.pow 10 exp.toNat)

def gridFloor (x : Double) (exp : Int) : Nat := (x.onGrid exp).1 / (x.onGrid exp).2

/-- The decimal exponent of the leading digit, from the binary one; the estimate
is off by one at most. -/
def leadingExp (x : Double) : Int :=
  let estimate := (((x.units.log2 : Int) - 1074) * 30103).fdiv 100000
  if 1 ≤ x.gridFloor (estimate + 1) then estimate + 1
  else if 1 ≤ x.gridFloor estimate then estimate
  else estimate - 1

def readsBack (x : Double) (d : Decimal) : Bool := d.toMagnitude == x.magnitude

/-- The two neighbours on the grid, the nearer first; of two equally near the even. -/
def neighbours (x : Double) (exp : Int) : List Decimal :=
  let below := x.gridFloor exp
  if roundHalfEven (x.onGrid exp).1 (x.onGrid exp).2 = below then [⟨below, exp⟩, ⟨below + 1, exp⟩]
  else [⟨below + 1, exp⟩, ⟨below, exp⟩]

def onGrid? (x : Double) (exp : Int) : Option Decimal := (x.neighbours exp).find? x.readsBack

/-- The value itself, to the last digit. -/
def exactDecimal (x : Double) : Decimal := ⟨x.units * Nat.pow 5 1074, -1074⟩

end FormulaEntry.Double

namespace FormulaEntry.Decimal

/-- The same number without zeros at the end of its digits. -/
def trim (d : Decimal) : Decimal :=
  if h : d.digits ≠ 0 ∧ d.digits % 10 = 0 then trim ⟨d.digits / 10, d.exp + 1⟩ else d
termination_by d.digits
decreasing_by exact Nat.div_lt_self (Nat.pos_of_ne_zero h.1) (by decide)

end FormulaEntry.Decimal

namespace FormulaEntry.Double

/-- Seventeen digits always read back; were it otherwise, the exact value would be shown. -/
def shortest (x : Double) : Decimal :=
  let lead := x.leadingExp
  (((List.range 17).findSome? fun (n : Nat) => x.onGrid? (lead - n)).getD x.exactDecimal).trim

end FormulaEntry.Double
