import FormulaEntry.Number.Double

/-! The double nearest to a ratio of naturals or to a decimal, ties to even. In
units of 2^-1074 the magnitude bits of the result are `drop * exponentWeight`
plus the ratio rounded after `drop` binary places are dropped; a carry out of
the rounding moves to the next exponent by itself. -/

namespace FormulaEntry

/-- A quotient rounded to the nearest natural; a half goes to the even neighbour. -/
def roundHalfEven (num den : Nat) : Nat :=
  let q := num / den
  let r := num % den
  if den < 2 * r ∨ (2 * r = den ∧ q % 2 = 1) then q + 1 else q

/-- Magnitude bits of the double nearest to `num / den`. -/
def nearestMagnitude (num den : Nat) : Nat :=
  let scaled := num * Double.unitsPerOne
  let drop := (scaled / den).log2 - 52
  min Double.infinite (drop * Double.exponentWeight + roundHalfEven scaled (den * Nat.pow 2 drop))

/-- The number `digits * 10 ^ exp`. -/
structure Decimal where
  digits : Nat
  exp : Int
deriving DecidableEq, Repr

namespace Decimal

/-- Magnitude bits of the nearest double. Exponents so large or so small that
only infinity or zero can come out take no power of ten. -/
def toMagnitude (d : Decimal) : Nat :=
  if d.digits = 0 then 0
  else if 310 < d.exp then Double.infinite
  else if d.exp < -(400 + d.digits.log2 : Nat) then 0
  else nearestMagnitude (d.digits * Nat.pow 10 d.exp.toNat) (Nat.pow 10 (-d.exp).toNat)

def toDouble (negative : Bool) (d : Decimal) : Double := .ofMagnitude negative d.toMagnitude

end Decimal

theorem nearestMagnitude_le (num den : Nat) : nearestMagnitude num den ≤ Double.infinite :=
  Nat.min_le_left ..

namespace Decimal

theorem toMagnitude_le (d : Decimal) : d.toMagnitude ≤ Double.infinite := by
  unfold toMagnitude
  split
  · exact Nat.zero_le _
  split
  · exact Nat.le_refl _
  split
  · exact Nat.zero_le _
  · exact nearestMagnitude_le ..

end Decimal

end FormulaEntry
