import FormulaEntry.Proofs.Number.Nearest
import FormulaEntry.Proofs.Number.RoundTrip
import Mathlib.Algebra.Order.Field.Basic
import Mathlib.Algebra.Order.Ring.Abs

/-! Integers read from their texts. The text of an integer is a literal, read as a nearest
double, so an integer is read back exactly if and only if it is the value of some double. -/

namespace FormulaEntry

namespace Double

def ofInt (n : Int) : Double := Decimal.toDouble (decide (n < 0)) ⟨n.natAbs, 0⟩

/-- No finite double is nearer to the number. -/
def IsNearest (x : Double) (q : ℚ) : Prop :=
  ∃ p, x.rational? = some p ∧ ∀ (y : Double) p', y.rational? = some p' → |p - q| ≤ |p' - q|

theorem isNegative_ofInt (n : Int) : (ofInt n).isNegative = decide (n < 0) :=
  isNegative_ofMagnitude _ (Nat.lt_of_le_of_lt (Decimal.toMagnitude_le _) (by decide))

theorem magnitude_ofInt (n : Int) : (ofInt n).magnitude = nearestMagnitude n.natAbs 1 := by
  have hm : (ofInt n).magnitude = Decimal.toMagnitude ⟨n.natAbs, 0⟩ :=
    magnitude_ofMagnitude _ (Nat.lt_of_le_of_lt (Decimal.toMagnitude_le _) (by decide))
  rw [hm, Decimal.toMagnitude_eq]
  simp [Decimal.numerator, Decimal.denominator]

theorem isFinite_ofInt_iff (n : Int) : (ofInt n).isFinite = true ↔ n.natAbs < overflow := by
  rw [isFinite_iff, magnitude_ofInt, nearestMagnitude_lt_iff Nat.one_pos, Nat.mul_one]

theorem isFinite_of_rational? {x : Double} {q : ℚ} (hx : x.rational? = some q) :
    x.isFinite = true := by
  by_contra h
  rw [rational?, if_neg h] at hx
  exact absurd hx (by simp)

theorem units_zero : (zero false).units = 0 := by decide +kernel

theorem signedUnits_ofInt_nearest {n : Int} (hn : (ofInt n).isFinite = true) (y : Double) :
    ((ofInt n).signedUnits - n * unitsPerOne).natAbs ≤
      (y.signedUnits - n * unitsPerOne).natAbs := by
  have hy := units_nearest Nat.one_pos (magnitude_ofInt n) hn y
  have hz := units_nearest Nat.one_pos (magnitude_ofInt n) hn (zero false)
  rw [units_zero] at hz
  simp only [Nat.mul_one] at hy hz
  have hsign : n * unitsPerOne = if n < 0 then -((n.natAbs * unitsPerOne : Nat) : Int)
      else (n.natAbs * unitsPerOne : Nat) := by
    split
    · rw [Nat.cast_mul, ← Int.neg_mul]
      congr 1
      omega
    · rw [Nat.cast_mul]
      congr 1
      omega
  rw [hsign, signedUnits, signedUnits, isNegative_ofInt]
  generalize n.natAbs * unitsPerOne = ratio at hy hz ⊢
  rcases Int.lt_or_le n 0 with hn | hn
  · rw [if_pos hn, if_pos (decide_eq_true hn)]
    split <;> omega
  · rw [if_neg (Int.not_lt.2 hn), if_neg (by simpa using hn)]
    split <;> omega

theorem abs_sub_intCast (x : Double) (n : Int) :
    |(x.signedUnits : ℚ) / unitsPerOne - n| =
      ((x.signedUnits - n * unitsPerOne).natAbs : ℚ) / unitsPerOne := by
  have hpos : (0 : ℚ) < unitsPerOne := Nat.cast_pos.2 unitsPerOne_pos
  rw [div_sub' hpos.ne', abs_div, abs_of_pos hpos, Nat.cast_natAbs]
  push_cast
  rw [mul_comm (unitsPerOne : ℚ)]

theorem ofInt_isNearest {n : Int} (hn : (ofInt n).isFinite = true) : (ofInt n).IsNearest n := by
  refine ⟨_, rational?_of_isFinite hn, ?_⟩
  intro y q hy
  rw [rational?_of_isFinite (isFinite_of_rational? hy)] at hy
  obtain rfl := Option.some.inj hy
  rw [abs_sub_intCast, abs_sub_intCast]
  have hpos : (0 : ℚ) < unitsPerOne := Nat.cast_pos.2 unitsPerOne_pos
  exact div_le_div_of_nonneg_right (Nat.cast_le.2 (signedUnits_ofInt_nearest hn y)) hpos.le

/-- What is the value of a double is not too large to be rounded to one. -/
theorem isFinite_ofInt_of_rational? {x : Double} {n : Int} (hx : x.rational? = some (n : ℚ)) :
    (ofInt n).isFinite = true := by
  have hfinite := isFinite_of_rational? hx
  have hequals : x.equalsInt n = true := (Number.equalsInt_iff hfinite n).2 hx
  rw [equalsInt, hfinite, Bool.true_and, beq_iff_eq] at hequals
  have hunits : x.units = n.natAbs * unitsPerOne := by
    have habs := congrArg Int.natAbs hequals
    rw [Int.natAbs_mul, Int.natAbs_natCast] at habs
    rw [← habs, signedUnits]
    split <;> simp
  rw [isFinite_iff, magnitude_ofInt, ← nearestMagnitude_mul_left unitsPerOne_pos, Nat.mul_comm,
    ← hunits, Nat.mul_one, nearestMagnitude_units hfinite, ← isFinite_iff]
  exact hfinite

/-- A nearest double misses a number only if all of them do. -/
theorem IsNearest.exact_iff {x : Double} {q : ℚ} (h : x.IsNearest q) :
    x.rational? = some q ↔ ∃ y : Double, y.rational? = some q := by
  refine ⟨fun hx => ⟨x, hx⟩, ?_⟩
  rintro ⟨y, hy⟩
  obtain ⟨p, hp, hnear⟩ := h
  have hle := hnear y q hy
  rw [sub_self, abs_zero] at hle
  rw [hp, sub_eq_zero.1 (abs_eq_zero.1 (le_antisymm hle (abs_nonneg _)))]

end Double

/-! The text of an integer. -/

def signOf (n : Int) : Sign := if n < 0 then .minus else .absent

theorem intChars_eq (n : Int) : intChars n = (signOf n).chars ++ digitsOf n.natAbs := by
  unfold intChars signOf
  split <;> rfl

theorem literal?_intChars (n : Int) :
    ∃ m, Numeral.literal? (intChars n) = some m ∧ m.toDouble = Double.ofInt n := by
  have hnumber : IsNumber ⟨.absent, digitsOf n.natAbs, false, [], 0⟩ (digitsOf n.natAbs) :=
    ⟨⟨allDigits_digitsOf _, nofun, fun _ => rfl, [], .absent,
      by simp [Sign.chars, Numeral.pointed]⟩, rfl,
      digitsOf_ne_nil _⟩
  have hsign : signOf n ≠ .plus := by
    unfold signOf
    split <;> decide
  have hminus : (signOf n == .minus) = decide (n < 0) := by
    unfold signOf
    by_cases h : n < 0 <;> simp [h]
  refine ⟨_, by rw [intChars_eq, Numeral.literal?_signed hnumber hsign], ?_⟩
  have hdigits : ofDigits (digitsOf n.natAbs ++ []) = n.natAbs := by
    rw [List.append_nil, ofDigits_digitsOf]
  change Decimal.toDouble (signOf n == .minus) ⟨ofDigits (digitsOf n.natAbs ++ []), 0⟩ = _
  rw [hminus, hdigits]
  rfl

end FormulaEntry
