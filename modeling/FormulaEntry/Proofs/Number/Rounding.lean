import FormulaEntry.Number.Rounding
import Mathlib.Algebra.Order.Ring.Nat

/-! Rounding depends on the ratio alone, and a double is what its own value rounds to.
The powers of ten that a decimal saves for extreme exponents would make no difference. -/

namespace FormulaEntry

variable {k num den num' den' : Nat}

theorem roundHalfEven_mul_left (hk : 0 < k) (num den : Nat) :
    roundHalfEven (k * num) (k * den) = roundHalfEven num den := by
  have hlt : k * den < 2 * (k * (num % den)) ↔ den < 2 * (num % den) := by
    rw [Nat.mul_left_comm, Nat.mul_lt_mul_left hk]
  have heq : 2 * (k * (num % den)) = k * den ↔ 2 * (num % den) = den := by
    rw [Nat.mul_left_comm, Nat.mul_right_inj hk.ne']
  simp only [roundHalfEven, Nat.mul_div_mul_left _ _ hk, Nat.mul_mod_mul_left, hlt, heq]

theorem roundHalfEven_mul_self (n : Nat) (hd : 0 < den) : roundHalfEven (n * den) den = n := by
  simp [roundHalfEven, Nat.mul_div_cancel _ hd, hd.ne]

theorem roundHalfEven_eq_zero (h : 2 * num < den) : roundHalfEven num den = 0 := by
  have hq : num / den = 0 := Nat.div_eq_of_lt (by omega)
  have hr : num % den = num := Nat.mod_eq_of_lt (by omega)
  rw [roundHalfEven]
  simp only [hq, hr]
  exact if_neg (by omega)

/-- The exponent stays a variable, so that no power is computed. -/
theorem Double.exists_unitsPerOne_eq : ∃ k, k = 1074 ∧ unitsPerOne = 2 ^ k := by
  unfold unitsPerOne
  generalize 1074 = k
  exact ⟨k, rfl, rfl⟩

theorem Double.unitsPerOne_pos : 0 < unitsPerOne := by
  obtain ⟨k, -, hk⟩ := exists_unitsPerOne_eq
  rw [hk]
  exact Nat.two_pow_pos k

theorem nearestMagnitude_eq (num den : Nat) :
    nearestMagnitude num den =
      min Double.infinite (((num * Double.unitsPerOne / den).log2 - 52) * Double.exponentWeight +
        roundHalfEven (num * Double.unitsPerOne)
          (den * 2 ^ ((num * Double.unitsPerOne / den).log2 - 52))) := rfl

theorem nearestMagnitude_mul_left (hk : 0 < k) (num den : Nat) :
    nearestMagnitude (k * num) (k * den) = nearestMagnitude num den := by
  simp only [nearestMagnitude_eq, Nat.mul_assoc, Nat.mul_div_mul_left _ _ hk,
    roundHalfEven_mul_left hk]

theorem nearestMagnitude_congr (hd : 0 < den) (hd' : 0 < den') (h : num * den' = num' * den) :
    nearestMagnitude num den = nearestMagnitude num' den' := by
  rw [← nearestMagnitude_mul_left hd' num den, ← nearestMagnitude_mul_left hd num' den',
    Nat.mul_comm den' num, h, Nat.mul_comm num' den, Nat.mul_comm den' den]

theorem nearestMagnitude_eq_zero (h : 2 * (num * Double.unitsPerOne) < den) :
    nearestMagnitude num den = 0 := by
  have hq : num * Double.unitsPerOne / den = 0 := Nat.div_eq_of_lt (by omega)
  rw [nearestMagnitude_eq, hq, Nat.log2_zero, Nat.zero_sub, Nat.zero_mul, Nat.zero_add, pow_zero,
    Nat.mul_one, roundHalfEven_eq_zero h, Nat.min_zero]

/-- A ratio that takes more binary places than the greatest double has. -/
theorem nearestMagnitude_eq_infinite (hd : 0 < den) (hk : 1025 ≤ k) (h : 2 ^ k * den ≤ num) :
    nearestMagnitude num den = Double.infinite := by
  have hlog : 2099 ≤ (num * Double.unitsPerOne / den).log2 := by
    obtain ⟨u, hu, hU⟩ := Double.exists_unitsPerOne_eq
    have hq : 2 ^ (k + u) ≤ num * Double.unitsPerOne / den := by
      rw [Nat.le_div_iff_mul_le hd, hU, Nat.pow_add, Nat.mul_right_comm]
      exact Nat.mul_le_mul_right _ h
    have hpos : num * Double.unitsPerOne / den ≠ 0 :=
      (Nat.lt_of_lt_of_le (Nat.two_pow_pos _) hq).ne'
    have := (Nat.le_log2 hpos).2 hq
    omega
  rw [nearestMagnitude_eq]
  refine Nat.min_eq_left (Nat.le_add_right_of_le ?_)
  calc Double.infinite = 2047 * Double.exponentWeight := rfl
    _ ≤ _ := Nat.mul_le_mul_right _ (by omega)

namespace Double

variable {x : Double}

theorem magnitude_eq (x : Double) : x.magnitude = x.spread * exponentWeight + x.significand := by
  unfold significand spread exponentWeight
  omega

theorem significand_lt (x : Double) : x.significand < 2 * exponentWeight := by
  unfold significand spread exponentWeight
  omega

theorem le_significand (hs : x.spread ≠ 0) : exponentWeight ≤ x.significand := by
  unfold significand spread exponentWeight at *
  omega

theorem log2_units (x : Double) : x.units.log2 - 52 = x.spread := by
  have hlt : x.significand < 2 ^ 53 := x.significand_lt
  by_cases hs : x.spread = 0
  · have hu : x.units = x.significand := by simp [units, hs]
    rw [hs, hu]
    by_cases h0 : x.significand = 0
    · simp [h0]
    · have := (Nat.log2_lt h0).2 hlt
      omega
  · have hle : 2 ^ 52 ≤ x.significand := le_significand hs
    have hne : x.units ≠ 0 := Nat.mul_ne_zero (by omega) (Nat.two_pow_pos _).ne'
    have hlog : x.units.log2 = 52 + x.spread := by
      rw [Nat.log2_eq_iff hne, Nat.pow_add, Nat.add_right_comm, Nat.pow_add]
      exact ⟨Nat.mul_le_mul_right _ hle, Nat.mul_lt_mul_of_pos_right hlt (Nat.two_pow_pos _)⟩
    omega

theorem nearestMagnitude_units (hx : x.isFinite = true) :
    nearestMagnitude x.units unitsPerOne = x.magnitude := by
  have hround :
      roundHalfEven (x.units * unitsPerOne) (unitsPerOne * 2 ^ x.spread) = x.significand := by
    rw [Nat.mul_comm x.units, roundHalfEven_mul_left unitsPerOne_pos]
    exact roundHalfEven_mul_self _ (Nat.two_pow_pos _)
  rw [nearestMagnitude_eq, Nat.mul_div_cancel _ unitsPerOne_pos, log2_units, hround, ← magnitude_eq]
  rw [isFinite, decide_eq_true_eq] at hx
  exact Nat.min_eq_right hx.le

/-- Among finite doubles only the two zeros are the same number. -/
theorem eq_or_isZero_of_signedUnits {y : Double} (hx : x.isFinite = true) (hy : y.isFinite = true)
    (h : x.signedUnits = y.signedUnits) : x = y ∨ x.isZero = true ∧ y.isZero = true := by
  have hunits : x.units = y.units := by
    have := congrArg Int.natAbs h
    simpa [signedUnits, apply_ite Int.natAbs] using this
  have hm : x.magnitude = y.magnitude := by
    rw [← nearestMagnitude_units hx, ← nearestMagnitude_units hy, hunits]
  by_cases hs : x.isNegative = y.isNegative
  · exact .inl (by rw [← ofMagnitude_magnitude x, ← ofMagnitude_magnitude y, hs, hm])
  · -- numbers of opposite signs are equal at zero only
    have hzero : x.units = 0 := by
      rw [signedUnits, signedUnits, Bool.eq_not_of_ne hs, ← hunits] at h
      cases hy' : y.isNegative with
      | false =>
        rw [hy', Bool.not_false, if_pos rfl, if_neg Bool.false_ne_true] at h
        omega
      | true =>
        rw [hy', Bool.not_true, if_pos rfl, if_neg Bool.false_ne_true] at h
        omega
    have hmag : x.magnitude = 0 := by
      rw [← nearestMagnitude_units hx, hzero]
      exact nearestMagnitude_eq_zero (by rw [Nat.zero_mul]; exact unitsPerOne_pos)
    exact .inr ⟨by rw [isZero, hmag]; rfl, by rw [isZero, ← hm, hmag]; rfl⟩

end Double

theorem two_pow_le_ten_pow {m n : Nat} (h : 10 * m ≤ 33 * n) : 2 ^ m ≤ 10 ^ n := by
  rw [← Nat.pow_le_pow_iff_left (n := 10) (by decide)]
  calc (2 ^ m) ^ 10 = 2 ^ (10 * m) := by rw [← Nat.pow_mul, Nat.mul_comm]
    _ ≤ 2 ^ (33 * n) := Nat.pow_le_pow_right (by decide) h
    _ = (2 ^ 33) ^ n := Nat.pow_mul ..
    _ ≤ (10 ^ 10) ^ n := Nat.pow_le_pow_left (by decide) n
    _ = (10 ^ n) ^ 10 := by rw [← Nat.pow_mul, ← Nat.pow_mul, Nat.mul_comm]

namespace Decimal

def numerator (d : Decimal) : Nat := d.digits * 10 ^ d.exp.toNat

def denominator (d : Decimal) : Nat := 10 ^ (-d.exp).toNat

theorem denominator_pos (d : Decimal) : 0 < d.denominator := Nat.pow_pos (by decide)

theorem nearestMagnitude_of_exp_gt {d : Decimal} (h0 : d.digits ≠ 0) (he : 310 < d.exp) :
    nearestMagnitude d.numerator d.denominator = Double.infinite := by
  have hden : d.denominator = 1 := by
    have : (-d.exp).toNat = 0 := by omega
    rw [denominator, this, pow_zero]
  obtain ⟨k, hk⟩ : ∃ k, k = 1025 := ⟨_, rfl⟩
  refine nearestMagnitude_eq_infinite d.denominator_pos hk.ge ?_
  rw [hden, Nat.mul_one]
  exact (two_pow_le_ten_pow (by omega)).trans (Nat.le_mul_of_pos_left _ (Nat.pos_of_ne_zero h0))

theorem nearestMagnitude_of_exp_lt {d : Decimal} (he : d.exp < -(400 + d.digits.log2 : Nat)) :
    nearestMagnitude d.numerator d.denominator = 0 := by
  have hnum : d.numerator = d.digits := by
    have : d.exp.toNat = 0 := by omega
    rw [numerator, this, pow_zero, Nat.mul_one]
  obtain ⟨u, hu, hU⟩ := Double.exists_unitsPerOne_eq
  apply nearestMagnitude_eq_zero
  rw [hnum, hU]
  calc 2 * (d.digits * 2 ^ u) < 2 * (2 ^ (d.digits.log2 + 1) * 2 ^ u) := by
        have := Nat.mul_lt_mul_of_pos_right (Nat.lt_log2_self (n := d.digits)) (Nat.two_pow_pos u)
        omega
    _ = 2 ^ (d.digits.log2 + 1 + u + 1) := by rw [← Nat.pow_add, Nat.mul_comm, ← Nat.pow_succ]
    _ ≤ d.denominator := two_pow_le_ten_pow (by omega)

theorem toMagnitude_eq (d : Decimal) :
    d.toMagnitude = nearestMagnitude d.numerator d.denominator := by
  unfold toMagnitude
  split
  · next h0 =>
    have hnum : d.numerator = 0 := by rw [numerator, h0, Nat.zero_mul]
    rw [hnum, nearestMagnitude_eq_zero (by rw [Nat.zero_mul]; exact d.denominator_pos)]
  · next h0 =>
    split
    · next he => exact (nearestMagnitude_of_exp_gt h0 he).symm
    · split
      · next he => exact (nearestMagnitude_of_exp_lt he).symm
      · rfl

theorem toMagnitude_congr {d d' : Decimal}
    (h : d.numerator * d'.denominator = d'.numerator * d.denominator) :
    d.toMagnitude = d'.toMagnitude := by
  rw [toMagnitude_eq, toMagnitude_eq, nearestMagnitude_congr d.denominator_pos d'.denominator_pos h]

/-- Zeros may be moved from the exponent to the digits. -/
theorem toMagnitude_shift (digits : Nat) (exp : Int) (k : Nat) :
    toMagnitude ⟨digits * 10 ^ k, exp - k⟩ = toMagnitude ⟨digits, exp⟩ := by
  apply toMagnitude_congr
  have hexp : k + (exp - k).toNat + (-exp).toNat = exp.toNat + (-(exp - k)).toNat := by omega
  simp only [numerator, denominator, Nat.mul_assoc, ← Nat.pow_add]
  rw [hexp]

end Decimal

end FormulaEntry
