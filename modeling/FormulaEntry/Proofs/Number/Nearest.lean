import FormulaEntry.Proofs.Number.Rounding
import Mathlib.Tactic.Ring

/-! Rounding finds a nearest double. Doubles of at least the spread of the result lie on its
grid, where it is the nearest point; those of a lesser spread lie below the whole grid. A ratio
is too large to be rounded from half a step beyond the greatest double on. -/

namespace FormulaEntry

variable {k num den : Nat}

theorem eq_div_mul_add_mod (num den : Nat) : num = num / den * den + num % den := by
  rw [Nat.mul_comm]
  exact (Nat.div_add_mod num den).symm

theorem mul_le_div_mul_or (num den k : Nat) :
    k * den ≤ num / den * den ∨ num / den * den + den ≤ k * den := by
  rcases Nat.lt_or_ge (num / den) k with h | h
  · right
    rw [← Nat.succ_mul]
    exact Nat.mul_le_mul_right _ h
  · left
    exact Nat.mul_le_mul_right _ h

theorem roundHalfEven_nearest (hd : 0 < den) (num k : Nat) :
    ((roundHalfEven num den * den : Nat) - (num : Int)).natAbs ≤
      ((k * den : Nat) - (num : Int)).natAbs := by
  have hnum := eq_div_mul_add_mod num den
  have hr := Nat.mod_lt num hd
  have hk := mul_le_div_mul_or num den k
  unfold roundHalfEven
  dsimp only
  split
  · rw [Nat.succ_mul]
    omega
  · omega

theorem le_roundHalfEven (hd : 0 < den) (h : k * den ≤ num) : k ≤ roundHalfEven num den := by
  have hq : k ≤ num / den := (Nat.le_div_iff_mul_le hd).2 h
  unfold roundHalfEven
  dsimp only
  split <;> omega

theorem roundHalfEven_le (hd : 0 < den) (h : num ≤ k * den) : roundHalfEven num den ≤ k := by
  have hnum := eq_div_mul_add_mod num den
  have hq : num / den ≤ k := by
    rw [← Nat.mul_div_cancel k hd]
    exact Nat.div_le_div_right h
  unfold roundHalfEven
  dsimp only
  split
  · rcases Nat.lt_or_eq_of_le hq with hlt | heq
    · exact hlt
    · rw [heq] at hnum
      omega
  · exact hq

/-- An even number is rounded to from half a step below it on. -/
theorem roundHalfEven_lt_iff (hd : 0 < den) (num k : Nat) :
    roundHalfEven num den < 2 * k ↔ 2 * num + den < 4 * (k * den) := by
  have hnum := eq_div_mul_add_mod num den
  have hr := Nat.mod_lt num hd
  have hk : 2 * k * den = 2 * (k * den) := Nat.mul_assoc 2 k den
  have hup : (num / den + 1) * den = num / den * den + den := Nat.add_one_mul _ _
  unfold roundHalfEven
  dsimp only
  rcases Nat.lt_trichotomy (num / den + 1) (2 * k) with hlt | heq | hgt
  · have hle : (num / den + 1 + 1) * den ≤ 2 * k * den := Nat.mul_le_mul_right _ hlt
    rw [Nat.add_one_mul, hup] at hle
    split <;> omega
  · -- the odd quotient below, so that a half goes up
    have hmul : (num / den + 1) * den = 2 * k * den := by rw [heq]
    rw [hup] at hmul
    split <;> omega
  · have hle : 2 * k * den ≤ num / den * den := Nat.mul_le_mul_right _ (Nat.le_of_lt_succ hgt)
    split <;> omega

namespace Double

variable {x : Double} {drop r : Nat}

/-- How many units a double is whose magnitude bits were put together from a rounded ratio. -/
theorem units_of_magnitude (hm : x.magnitude = drop * exponentWeight + r)
    (hr : r ≤ 2 * exponentWeight) (hd : drop = 0 ∨ exponentWeight ≤ r) :
    x.units = r * 2 ^ drop := by
  have hsplit := magnitude_eq x
  have hspread : x.spread = drop ∧ x.significand = r ∨
      x.spread = drop + 1 ∧ r = 2 * exponentWeight ∧ x.significand = exponentWeight := by
    unfold significand spread
    rw [hm]
    unfold exponentWeight at *
    omega
  unfold units
  rw [Nat.pow_eq]
  rcases hspread with ⟨hs, hsig⟩ | ⟨hs, rfl, hsig⟩
  · rw [hs, hsig]
  · rw [hs, hsig, Nat.pow_succ, Nat.mul_comm _ 2, ← Nat.mul_assoc, Nat.mul_comm _ 2]

end Double

def droppedPlaces (num den : Nat) : Nat := (num * Double.unitsPerOne / den).log2 - 52

def keptPlaces (num den : Nat) : Nat :=
  roundHalfEven (num * Double.unitsPerOne) (den * 2 ^ droppedPlaces num den)

theorem nearestMagnitude_eq_kept (num den : Nat) :
    nearestMagnitude num den =
      min Double.infinite (droppedPlaces num den * Double.exponentWeight + keptPlaces num den) :=
  rfl

theorem units_lt_of_droppedPlaces (hd : 0 < den) (num : Nat) :
    num * Double.unitsPerOne < 2 * Double.exponentWeight * (den * 2 ^ droppedPlaces num den) := by
  have hq : num * Double.unitsPerOne / den < 2 ^ (53 + droppedPlaces num den) := by
    refine Nat.lt_of_lt_of_le Nat.lt_log2_self (Nat.pow_le_pow_right (by decide) ?_)
    unfold droppedPlaces
    omega
  rw [Nat.div_lt_iff_lt_mul hd, Nat.pow_add, Nat.mul_assoc, Nat.mul_comm _ den] at hq
  exact hq

theorem le_units_of_droppedPlaces (hd : 0 < den) (num : Nat) (h : droppedPlaces num den ≠ 0) :
    Double.exponentWeight * (den * 2 ^ droppedPlaces num den) ≤ num * Double.unitsPerOne := by
  have hne : num * Double.unitsPerOne / den ≠ 0 := by
    intro h0
    rw [droppedPlaces, h0, Nat.log2_zero] at h
    exact h rfl
  have hq : 2 ^ (52 + droppedPlaces num den) ≤ num * Double.unitsPerOne / den := by
    refine Nat.le_trans (Nat.pow_le_pow_right (by decide) ?_) (Nat.log2_self_le hne)
    unfold droppedPlaces at *
    omega
  rw [Nat.le_div_iff_mul_le hd, Nat.pow_add, Nat.mul_assoc, Nat.mul_comm _ den] at hq
  exact hq

theorem den_mul_pos (hd : 0 < den) (k : Nat) : 0 < den * 2 ^ k := Nat.mul_pos hd (Nat.two_pow_pos k)

theorem keptPlaces_le (hd : 0 < den) (num : Nat) : keptPlaces num den ≤ 2 * Double.exponentWeight :=
  roundHalfEven_le (den_mul_pos hd _) (units_lt_of_droppedPlaces hd num).le

theorem le_keptPlaces (hd : 0 < den) (num : Nat) (h : droppedPlaces num den ≠ 0) :
    Double.exponentWeight ≤ keptPlaces num den :=
  le_roundHalfEven (den_mul_pos hd _) (le_units_of_droppedPlaces hd num h)

theorem keptPlaces_nearest (hd : 0 < den) (num k : Nat) :
    ((keptPlaces num den * (den * 2 ^ droppedPlaces num den) : Nat) -
        (num * Double.unitsPerOne : Nat) : Int).natAbs ≤
      ((k * (den * 2 ^ droppedPlaces num den) : Nat) -
        (num * Double.unitsPerOne : Nat) : Int).natAbs :=
  roundHalfEven_nearest (den_mul_pos hd _) _ k

namespace Double

/-- From half a step beyond the greatest double on. -/
def overflow : Nat := Nat.pow 2 1024 - Nat.pow 2 970

/-- The exponents stay variables, so that no power is computed. -/
theorem exists_overflow_eq : ∃ k j, k = 2044 ∧ unitsPerOne * 2 ^ j = 2 ^ k ∧
    overflow = (4 * exponentWeight - 1) * 2 ^ j := by
  obtain ⟨u, hu, hU⟩ := exists_unitsPerOne_eq
  obtain ⟨j, hj⟩ : ∃ j, j = 970 := ⟨_, rfl⟩
  refine ⟨u + j, j, by omega, by rw [hU, Nat.pow_add], ?_⟩
  have htop : 1024 = 54 + j := by omega
  rw [overflow, htop, ← hj, Nat.pow_eq, Nat.pow_eq, Nat.pow_add, Nat.sub_mul, Nat.one_mul]
  rfl

variable {x y : Double}

theorem isFinite_iff : x.isFinite = true ↔ x.magnitude < infinite := by
  rw [isFinite, decide_eq_true_eq]

theorem units_le_of_spread_lt {k : Nat} (h : x.spread < k) : x.units ≤ exponentWeight * 2 ^ k := by
  have hsig := x.significand_lt
  calc x.units = x.significand * 2 ^ x.spread := rfl
    _ ≤ 2 * exponentWeight * 2 ^ x.spread := Nat.mul_le_mul_right _ hsig.le
    _ = exponentWeight * 2 ^ (x.spread + 1) := by
      rw [Nat.pow_succ, Nat.mul_comm (2 ^ x.spread), ← Nat.mul_assoc, Nat.mul_comm exponentWeight]
    _ ≤ exponentWeight * 2 ^ k := Nat.mul_le_mul_left _ (Nat.pow_le_pow_right (by decide) h)

theorem exists_units_eq_mul {k : Nat} (h : k ≤ x.spread) : ∃ m, x.units = m * 2 ^ k := by
  refine ⟨x.significand * 2 ^ (x.spread - k), ?_⟩
  rw [Nat.mul_assoc, ← Nat.pow_add, Nat.sub_add_cancel h]
  rfl

theorem units_eq_kept (hd : 0 < den) (hm : x.magnitude = nearestMagnitude num den)
    (hx : x.isFinite = true) : x.units = keptPlaces num den * 2 ^ droppedPlaces num den := by
  rw [isFinite_iff, hm, nearestMagnitude_eq_kept] at hx
  rw [nearestMagnitude_eq_kept] at hm
  refine units_of_magnitude (by omega) (keptPlaces_le hd num) ?_
  rcases Nat.eq_zero_or_pos (droppedPlaces num den) with h | h
  · exact .inl h
  · exact .inr (le_keptPlaces hd num h.ne')

/-- No double is nearer to a ratio than the one it is rounded to. -/
theorem units_nearest (hd : 0 < den) (hm : x.magnitude = nearestMagnitude num den)
    (hx : x.isFinite = true) (y : Double) :
    ((x.units * den : Nat) - (num * unitsPerOne : Nat) : Int).natAbs ≤
      ((y.units * den : Nat) - (num * unitsPerOne : Nat) : Int).natAbs := by
  have hunits : x.units * den = keptPlaces num den * (den * 2 ^ droppedPlaces num den) := by
    rw [units_eq_kept hd hm hx, Nat.mul_assoc, Nat.mul_comm den]
  rw [hunits]
  rcases Nat.lt_or_ge y.spread (droppedPlaces num den) with hlt | hge
  · have hy : y.units * den ≤ exponentWeight * (den * 2 ^ droppedPlaces num den) := by
      rw [Nat.mul_comm den, ← Nat.mul_assoc]
      exact Nat.mul_le_mul_right _ (units_le_of_spread_lt hlt)
    have hgrid := le_units_of_droppedPlaces hd num (Nat.ne_zero_of_lt hlt)
    have hedge := keptPlaces_nearest hd num exponentWeight
    -- an atom for what follows, or 2 ^ 1074 would be computed
    generalize num * unitsPerOne = ratio at hgrid hedge ⊢
    omega
  · obtain ⟨m, hy⟩ := exists_units_eq_mul hge
    rw [hy, Nat.mul_assoc, Nat.mul_comm _ den]
    exact keptPlaces_nearest hd num m

end Double

theorem lt_overflow_iff (num den : Nat) : ∃ k, k = 2044 ∧
    (num < Double.overflow * den ↔
      num * Double.unitsPerOne < (4 * Double.exponentWeight - 1) * (den * 2 ^ k)) := by
  obtain ⟨k, j, hk, hU, ho⟩ := Double.exists_overflow_eq
  refine ⟨k, hk, ?_⟩
  have hscaled : Double.overflow * den * Double.unitsPerOne =
      (4 * Double.exponentWeight - 1) * (den * 2 ^ k) := by
    rw [ho, ← hU]
    ring
  rw [← hscaled, Nat.mul_lt_mul_right Double.unitsPerOne_pos]

theorem nearestMagnitude_lt_iff (hd : 0 < den) (num : Nat) :
    nearestMagnitude num den < Double.infinite ↔ num < Double.overflow * den := by
  obtain ⟨k, hk, ho⟩ := lt_overflow_iff num den
  have hinf : Double.infinite = 2047 * Double.exponentWeight := rfl
  have hpos := den_mul_pos hd k
  have hle := keptPlaces_le hd num
  have hdouble : den * 2 ^ (k + 1) = 2 * (den * 2 ^ k) := by ring
  rw [ho, nearestMagnitude_eq_kept, hinf]
  rcases Nat.lt_trichotomy (droppedPlaces num den) (k + 1) with hlt | heq | hgt
  · have hs := units_lt_of_droppedPlaces hd num
    have hpow : den * 2 ^ droppedPlaces num den ≤ den * 2 ^ k :=
      Nat.mul_le_mul_left _ (Nat.pow_le_pow_right (by decide) (Nat.le_of_lt_succ hlt))
    generalize num * Double.unitsPerOne = ratio at hs ⊢
    unfold Double.exponentWeight at *
    omega
  · -- the greatest step there is: all depends on what is kept
    have hkept : keptPlaces num den < 2 * Double.exponentWeight ↔ _ :=
      roundHalfEven_lt_iff (den_mul_pos hd (droppedPlaces num den)) (num * Double.unitsPerOne)
        Double.exponentWeight
    rw [heq, hdouble] at hkept
    generalize num * Double.unitsPerOne = ratio at hkept ⊢
    unfold Double.exponentWeight at *
    omega
  · have hs := le_units_of_droppedPlaces hd num (Nat.ne_zero_of_lt hgt)
    have hge := le_keptPlaces hd num (Nat.ne_zero_of_lt hgt)
    have hpow : den * 2 ^ (k + 1) * 2 ≤ den * 2 ^ droppedPlaces num den := by
      rw [Nat.mul_assoc, ← Nat.pow_succ]
      exact Nat.mul_le_mul_left _ (Nat.pow_le_pow_right (by decide) hgt)
    generalize num * Double.unitsPerOne = ratio at hs ⊢
    unfold Double.exponentWeight at *
    omega

end FormulaEntry
