import FormulaEntry.Datum
import Mathlib.Data.Rat.Cast.Order
import Mathlib.Tactic.FieldSimp

/-! The numbers that controls hold, as rational numbers. Numbers are compared as what
they are exactly, an integer with a double too, whatever their size. -/

namespace FormulaEntry

def Double.rational? (x : Double) : Option ℚ :=
  if x.isFinite then some ((x.signedUnits : ℚ) / unitsPerOne) else none

theorem Double.rational?_of_isFinite {x : Double} (hx : x.isFinite = true) :
    x.rational? = some ((x.signedUnits : ℚ) / unitsPerOne) := if_pos hx

theorem Double.isNaN_of_isFinite {x : Double} (hx : x.isFinite = true) : x.isNaN = false := by
  rw [isFinite, decide_eq_true_eq] at hx
  rw [isNaN, decide_eq_false_iff_not]
  omega

theorem Double.unitsPerOne_ne_zero : (unitsPerOne : ℚ) ≠ 0 := by
  unfold unitsPerOne
  generalize 1074 = k
  exact Nat.cast_ne_zero.2 (Nat.two_pow_pos k).ne'

namespace Number

def rational? : Number → Option ℚ
  | int n => some n
  | double x => x.rational?

theorem rational?_isSome {n : Number} (hn : n.isFinite = true) : n.rational?.isSome := by
  cases n with
  | int n => rfl
  | double x => rw [rational?, Double.rational?_of_isFinite hn]; rfl

theorem equalsInt_iff {x : Double} (hx : x.isFinite = true) (n : Int) :
    x.equalsInt n = true ↔ (double x).rational? = (int n).rational? := by
  have h0 := Double.unitsPerOne_ne_zero
  rw [Double.equalsInt, hx, Bool.true_and, beq_iff_eq, rational?, rational?,
    Double.rational?_of_isFinite hx, Option.some_inj, div_eq_iff h0]
  exact_mod_cast Iff.rfl

theorem equals_iff {m n : Number} (hm : m.isFinite = true) (hn : n.isFinite = true) :
    m.equals n = true ↔ m.rational? = n.rational? := by
  cases m with
  | int m =>
    cases n with
    | int n => simp [equals, rational?]
    | double y => rw [equals, equalsInt_iff hn, eq_comm]
  | double x =>
    cases n with
    | int n => rw [equals, equalsInt_iff hm]
    | double y =>
      have h0 := Double.unitsPerOne_ne_zero
      rw [equals, Double.equals, Double.isNaN_of_isFinite hm, Double.isNaN_of_isFinite hn,
        rational?, rational?, Double.rational?_of_isFinite hm, Double.rational?_of_isFinite hn,
        Option.some_inj, div_left_inj' h0]
      simp

theorem differs_iff {m n : Number} (hm : m.isFinite = true) (hn : n.isFinite = true) :
    m.differs n = true ↔ m.rational? ≠ n.rational? := by
  have hu : (m == double .undefinedQuotient) = false := by
    rw [beq_eq_false_iff_ne]
    rintro rfl
    exact absurd hm (by decide)
  rw [differs, hu, Bool.false_and, Bool.not_false, Bool.and_true, Bool.not_eq_true',
    ← Bool.not_eq_true, equals_iff hm hn]

end Number

namespace Datum

/-- Numbers are the same if they are so exactly; other data only if they are equal. -/
def Same : Datum → Datum → Prop
  | number m, number n => ∃ q, m.rational? = some q ∧ n.rational? = some q
  | d, e => d = e

theorem same_iff_eq {d e : Datum} (hd : ∀ n, d ≠ number n) : d.Same e ↔ d = e := by
  cases d with
  | number n => exact absurd rfl (hd n)
  | _ => exact Iff.rfl

theorem same_number_iff {m n : Number} (hm : m.isFinite = true) :
    (number m).Same (number n) ↔ m.rational? = n.rational? := by
  obtain ⟨q, hq⟩ := Option.isSome_iff_exists.1 (Number.rational?_isSome hm)
  rw [hq]
  constructor
  · rintro ⟨p, hp, hn⟩
    rw [← hq, hp, hn]
  · intro hn
    exact ⟨q, hq, hn.symm⟩

theorem Same.symm {d e : Datum} (h : d.Same e) : e.Same d := by
  by_cases hd : ∃ n, d = number n
  · obtain ⟨m, rfl⟩ := hd
    cases e with
    | number n => exact h.imp fun _ hq => hq.symm
    | _ => exact absurd h (by simp [Same])
  · obtain rfl := (same_iff_eq fun n hn => hd ⟨n, hn⟩).1 h
    exact h

theorem Same.trans {d e f : Datum} (h₁ : d.Same e) (h₂ : e.Same f) : d.Same f := by
  by_cases hd : ∃ n, d = number n
  · obtain ⟨m, rfl⟩ := hd
    cases e with
    | number n =>
      cases f with
      | number k =>
        obtain ⟨q, hm, hn⟩ := h₁
        obtain ⟨p, hn', hk⟩ := h₂
        obtain rfl := Option.some.inj (hn.symm.trans hn')
        exact ⟨q, hm, hk⟩
      | _ => exact absurd h₂ (by simp [Same])
    | _ => exact absurd h₁ (by simp [Same])
  · obtain rfl := (same_iff_eq fun n hn => hd ⟨n, hn⟩).1 h₁
    exact h₂

end Datum

end FormulaEntry
