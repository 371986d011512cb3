import FormulaEntry.Proofs.Formula.Grammar
import FormulaEntry.Proofs.Number.Rounding
import FormulaEntry.Proofs.Number.Text
import Mathlib.Data.List.Induction
import Mathlib.Tactic.Ring

/-! What is written for a double reads back as that double, down to the sign of zero. -/

namespace FormulaEntry

/-! Digits. -/

theorem digitChar_isDigit (n : Nat) : (digitChar n).isDigit = true := by
  have h : ∀ m < 10, (Char.ofNat (48 + m)).isDigit = true := by decide
  exact h _ (Nat.mod_lt _ (by decide))

theorem digitChar_toNat (n : Nat) : (digitChar n).toNat - 48 = n % 10 := by
  have h : ∀ m < 10, (Char.ofNat (48 + m)).toNat - 48 = m := by decide
  exact h _ (Nat.mod_lt _ (by decide))

theorem ofDigits_append (ds es : List Char) :
    ofDigits (ds ++ es) = ofDigits ds * 10 ^ es.length + ofDigits es := by
  induction es using List.reverseRecOn with
  | nil => simp [ofDigits]
  | append_singleton es c ih =>
    rw [← List.append_assoc]
    simp only [ofDigits, List.foldl_append, List.foldl_cons, List.foldl_nil, List.length_append,
      List.length_singleton, Nat.pow_succ] at ih ⊢
    rw [ih]
    ring

theorem ofDigits_zeros (n : Nat) : ofDigits (zeros n) = 0 := by
  induction n with
  | zero => rfl
  | succ n ih => exact ih

@[simp] theorem length_zeros (n : Nat) : (zeros n).length = n := List.length_replicate

theorem zeros_add (m n : Nat) : zeros (m + n) = zeros m ++ zeros n := List.replicate_add m n '0'

theorem ofDigits_append_zeros (ds : List Char) (n : Nat) :
    ofDigits (ds ++ zeros n) = ofDigits ds * 10 ^ n := by
  rw [ofDigits_append, ofDigits_zeros, length_zeros, Nat.add_zero]

theorem ofDigits_zeros_append (n : Nat) (ds : List Char) :
    ofDigits (zeros n ++ ds) = ofDigits ds := by
  rw [ofDigits_append, ofDigits_zeros, Nat.zero_mul, Nat.zero_add]

theorem digitsBefore_append (n : Nat) (ds es : List Char) :
    digitsBefore n (ds ++ es) = digitsBefore n ds ++ es := by
  induction n, ds using digitsBefore.induct with
  | case1 n ds h =>
    rw [digitsBefore, if_pos h, ← List.cons_append]
    conv_rhs => rw [digitsBefore, if_pos h]
  | case2 n ds h ih =>
    rw [digitsBefore, if_neg h, ← List.cons_append, ih]
    conv_rhs => rw [digitsBefore, if_neg h]

theorem digitsOf_of_ge {n : Nat} (h : 10 ≤ n) :
    digitsOf n = digitsOf (n / 10) ++ [digitChar (n % 10)] := by
  rw [digitsOf, digitsBefore, if_neg (by omega)]
  exact digitsBefore_append _ [] _

theorem digitsOf_of_lt {n : Nat} (h : n < 10) : digitsOf n = [digitChar n] := by
  rw [digitsOf, digitsBefore, if_pos h]

theorem ofDigits_digitsOf (n : Nat) : ofDigits (digitsOf n) = n := by
  induction n using Nat.strong_induction_on with
  | _ n ih =>
    by_cases h : n < 10
    · rw [digitsOf_of_lt h]
      simp only [ofDigits, List.foldl_cons, List.foldl_nil, digitChar_toNat]
      omega
    · rw [digitsOf_of_ge (by omega), ofDigits_append, ih _ (by omega)]
      simp only [ofDigits, List.foldl_cons, List.foldl_nil, digitChar_toNat, List.length_singleton]
      omega

theorem allDigits_digitsOf (n : Nat) : AllDigits (digitsOf n) := by
  induction n using Nat.strong_induction_on with
  | _ n ih =>
    by_cases h : n < 10
    · rw [digitsOf_of_lt h]
      intro c hc
      rw [List.mem_singleton.1 hc]
      exact digitChar_isDigit n
    · rw [digitsOf_of_ge (by omega)]
      intro c hc
      rcases List.mem_append.1 hc with hc | hc
      · exact ih _ (by omega) c hc
      · rw [List.mem_singleton.1 hc]
        exact digitChar_isDigit _

theorem AllDigits.append {ds es : List Char} (hd : AllDigits ds) (he : AllDigits es) :
    AllDigits (ds ++ es) := fun c hc => (List.mem_append.1 hc).elim (hd c) (he c)

theorem allDigits_zeros (n : Nat) : AllDigits (zeros n) := by
  intro c hc
  rw [List.eq_of_mem_replicate hc]
  rfl


/-! Shortest decimals. -/

namespace Decimal

theorem toMagnitude_trim (d : Decimal) : d.trim.toMagnitude = d.toMagnitude := by
  induction d using trim.induct with
  | case1 d h ih =>
    rw [trim, dif_pos h, ih]
    have hshift := toMagnitude_shift (d.digits / 10) (d.exp + 1) 1
    have hdigits : d.digits / 10 * 10 ^ 1 = d.digits := by omega
    have hexp : d.exp + 1 - (1 : Nat) = d.exp := by omega
    rw [hdigits, hexp] at hshift
    exact hshift.symm
  | case2 d h => rw [trim, dif_neg h]

end Decimal

namespace Double

variable {x : Double}

theorem toMagnitude_exactDecimal (hx : x.isFinite = true) :
    x.exactDecimal.toMagnitude = x.magnitude := by
  rw [Decimal.toMagnitude_eq, ← nearestMagnitude_units hx]
  refine nearestMagnitude_congr (Decimal.denominator_pos _) unitsPerOne_pos ?_
  obtain ⟨k, hk, hU⟩ := exists_unitsPerOne_eq
  have hdigits : x.exactDecimal.digits = x.units * 5 ^ k := by
    unfold exactDecimal
    rw [← hk, Nat.pow_eq]
  have hn : x.exactDecimal.exp.toNat = 0 := rfl
  have hd : (-x.exactDecimal.exp).toNat = k := hk.symm
  rw [Decimal.numerator, Decimal.denominator, hdigits, hn, hd, hU, pow_zero, Nat.mul_one,
    Nat.mul_assoc, ← Nat.mul_pow]

theorem toMagnitude_shortest (hx : x.isFinite = true) : x.shortest.toMagnitude = x.magnitude := by
  rw [shortest, Decimal.toMagnitude_trim]
  cases h : (List.range 17).findSome? fun (n : Nat) => x.onGrid? (x.leadingExp - n) with
  | none => exact toMagnitude_exactDecimal hx
  | some d =>
    obtain ⟨n, -, hn⟩ := List.exists_of_findSome?_eq_some h
    have hb : x.readsBack d = true := List.find?_some hn
    exact beq_iff_eq.1 hb

end Double

/-! Written decimals. -/

namespace Decimal

/-- The text `cs` is an unsigned numeral for the decimal, perhaps with zeros moved between
its digits and its exponent. -/
structure WrittenAs (d : Decimal) (n : Numeral) (cs : List Char) : Prop where
  number : IsNumber n cs
  same : n.decimal.toMagnitude = d.toMagnitude

theorem isExponent_exponentChars (e : Int) : IsExponent (exponentChars e) e := by
  have h := IsExponent.marked 'e' (if e < 0 then .minus else .plus)
    (zeros (2 - (digitsOf e.natAbs).length) ++ digitsOf e.natAbs) (.inl rfl)
    (by simp [digitsOf_ne_nil]) ((allDigits_zeros _).append (allDigits_digitsOf _))
  rw [ofDigits_append, ofDigits_zeros, ofDigits_digitsOf, Nat.zero_mul, Nat.zero_add] at h
  by_cases he : e < 0
  · rw [if_pos he] at h
    have hv : Sign.apply e.natAbs .minus = e := by simp only [Sign.apply]; omega
    rw [hv] at h
    simpa [exponentChars, he, Sign.chars] using h
  · rw [if_neg he] at h
    have hv : Sign.apply e.natAbs .plus = e := by simp only [Sign.apply]; omega
    rw [hv] at h
    simpa [exponentChars, he, Sign.chars] using h

variable {ds fs : List Char} {d : Decimal}

theorem exists_writtenAs_pointed (hd : AllDigits ds) (hf : AllDigits fs) (hfn : fs ≠ [])
    {es : List Char} {e : Int} (he : IsExponent es e)
    (hs : toMagnitude ⟨ofDigits (ds ++ fs), e - fs.length⟩ = d.toMagnitude) :
    ∃ n, d.WrittenAs n (ds ++ '.' :: (fs ++ es)) :=
  ⟨⟨.absent, ds, true, fs, e⟩, ⟨⟨hd, hf, nofun, es, he, rfl⟩, rfl, hfn⟩, hs⟩

theorem exists_writtenAs_positional (d : Decimal) :
    ∃ n, d.WrittenAs n (positionalChars (digitsOf d.digits) d.exp) := by
  have hd := allDigits_digitsOf d.digits
  have hne := digitsOf_ne_nil d.digits
  have hv := ofDigits_digitsOf d.digits
  generalize digitsOf d.digits = ds at hd hne hv
  unfold positionalChars
  split
  · next he =>
    -- zeros behind the digits, and one more behind the point
    have hw : ∃ n, d.WrittenAs n ((ds ++ zeros d.exp.toNat) ++ '.' :: (zeros 1 ++ [])) := by
      refine exists_writtenAs_pointed (hd.append (allDigits_zeros _)) (allDigits_zeros _)
        (by simp [zeros]) .absent ?_
      rw [List.append_assoc, ← zeros_add, ofDigits_append_zeros, hv,
        ← toMagnitude_shift d.digits d.exp (d.exp.toNat + 1)]
      congr 2
      rw [length_zeros]
      omega
    simpa [zeros] using hw
  · next he =>
    dsimp only
    generalize hk : (-d.exp).toNat = places
    split
    · next hp =>
      -- the point stands among the digits
      have hw : ∃ n, d.WrittenAs n
          (ds.take (ds.length - places) ++ '.' :: (ds.drop (ds.length - places) ++ [])) := by
        refine exists_writtenAs_pointed (fun c hc => hd c (List.mem_of_mem_take hc))
          (fun c hc => hd c (List.mem_of_mem_drop hc)) ?_ .absent ?_
        · rw [← List.length_pos_iff, List.length_drop]
          omega
        · rw [List.take_append_drop, hv, List.length_drop]
          congr 2
          omega
      simpa using hw
    · next hp =>
      -- zeros between the point and the digits
      have hw :
          ∃ n, d.WrittenAs n (zeros 1 ++ '.' :: ((zeros (places - ds.length) ++ ds) ++ [])) := by
        refine exists_writtenAs_pointed (allDigits_zeros 1) ((allDigits_zeros _).append hd)
          (by simp [hne]) .absent ?_
        rw [ofDigits_zeros_append, ofDigits_zeros_append, hv, List.length_append, length_zeros]
        congr 2
        omega
      simpa [zeros] using hw

theorem exists_writtenAs_scientific (d : Decimal) :
    ∃ n, d.WrittenAs n
      (scientificChars (digitsOf d.digits) (d.exp + (digitsOf d.digits).length - 1)) := by
  have hd := allDigits_digitsOf d.digits
  have hne := digitsOf_ne_nil d.digits
  have hv := ofDigits_digitsOf d.digits
  generalize digitsOf d.digits = ds at hd hne hv
  have he := isExponent_exponentChars (d.exp + ds.length - 1)
  match ds with
  | [] => exact absurd rfl hne
  | [c] =>
    refine ⟨⟨.absent, [c], false, [], _⟩,
      ⟨⟨hd, nofun, fun _ => rfl, _, he, rfl⟩, rfl, List.cons_ne_nil _ _⟩, congrArg toMagnitude ?_⟩
    rw [Numeral.decimal, List.append_nil, hv]
    congr 1
    simp
  | c :: f :: fs =>
    have hc : AllDigits [c] := fun b hb => hd b (List.mem_singleton.1 hb ▸ List.mem_cons_self)
    have hf : AllDigits (f :: fs) := fun b hb => hd b (List.mem_cons_of_mem c hb)
    refine exists_writtenAs_pointed hc hf (List.cons_ne_nil _ _) he ?_
    rw [List.singleton_append, hv, List.length_cons]
    congr 2
    omega

theorem exists_writtenAs (d : Decimal) : ∃ n, d.WrittenAs n d.chars := by
  unfold chars
  dsimp only
  split
  · exact exists_writtenAs_positional d
  · exact exists_writtenAs_scientific d

end Decimal

end FormulaEntry
