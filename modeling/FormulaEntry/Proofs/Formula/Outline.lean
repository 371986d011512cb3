import FormulaEntry.Proofs.Formula.Reading

/-! The outermost form of a formula, as a relation. `Outline t s` lists what a
trimmed text of each shape is like, and `outline_of_ofTrimmed` says that a shape
found by the scan is one of these. In the other direction `ofTrimmed_join` and
`ofTrimmed_plain` give the shape of a text whose operators are known. -/

namespace FormulaEntry

open Text (AllBlank)

theorem bind_eq_ok {ε α β : Type} {e : Except ε α} {f : α → Except ε β} {b : β} :
    (e >>= f) = .ok b ↔ ∃ a, e = .ok a ∧ f a = .ok b := by
  cases e <;> simp [bind, Except.bind]

theorem bind_eq_error {ε α β : Type} {e : Except ε α} {f : α → Except ε β} {d : ε} :
    (e >>= f) = .error d ↔ e = .error d ∨ ∃ a, e = .ok a ∧ f a = .error d := by
  cases e <;> simp [bind, Except.bind]

/-! Literals. -/

theorem Decimal.toDouble_true (d : Decimal) : d.toDouble true = (d.toDouble false).neg := by
  have hm : d.toMagnitude < Double.signWeight :=
    Nat.lt_of_le_of_lt d.toMagnitude_le (by decide)
  have hn : (d.toDouble false).isNaN = false := by
    rw [Double.isNaN, toDouble, Double.magnitude_ofMagnitude _ hm, decide_eq_false_iff_not]
    exact Nat.not_lt.mpr d.toMagnitude_le
  rw [Double.neg, hn, if_neg Bool.false_ne_true, toDouble, toDouble,
    Double.isNegative_ofMagnitude _ hm, Double.magnitude_ofMagnitude _ hm]
  rfl

namespace Numeral

variable {n : Numeral} {cs : List Char}

theorem literal?_eq_some : literal? cs = some n ↔ n.Spells cs ∧ n.isLiteral = true := by
  simp [literal?, Option.filter_eq_some_iff, read?_eq_some_iff]

def unsigned (n : Numeral) : Numeral := { n with sign := .absent }

theorem toDouble_of_minus (h : n.sign = .minus) : n.toDouble = n.unsigned.toDouble.neg := by
  rw [toDouble, h]
  exact Decimal.toDouble_true n.decimal

theorem literal?_of_isNumber (h : IsNumber n cs) : literal? cs = some n := by
  refine literal?_eq_some.mpr ⟨h.spells, ?_⟩
  have := h.digits
  rw [isLiteral, h.unsigned]
  split at this <;> simp_all

/-- A literal is a number or a number with a minus sign right before it. -/
theorem isNumber_of_literal? (h : literal? cs = some n) :
    IsNumber n cs ∨ ∃ t, cs = '-' :: t ∧ n.sign = .minus ∧ IsNumber n.unsigned t := by
  obtain ⟨hs, hl⟩ := literal?_eq_some.mp h
  obtain ⟨hw, hf, hnil, es, he, rfl⟩ := hs
  simp only [isLiteral, Bool.and_eq_true, bne_iff_ne] at hl
  have hd : if n.point then n.fraction ≠ [] else n.whole ≠ [] := by
    have := hl.2
    split at this <;> simp_all
  cases hsign : n.sign with
  | absent => exact .inl ⟨⟨hw, hf, hnil, es, he, by rw [hsign]⟩, hsign, hd⟩
  | plus => exact absurd hsign hl.1
  | minus => exact .inr ⟨_, rfl, rfl, ⟨hw, hf, hnil, es, he, rfl⟩, rfl, hd⟩

theorem derives_of_literal? (h : literal? cs = some n) : Derives .signedFactor cs n.toDouble := by
  have hnum {m : Numeral} {t : List Char} (hm : IsNumber m t) :
      Derives .signedFactor t m.toDouble := by
    have := Derives.number (v := []) (w := []) (by simp [AllBlank]) (by simp [AllBlank]) hm
    exact .head rfl (by simpa using this)
  rcases isNumber_of_literal? h with hn | ⟨t, rfl, hs, hn⟩
  · exact hnum hn
  · rw [toDouble_of_minus hs]
    exact .negated (v := []) (by simp [AllBlank]) (hnum hn)

end Numeral

/-! Shapes. -/

namespace Shape

inductive Outline : List Char → Shape → Prop
  | blank : Outline [] blank
  | literal {t : List Char} {n : Numeral} (h : Numeral.literal? t = some n) :
      Outline t (literal n)
  | chain {first : List Char} {rest : List (Operator × List Char)} (k : Nat) (hne : rest ≠ [])
      (h : Divided k first rest) : Outline (join first rest) (chain first rest)
  | plain {t : List Char} (hp : Paired t) (ho : Place.start.ops t = []) : Outline t (ofPlain t)

theorem outline_of_ofTrimmed {t : List Char} {s : Shape} (h : ofTrimmed t = .ok s) :
    Outline t s := by
  unfold ofTrimmed at h
  split at h
  next ht =>
    obtain rfl := Except.ok.inj h
    exact ht ▸ .blank
  next ht =>
    split at h
    next n hn =>
      obtain rfl := Except.ok.inj h
      exact .literal hn
    next hn =>
      obtain ⟨ms, hms, h⟩ := bind_eq_ok.mp h
      by_cases hne : ms = []
      · subst hne
        obtain rfl : ofPlain t = s := Except.ok.inj h
        obtain ⟨hp, ho⟩ := findOperators_eq_ok_iff.mp hms
        refine .plain hp ?_
        rw [← Place.map_operator_operators _ 0, ofLowestPriority_eq_nil.mp ho.symm]
        rfl
      · obtain ⟨k, first, rest, hrest, rfl, rfl, hdiv⟩ := exists_divided hms hne
        rw [cut_join] at h
        obtain ⟨r, rest, rfl⟩ := List.exists_cons_of_ne_nil hrest
        obtain rfl : chain first (r :: rest) = s := Except.ok.inj h
        exact .chain k hrest hdiv

theorem reads_of_literal? {t : List Char} {n : Numeral} (h : Numeral.literal? t = some n) :
    Place.start.Reads 2 t :=
  (Numeral.derives_of_literal? h).reads Place.start fun _ _ => rfl

theorem literal?_eq_none {t : List Char} (h : ¬Place.start.Reads 2 t) :
    Numeral.literal? t = none :=
  Option.eq_none_iff_forall_ne_some.mpr fun _ hn => h (reads_of_literal? hn)

/-- A text has no shape if and only if the scan fails, as literals hold no brackets. -/
theorem ofTrimmed_eq_error_iff {t : List Char} {e : FormulaError} :
    ofTrimmed t = .error e ↔ findOperators t = .error e := by
  unfold ofTrimmed
  split
  next ht =>
    rw [ht, show findOperators [] = .ok [] from rfl]
    simp
  next ht =>
    split
    next n hn =>
      have hr := reads_of_literal? hn
      rw [findOperators_eq_ok_iff.mpr ⟨⟨hr.admits, hr.depth⟩, rfl⟩]
      simp
    next hn =>
      rw [bind_eq_error]
      refine ⟨fun h => ?_, .inl⟩
      rcases h with h | ⟨ms, -, h⟩
      · exact h
      · split at h <;> exact absurd h (by simp)

theorem ofTrimmed_join {k : Nat} {first : List Char} {rest : List (Operator × List Char)}
    (h : Divided k first rest) (hne : rest ≠ []) :
    ofTrimmed (join first rest) = .ok (chain first rest) := by
  obtain ⟨r, rest, rfl⟩ := List.exists_cons_of_ne_nil hne
  have hnil : join first (r :: rest) ≠ [] := by simp [join]
  have hop : r.1 ∈ Place.start.ops (join first (r :: rest)) := by
    rw [Place.ops_join h.parted]
    simp
  have hlit : Numeral.literal? (join first (r :: rest)) = none := literal?_eq_none fun h => by
    have := h.higher r.1 hop
    have : r.1.priority ≤ 2 := by cases r.1 <;> decide
    omega
  rw [ofTrimmed, if_neg hnil]
  simp only [hlit, h.findOperators_join hne, bind, Except.bind, cut_join]

theorem ofTrimmed_plain {t : List Char} (hne : t ≠ []) (hl : Numeral.literal? t = none)
    (h : Place.start.Reads 2 t) : ofTrimmed t = .ok (ofPlain t) := by
  have ho : Place.start.ops t = [] := List.eq_nil_iff_forall_not_mem.mpr fun op hop => by
    have := h.higher op hop
    have : op.priority ≤ 2 := by cases op <;> decide
    omega
  have hms : findOperators t = .ok [] := by
    refine findOperators_eq_ok_iff.mpr ⟨⟨h.admits, h.depth⟩, (ofLowestPriority_eq_nil.mpr ?_).symm⟩
    rw [← Place.map_operator_operators _ 0] at ho
    exact List.map_eq_nil_iff.mp ho
  rw [ofTrimmed, if_neg hne]
  simp only [hl, hms, bind, Except.bind, cut]

end Shape
end FormulaEntry
