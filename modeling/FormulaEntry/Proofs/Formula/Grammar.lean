import FormulaEntry.Proofs.Formula.Split
import FormulaEntry.Proofs.Number.Numeral
import FormulaEntry.Proofs.Text.Blank

/-! The grammar of formulas and what they mean, said without regard to how they are
read. Blanks may stand around every token, never inside a number:

    sum           := signedProduct { ('+' | '-') product }
    signedProduct := signedFactor { ('*' | '/') factor }
    signedFactor  := { '-' } factor
    product       := factor { ('*' | '/') factor }
    factor        := number | '(' sum ')'
    number        := [0-9]* '.'? [0-9]+ (('e' | 'E') ('+' | '-')? [0-9]+)?

The chains are written left-recursively, which folds their values from the left. -/

namespace FormulaEntry

open Text (AllBlank)

/-- A number inside a formula: no sign, and digits at the end of its mantissa. -/
structure IsNumber (n : Numeral) (cs : List Char) : Prop where
  spells : n.Spells cs
  unsigned : n.sign = .absent
  digits : if n.point then n.fraction ≠ [] else n.whole ≠ []

/-- `[+-]?([0-9]+\.?[0-9]*|\.[0-9]+)([eE][+-]?[0-9]+)?`: a number in a field of its own, which a
formula need not take. -/
structure IsEntry (n : Numeral) (cs : List Char) : Prop where
  spells : n.Spells cs
  digits : n.whole ≠ [] ∨ n.fraction ≠ []

inductive Category where
  | sum
  | signedProduct
  | signedFactor
  | product
  | factor
deriving DecidableEq

namespace Category

/-- What a chain begins with, and is by itself. -/
def head? : Category → Option Category
  | sum => some signedProduct
  | signedProduct => some signedFactor
  | signedFactor => some factor
  | product => some factor
  | factor => none

/-- What may follow the operator in a chain. -/
def operand? : Category → Operator → Option Category
  | sum, .add | sum, .sub => some product
  | signedProduct, .mul | signedProduct, .div => some factor
  | product, .mul | product, .div => some factor
  | _, _ => none

end Category

/-- `Derives c s x`: the text `s` is a `c`, and its value is `x`. -/
inductive Derives : Category → List Char → Double → Prop
  | number {n : Numeral} {v cs w : List Char} (hv : AllBlank v) (hw : AllBlank w)
      (hn : IsNumber n cs) : Derives .factor (v ++ (cs ++ w)) n.toDouble
  | bracketed {v s w : List Char} {x : Double} (hv : AllBlank v) (hw : AllBlank w)
      (hs : Derives .sum s x) : Derives .factor (v ++ '(' :: (s ++ ')' :: w)) x
  | negated {v s : List Char} {x : Double} (hv : AllBlank v) (hs : Derives .signedFactor s x) :
      Derives .signedFactor (v ++ '-' :: s) x.neg
  | head {c d : Category} {s : List Char} {x : Double} (hc : c.head? = some d)
      (hs : Derives d s x) : Derives c s x
  | chain {c d : Category} {op : Operator} {s t : List Char} {x y : Double}
      (hc : c.operand? op = some d) (hs : Derives c s x) (ht : Derives d t y) :
      Derives c (s ++ op.symbol :: t) (op.apply x y)

theorem IsEntry.exists_head {n : Numeral} {cs : List Char} (h : IsEntry n cs)
    (hu : n.sign = .absent) : ∃ c t, cs = c :: t ∧ (c.isDigit = true ∨ c = '.') := by
  obtain ⟨⟨hw, -, hnil, es, -, rfl⟩, hd⟩ := h
  obtain ⟨sign, whole, point, fraction, exponent⟩ := n
  subst hu
  cases whole with
  | cons c whole => exact ⟨c, _, rfl, .inl (hw c (by simp))⟩
  | nil =>
    cases point with
    | true => exact ⟨'.', _, rfl, .inr rfl⟩
    | false => exact absurd (hnil rfl) (hd.resolve_left (not_not.mpr rfl))

namespace IsNumber

variable {n : Numeral} {cs : List Char}

theorem isEntry (h : IsNumber n cs) : IsEntry n cs := by
  refine ⟨h.spells, ?_⟩
  have hd := h.digits
  split at hd
  · exact .inr hd
  · exact .inl hd

theorem exists_head (h : IsNumber n cs) : ∃ c t, cs = c :: t ∧ (c.isDigit = true ∨ c = '.') :=
  h.isEntry.exists_head h.unsigned

theorem exists_last (h : IsNumber n cs) : ∃ t c, cs = t ++ [c] ∧ c.isDigit = true := by
  have hds : ∃ t ds, cs = t ++ ds ∧ ds ≠ [] ∧ AllDigits ds := by
    obtain ⟨⟨hw, hf, -, es, he, rfl⟩, -, hd⟩ := h
    generalize n.exponent = k at he
    cases he with
    | marked mark sign ds hm hne hds =>
      exact ⟨n.sign.chars ++ (n.whole ++ (n.pointed ++ (mark :: sign.chars))), ds, by simp, hne,
        hds⟩
    | absent =>
      rw [Numeral.pointed]
      split at hd
      next hp => exact ⟨n.sign.chars ++ (n.whole ++ ['.']), n.fraction, by simp [hp], hd, hf⟩
      next hp => exact ⟨n.sign.chars, n.whole, by simp [hp], hd, hw⟩
  obtain ⟨t, ds, rfl, hne, hd⟩ := hds
  refine ⟨t ++ ds.dropLast, ds.getLast hne, ?_, hd _ (List.getLast_mem hne)⟩
  rw [List.append_assoc, List.dropLast_append_getLast]

end IsNumber

theorem isBlank_of_isDigit {c : Char} (h : c.isDigit = true) : Text.isBlank c = false := by
  have hc : 48 ≤ c.toNat ∧ c.toNat ≤ 57 := by
    simp only [Char.isDigit, Bool.and_eq_true, decide_eq_true_eq, ge_iff_le,
      UInt32.le_iff_toNat_le] at h
    exact h
  simp only [Text.isBlank, Bool.or_eq_false_iff, Bool.and_eq_false_iff, decide_eq_false_iff_not,
    beq_eq_false_iff_ne]
  omega

theorem isBlank_symbol (op : Operator) : Text.isBlank op.symbol = false := by cases op <;> decide

/-! Blanks at either end make no difference. -/

namespace Derives

variable {c : Category} {s : List Char} {x : Double}

theorem blank_append {v : List Char} (hv : AllBlank v) (h : Derives c s x) :
    Derives c (v ++ s) x := by
  induction h with
  | number hu hw hn =>
    rw [← List.append_assoc]
    exact .number (hv.append hu) hw hn
  | bracketed hu hw hs =>
    rw [← List.append_assoc]
    exact .bracketed (hv.append hu) hw hs
  | negated hu hs =>
    rw [← List.append_assoc]
    exact .negated (hv.append hu) hs
  | head hc _ ih => exact .head hc ih
  | chain hc _ ht ihs _ =>
    rw [← List.append_assoc]
    exact .chain hc ihs ht

theorem append_blank {w : List Char} (hw : AllBlank w) (h : Derives c s x) :
    Derives c (s ++ w) x := by
  induction h with
  | number hu hw' hn =>
    rw [List.append_assoc, List.append_assoc]
    exact .number hu (hw'.append hw) hn
  | bracketed hu hw' hs =>
    rw [List.append_assoc, List.cons_append, List.append_assoc, List.cons_append]
    exact .bracketed hu (hw'.append hw) hs
  | negated hu _ ih =>
    rw [List.append_assoc, List.cons_append]
    exact .negated hu ih
  | head hc _ ih => exact .head hc ih
  | chain hc hs _ _ iht =>
    rw [List.append_assoc, List.cons_append]
    exact .chain hc hs iht

theorem stripLeft (h : Derives c s x) :
    Text.stripLeft s ≠ [] ∧ Derives c (Text.stripLeft s) x := by
  induction h with
  | number hv hw hn =>
    obtain ⟨c, t, rfl, hc⟩ := hn.exists_head
    have hb : Text.isBlank c = false := by
      rcases hc with hc | rfl
      · exact isBlank_of_isDigit hc
      · decide
    rw [Text.stripLeft_append hv, List.cons_append, Text.stripLeft_cons hb]
    exact ⟨List.cons_ne_nil _ _, .number (v := []) (by simp [AllBlank]) hw hn⟩
  | bracketed hv hw hs =>
    rw [Text.stripLeft_append hv, Text.stripLeft_cons (by decide)]
    exact ⟨List.cons_ne_nil _ _, .bracketed (v := []) (by simp [AllBlank]) hw hs⟩
  | negated hv hs =>
    rw [Text.stripLeft_append hv, Text.stripLeft_cons (by decide)]
    exact ⟨List.cons_ne_nil _ _, .negated (v := []) (by simp [AllBlank]) hs⟩
  | head hc _ ih => exact ⟨ih.1, .head hc ih.2⟩
  | chain hc _ ht ihs _ =>
    rw [Text.stripLeft_append_of_ne_nil ihs.1]
    exact ⟨by simp, .chain hc ihs.2 ht⟩

theorem stripRight (h : Derives c s x) : Derives c (Text.stripRight s) x := by
  induction h with
  | @number n v cs w hv hw hn =>
    obtain ⟨t, c, rfl, hc⟩ := hn.exists_last
    rw [← List.append_assoc, Text.stripRight_append _ hw, ← List.append_assoc,
      Text.stripRight_concat (isBlank_of_isDigit hc), List.append_assoc]
    simpa using Derives.number hv (w := []) (by simp [AllBlank]) hn
  | @bracketed v s w x hv hw hs =>
    have hsplit : v ++ '(' :: (s ++ ')' :: w) = (v ++ '(' :: s) ++ [')'] ++ w := by simp
    rw [hsplit, Text.stripRight_append _ hw, Text.stripRight_concat (by decide)]
    simpa using Derives.bracketed hv (w := []) (by simp [AllBlank]) hs
  | negated hv _ ih =>
    rw [Text.stripRight_append_cons (by decide)]
    exact .negated hv ih
  | head hc _ ih => exact .head hc ih
  | @chain _ _ op _ _ _ _ hc hs _ _ iht =>
    rw [Text.stripRight_append_cons (isBlank_symbol op)]
    exact .chain hc hs iht

theorem strip_iff : Derives c (Text.strip s) x ↔ Derives c s x := by
  constructor
  · intro h
    obtain ⟨v, w, hv, hw, he⟩ := Text.exists_strip s
    rw [he]
    exact (h.append_blank hw).blank_append hv
  · exact fun h => h.stripLeft.2.stripRight

end Derives

end FormulaEntry
