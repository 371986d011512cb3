import FormulaEntry.Derivation
import FormulaEntry.Proofs.Formula.Meaning
import FormulaEntry.Proofs.Number.Rational
import FormulaEntry.Proofs.Number.Shortest

/-! Reading back what was written. The text of a finite double is one numeral, which number
fields and formulas alike read as that double, down to the sign of zero. Equal numbers are
thus told apart by their texts, integers from doubles too. -/

namespace FormulaEntry

open Text (strip)

namespace Numeral

variable {n : Numeral} {cs : List Char}

def signed (n : Numeral) (sign : Sign) : Numeral := { n with sign }

theorem Spells.signed (h : n.Spells cs) (hu : n.sign = .absent) (sign : Sign) :
    (n.signed sign).Spells (sign.chars ++ cs) := by
  obtain ⟨hw, hf, hnil, es, he, rfl⟩ := h
  exact ⟨hw, hf, hnil, es, he, by rw [hu]; rfl⟩

theorem literal?_signed (h : IsNumber n cs) {sign : Sign} (hs : sign ≠ .plus) :
    literal? (sign.chars ++ cs) = some (n.signed sign) := by
  refine literal?_eq_some.2 ⟨h.spells.signed h.unsigned sign, ?_⟩
  have hd := h.digits
  simp only [isLiteral, signed]
  split at hd <;> simp_all

theorem strip_of_literal? (h : literal? cs = some n) : strip cs = cs := by
  rcases isNumber_of_literal? h with hn | ⟨t, rfl, -, hn⟩
  · exact hn.strip
  · obtain ⟨s, c, rfl, hc⟩ := hn.exists_last
    have hs := strip_negated (v := []) (s := s ++ [c]) (by simp [Text.AllBlank])
    rwa [List.nil_append, Text.stripRight_concat (isBlank_of_isDigit hc)] at hs

end Numeral

namespace Double

variable {x : Double}

/-- What is written after the sign is the text of a decimal. -/
theorem exists_decimal (hx : x.isFinite = true) :
    ∃ d : Decimal, x.unsignedChars = d.chars ∧ d.toMagnitude = x.magnitude := by
  by_cases h0 : x.isZero = true
  · refine ⟨⟨0, 0⟩, ?_, (beq_iff_eq.1 h0).symm⟩
    rw [unsignedChars, if_pos h0, Decimal.chars, digitsOf_of_lt (by decide)]
    rfl
  · refine ⟨x.shortest, ?_, toMagnitude_shortest hx⟩
    rw [unsignedChars, if_neg h0, if_pos hx]

def sign (x : Double) : Sign := if x.isNegative then .minus else .absent

theorem chars_eq (hx : x.isFinite = true) : x.chars = x.sign.chars ++ x.unsignedChars := by
  rw [chars, isNaN_of_isFinite hx, if_neg Bool.false_ne_true, sign]
  cases x.isNegative <;> rfl

/-- A numeral that formulas and number fields take for the double. -/
theorem exists_numeral (hx : x.isFinite = true) :
    ∃ n, Numeral.literal? x.chars = some n ∧ n.toDouble = x := by
  obtain ⟨d, hd, hm⟩ := exists_decimal hx
  obtain ⟨n, hn⟩ := d.exists_writtenAs
  have hs : x.sign ≠ .plus := by
    unfold sign
    split <;> decide
  refine ⟨n.signed x.sign, ?_, ?_⟩
  · rw [chars_eq hx, hd]
    exact Numeral.literal?_signed hn.number hs
  · have hneg : (x.sign == .minus) = x.isNegative := by
      unfold sign
      cases x.isNegative <;> rfl
    calc (n.signed x.sign).toDouble = n.decimal.toDouble (x.sign == .minus) := rfl
      _ = ofMagnitude x.isNegative x.magnitude := by rw [hneg, Decimal.toDouble, hn.same, hm]
      _ = x := ofMagnitude_magnitude x

end Double

/-! A literal is read alike by formulas and number fields. -/

section

variable {text : String} {n : Numeral}

theorem Numeral.isEntry_of_isLiteral (h : n.isLiteral = true) : n.isEntry = true := by
  simp only [isLiteral, Bool.and_eq_true] at h
  obtain ⟨-, h⟩ := h
  unfold isEntry
  split at h <;> simp_all

theorem Numeral.entry?_of_literal? {cs : List Char} (h : literal? cs = some n) :
    entry? cs = some n := by
  obtain ⟨hr, hl⟩ := Option.filter_eq_some_iff.1 h
  exact Option.filter_eq_some_iff.2 ⟨hr, isEntry_of_isLiteral hl⟩

theorem Numeral.ne_empty_of_literal? (h : literal? text.toList = some n) : text ≠ "" := by
  rintro rfl
  have hnil : literal? "".toList = none := by decide
  rw [hnil] at h
  exact absurd h (by simp)

theorem parseNumber_of_literal? (h : Numeral.literal? text.toList = some n) :
    parseNumber text =
      if n.toDouble.isFinite then .ok n.toDouble else .error (.notFinite text) := by
  rw [parseNumber, Numeral.strip_of_literal? h]
  simp only [Numeral.entry?_of_literal? h]

theorem evaluate_of_literal? (h : Numeral.literal? text.toList = some n) :
    evaluate text = .ok n.toDouble := by
  have hne : text.toList ≠ [] := by simpa using Numeral.ne_empty_of_literal? h
  rw [evaluate, nestingLimit, evaluateWithin_succ, Numeral.strip_of_literal? h, Shape.ofTrimmed,
    if_neg hne, h]
  rfl

theorem evaluateFormula_of_literal? (h : Numeral.literal? text.toList = some n) :
    evaluateFormula text =
      if n.toDouble.isFinite then .ok n.toDouble else .error (.resultNotFinite text) := by
  rw [evaluateFormula, evaluate_of_literal? h]

end

theorem Double.literal?_text {x : Double} (hx : x.isFinite = true) :
    ∃ n, Numeral.literal? x.text.toList = some n ∧ n.toDouble = x := by
  obtain ⟨n, hl, hv⟩ := exists_numeral hx
  exact ⟨n, by rwa [text, String.toList_ofList], hv⟩

theorem parseNumber_text {x : Double} (hx : x.isFinite = true) : parseNumber x.text = .ok x := by
  obtain ⟨n, hl, rfl⟩ := Double.literal?_text hx
  rw [parseNumber_of_literal? hl, if_pos hx]

theorem evaluateFormula_text {x : Double} (hx : x.isFinite = true) :
    evaluateFormula x.text = .ok x := by
  obtain ⟨n, hl, rfl⟩ := Double.literal?_text hx
  rw [evaluateFormula_of_literal? hl, if_pos hx]

theorem Double.text_injective {x y : Double} (hx : x.isFinite = true) (hy : y.isFinite = true)
    (h : x.text = y.text) : x = y := by
  have hp := parseNumber_text hx
  rw [h, parseNumber_text hy] at hp
  exact (Except.ok.inj hp).symm

/-- A point or an exponent, which the text of a double has and that of an integer has not. -/
def marksDouble (c : Char) : Bool := c == '.' || c == 'e'

theorem Decimal.any_marksDouble (d : Decimal) : d.chars.any marksDouble = true := by
  unfold chars
  dsimp only
  split
  · unfold positionalChars
    split
    · simp [marksDouble]
    · dsimp only
      split <;> simp [marksDouble]
  · have hnil := digitsOf_ne_nil d.digits
    unfold scientificChars
    split
    · next h => exact absurd h hnil
    · simp [exponentChars, marksDouble]
    · simp [exponentChars, marksDouble]

theorem Double.any_marksDouble (x : Double) (hx : x.isFinite = true) :
    x.chars.any marksDouble = true := by
  obtain ⟨d, hd, -⟩ := exists_decimal hx
  rw [chars_eq hx, hd, List.any_append, d.any_marksDouble, Bool.or_true]

theorem any_marksDouble_intChars (n : Int) : (intChars n).any marksDouble = false := by
  have hd : (digitsOf n.natAbs).any marksDouble = false := by
    refine List.any_eq_false.2 fun c hc hm => ?_
    have hdigit := allDigits_digitsOf n.natAbs c hc
    obtain rfl | rfl : c = '.' ∨ c = 'e' := by simpa [marksDouble] using hm
    · exact absurd hdigit (by decide)
    · exact absurd hdigit (by decide)
  unfold intChars
  split
  · rw [List.any_cons, hd]
    rfl
  · exact hd

theorem intText?_ne_text {x : Double} (hx : x.isFinite = true) (n : Int) :
    intText? n ≠ some x.text := by
  unfold intText?
  split
  · intro h
    have hchars : intChars n = x.chars := String.ofList_injective (Option.some.inj h)
    have hmark := x.any_marksDouble hx
    rw [← hchars, any_marksDouble_intChars] at hmark
    exact Bool.false_ne_true hmark
  · exact Option.some_ne_none _ |>.symm

/-- Equal numbers that are written alike are the same, down to their kind and the sign of zero. -/
theorem Number.eq_of_text? {m n : Number} (hm : m.isFinite = true) (hn : n.isFinite = true)
    (hq : m.rational? = n.rational?) (ht : m.text? = n.text?) : m = n := by
  cases m with
  | int m =>
    cases n with
    | int n =>
      have h : (m : ℚ) = n := Option.some.inj hq
      rw [Int.cast_injective h]
    | double y => exact absurd ht (intText?_ne_text hn m)
  | double x =>
    cases n with
    | int n => exact absurd ht.symm (intText?_ne_text hm n)
    | double y => rw [Double.text_injective hm hn (Option.some.inj ht)]

end FormulaEntry
