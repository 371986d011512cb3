import FormulaEntry.Proofs.Number.RoundTrip

/-! Numbers in fields and in formulas. A number field takes any decimal numeral, a formula none
with a plus sign in front or without a digit behind its point. Whatever number a field takes, a
formula takes it for the same number or refuses it; it is never read as something else. -/

namespace FormulaEntry

open Text (strip AllBlank)

namespace Numeral

variable {n : Numeral} {cs : List Char}

/-- The digits of the number with their point. -/
def mantissa (n : Numeral) : List Char := n.whole ++ n.pointed

theorem entry?_eq_some : entry? cs = some n ↔ IsEntry n cs := by
  unfold entry?
  rw [Option.filter_eq_some_iff, read?_eq_some_iff]
  constructor
  · rintro ⟨hs, he⟩
    exact ⟨hs, by simpa [isEntry] using he⟩
  · rintro ⟨hs, hd⟩
    exact ⟨hs, by simpa [isEntry] using hd⟩

theorem literal?_of_spells (h : n.Spells cs) :
    literal? cs = if n.isLiteral then some n else none := by
  rw [literal?, read?_eq_some_iff.mpr h]
  rfl

theorem mantissa_getLast? (h : IsEntry n cs) :
    n.mantissa.getLast? = some '.' ↔ n.point = true ∧ n.fraction = [] := by
  have hdigit {ds : List Char} (hd : AllDigits ds) : ds.getLast? ≠ some '.' := fun hl =>
    absurd (hd '.' (List.mem_of_getLast? hl)) (by decide)
  rw [mantissa, pointed]
  split
  next hp =>
    rw [List.append_cons]
    by_cases hf : n.fraction = []
    · simp [hp, hf]
    · rw [List.getLast?_append_of_ne_nil _ hf]
      simpa [hf] using hdigit h.spells.fraction
  next hp => simpa [hp] using hdigit h.spells.whole

theorem isLiteral_unsigned (h : n.sign ≠ .plus) : n.unsigned.isLiteral = n.isLiteral := by
  conv_rhs => rw [isLiteral, bne_iff_ne.mpr h]
  rfl

theorem isLiteral_iff (h : IsEntry n cs) :
    n.isLiteral = true ↔ n.sign ≠ .plus ∧ n.mantissa.getLast? ≠ some '.' := by
  rw [ne_eq (List.getLast? _), mantissa_getLast? h, isLiteral, Bool.and_eq_true, bne_iff_ne]
  refine and_congr_right fun _ => ?_
  cases hp : n.point with
  | true => simp
  | false => simpa using h.digits.resolve_right (not_not.mpr (h.spells.fraction_nil hp))

end Numeral

namespace IsEntry

variable {n : Numeral} {cs t : List Char}

theorem exists_unsigned (h : IsEntry n cs) :
    ∃ t, cs = n.sign.chars ++ t ∧ IsEntry n.unsigned t := by
  obtain ⟨⟨hw, hf, hnil, es, he, rfl⟩, hd⟩ := h
  exact ⟨_, rfl, ⟨hw, hf, hnil, es, he, rfl⟩, hd⟩

theorem ne_nil (h : IsEntry n cs) (hu : n.sign = .absent) : cs ≠ [] := by
  obtain ⟨c, t, rfl, -⟩ := h.exists_head hu
  exact List.cons_ne_nil c t

theorem head?_eq_plus (h : IsEntry n cs) : cs.head? = some '+' ↔ n.sign = .plus := by
  obtain ⟨t, rfl, ht⟩ := h.exists_unsigned
  cases hs : n.sign with
  | plus => simp [Sign.chars]
  | minus => simp [Sign.chars]
  | absent =>
    obtain ⟨c, t, rfl, hc⟩ := ht.exists_head rfl
    have hplus : c ≠ '+' := by
      rintro rfl
      exact absurd hc (by decide)
    simpa [Sign.chars] using hplus

theorem ofPlain (h : IsEntry n cs) (hu : n.sign = .absent) : Shape.ofPlain cs = .malformed cs := by
  obtain ⟨c, t, rfl, hc⟩ := h.exists_head hu
  unfold Shape.ofPlain
  split
  next heq =>
    obtain rfl := (List.cons.inj heq).1
    exact absurd hc (by decide)
  next heq =>
    obtain rfl := (List.cons.inj heq).1
    exact absurd hc (by decide)
  next => rfl

theorem ofTrimmed (h : IsEntry n cs) (hu : n.sign = .absent) (hl : n.isLiteral = false) :
    Shape.ofTrimmed cs = .ok (.malformed cs) := by
  have hlit : Numeral.literal? cs = none := by rw [Numeral.literal?_of_spells h.spells, hl]; rfl
  have hreads := (Place.passes_entry h hu .start).reads (by simp) 2
  rw [Shape.ofTrimmed_plain (h.ne_nil hu) hlit hreads, h.ofPlain hu]

theorem ofTrimmed_minus (h : IsEntry n t) (hu : n.sign = .absent) (hl : n.isLiteral = false) :
    Shape.ofTrimmed ('-' :: t) = .ok (.negated t) := by
  have hlit : Numeral.literal? ('-' :: t) = none := by
    have hl' : (n.signed .minus).isLiteral = false := by
      rw [← hl, ← Numeral.isLiteral_unsigned (n := n) (by simp [hu])]
      rfl
    refine (Numeral.literal?_of_spells (h.spells.signed hu .minus)).trans ?_
    rw [hl']
    rfl
  have hsign : Place.start.Passes ['-'] .start := .cons (by decide) rfl (.nil _)
  have hreads := hsign.reads_append rfl ((Place.passes_entry h hu .start).reads (by simp) 2)
  rw [Shape.ofTrimmed_plain (List.cons_ne_nil _ _) hlit hreads]
  obtain ⟨c, t, rfl⟩ := List.exists_cons_of_ne_nil (h.ne_nil hu)
  rfl

theorem ofTrimmed_plus (h : IsEntry n t) (hu : n.sign = .absent) :
    Shape.ofTrimmed ('+' :: t) = .ok (.chain [] [(.add, t)]) := by
  have hpass := Place.passes_entry h hu .resumed
  have hparted : Place.start.Parted (fun op => op.priority = 1) [] [(.add, t)] := by
    refine ⟨by simp, rfl, rfl, ?_⟩
    rw [Place.Parted, hpass.ops]
    simp
  have hplus : Place.start.next '+' = .resumed :=
    Place.next_of_operator? (show Place.start.operator? '+' = some .add from rfl)
  have hdiv : Divided 1 [] [(.add, t)] := by
    refine ⟨hparted, fun op _ => priority_pos op, ?_, ?_⟩
    · exact ⟨fun hh => absurd (show '+' = ')' from hh.1) (by decide), by
        simpa [Operator.symbol, hplus] using hpass.admits⟩
    · have : (Place.resumed.after t).depth = 0 := by rw [hpass.after]; rfl
      simpa [join, Operator.symbol, hplus] using this
  simpa [join, Operator.symbol] using Shape.ofTrimmed_join hdiv (List.cons_ne_nil _ _)

end IsEntry

/-! Derivations of trimmed numbers. -/

section

variable {n : Numeral} {cs t : List Char} {limit : Nat}

/-- A number that is no literal is malformed, and a plus sign lacks its operand. -/
def Numeral.refusal (n : Numeral) (cs : List Char) : FormulaError :=
  if n.sign = .plus then .missingOperand
  else .malformed (String.ofList (cs.drop n.sign.chars.length))

theorem IsEntry.evaluateWithin_unsigned (h : IsEntry n t) (hu : n.sign = .absent)
    (hl : n.isLiteral = false) (hs : strip t = t) :
    evaluateWithin (limit + 1) t = .error (.malformed (String.ofList t)) := by
  rw [evaluateWithin_succ, hs, h.ofTrimmed hu hl]
  rfl

theorem IsEntry.strip_unsigned (h : IsEntry n t) (hu : n.sign = .absent)
    (hs : strip ('-' :: t) = '-' :: t) : strip t = t := by
  obtain ⟨c, t', ht, hc⟩ := h.exists_head hu
  have hleft : Text.stripLeft t = t := by
    rw [ht]
    refine Text.stripLeft_cons ?_ t'
    rcases hc with hc | rfl
    · exact isBlank_of_isDigit hc
    · decide
  have hright := strip_negated (v := []) (s := t) (by simp [AllBlank])
  rw [List.nil_append, hs] at hright
  rw [strip, hleft]
  exact (List.cons.inj hright).2.symm

theorem IsEntry.evaluateWithin_refused (h : IsEntry n cs) (hl : n.isLiteral = false)
    (hs : strip cs = cs) : evaluateWithin (limit + 2) cs = .error (n.refusal cs) := by
  obtain ⟨t, he, ht⟩ := h.exists_unsigned
  unfold Numeral.refusal
  cases hsign : n.sign with
  | absent => exact h.evaluateWithin_unsigned hsign hl hs
  | plus =>
    obtain rfl : cs = '+' :: t := by rw [he, hsign]; rfl
    rw [evaluateWithin_succ, hs, ht.ofTrimmed_plus rfl]
    rfl
  | minus =>
    obtain rfl : cs = '-' :: t := by rw [he, hsign]; rfl
    have hl' : n.unsigned.isLiteral = false := by
      rw [Numeral.isLiteral_unsigned (by simp [hsign]), hl]
    have hinner : evaluateWithin (limit + 1) t = .error (.malformed (String.ofList t)) :=
      ht.evaluateWithin_unsigned rfl hl' (ht.strip_unsigned rfl hs)
    rw [evaluateWithin_succ, hs, ht.ofTrimmed_minus rfl hl']
    exact congrArg (fun e => e >>= fun x => pure x.neg) hinner

theorem IsEntry.evaluateWithin_literal (h : IsEntry n (strip cs)) (hl : n.isLiteral = true) :
    evaluateWithin (limit + 1) cs = .ok n.toDouble := by
  have hlit : Numeral.literal? (strip cs) = some n := by
    rw [Numeral.literal?_of_spells h.spells, if_pos hl]
  have hne : strip cs ≠ [] := by
    intro hnil
    rw [hnil, show Numeral.literal? [] = none from rfl] at hlit
    cases hlit
  rw [evaluateWithin_succ, Shape.ofTrimmed, if_neg hne, hlit]
  rfl

end

theorem parseNumber_eq_ok_iff (text : String) (x : Double) : parseNumber text = .ok x ↔
    ∃ n, IsEntry n (strip text.toList) ∧ n.toDouble = x ∧ x.isFinite = true := by
  simp only [parseNumber, ← Numeral.entry?_eq_some]
  cases Numeral.entry? (strip text.toList) with
  | none => simp
  | some n =>
    by_cases hf : n.toDouble.isFinite = true
    · simp only [if_pos hf, Except.ok.injEq, Option.some.injEq]
      constructor
      · rintro rfl
        exact ⟨n, rfl, rfl, hf⟩
      · rintro ⟨_, rfl, rfl, -⟩
        rfl
    · simp only [if_neg hf, reduceCtorEq, Option.some.injEq, false_iff]
      rintro ⟨_, rfl, rfl, hx⟩
      exact hf hx

theorem evaluateFormula_of_isEntry {text : String} {n : Numeral} (h : IsEntry n (strip text.toList))
    (hx : n.toDouble.isFinite = true) :
    evaluateFormula text =
      if n.isLiteral then .ok n.toDouble
      else .error (.formula (n.refusal (strip text.toList))) := by
  rw [evaluateFormula, evaluate, nestingLimit]
  cases hl : n.isLiteral with
  | true =>
    rw [h.evaluateWithin_literal hl]
    exact if_pos hx
  | false =>
    have hs := Text.strip_strip text.toList
    have hstrip : evaluateWithin 1000 text.toList = evaluateWithin 1000 (strip text.toList) := by
      rw [evaluateWithin_succ, evaluateWithin_succ, hs]
    rw [hstrip, h.evaluateWithin_refused hl hs]
    rfl

/-- A number field takes the finite numbers of the grammar. A formula takes each of them for the
same double, down to the sign of zero, unless it has a plus sign in front or a point at the end
of its mantissa, which a formula refuses. -/
theorem plain_numbers_agree (text : String) :
    (∀ x, parseNumber text = .ok x ↔
      ∃ n, IsEntry n (strip text.toList) ∧ n.toDouble = x ∧ x.isFinite = true) ∧
    ∀ n, IsEntry n (strip text.toList) → n.toDouble.isFinite = true →
      evaluateFormula text =
        if (strip text.toList).head? ≠ some '+' ∧ n.mantissa.getLast? ≠ some '.' then .ok n.toDouble
        else .error (.formula (n.refusal (strip text.toList))) := by
  refine ⟨parseNumber_eq_ok_iff text, fun n h hx => ?_⟩
  have hlit : n.isLiteral = true ↔
      (strip text.toList).head? ≠ some '+' ∧ n.mantissa.getLast? ≠ some '.' := by
    rw [Numeral.isLiteral_iff h, ne_eq (List.head? _), h.head?_eq_plus]
  rw [evaluateFormula_of_isEntry h hx, if_congr hlit rfl rfl]

/-- A plus sign lacks its operand; a minus sign is taken off before the number is refused. -/
example : evaluateFormula "+1e5" = .error (.formula .missingOperand) ∧
    evaluateFormula "-5." = .error (.formula (.malformed "5.")) := by
  decide +kernel

/-- Both read the sign of a zero with an exponent. -/
theorem negative_zero_agrees :
    IsEntry ⟨.minus, ['0'], false, [], 5⟩ (strip " -0e5".toList) ∧
      parseNumber " -0e5" = .ok (Double.ofMagnitude true 0) ∧
      evaluateFormula " -0e5" = .ok (Double.ofMagnitude true 0) := by
  have hentry : IsEntry ⟨.minus, ['0'], false, [], 5⟩ (strip " -0e5".toList) :=
    Numeral.entry?_eq_some.mp (by decide +kernel)
  have hzero : Numeral.toDouble ⟨.minus, ['0'], false, [], 5⟩ = Double.ofMagnitude true 0 := by
    decide +kernel
  have hfinite : (Double.ofMagnitude true 0).isFinite = true := by decide +kernel
  obtain ⟨hparse, hformula⟩ := plain_numbers_agree " -0e5"
  refine ⟨hentry, (hparse _).mpr ⟨_, hentry, hzero, hfinite⟩, ?_⟩
  rw [hformula _ hentry (hzero ▸ hfinite), if_pos (by decide +kernel), hzero]

end FormulaEntry
