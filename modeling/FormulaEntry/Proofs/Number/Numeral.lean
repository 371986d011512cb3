import FormulaEntry.Number.Numeral
import Mathlib.Data.List.TakeDrop

/-! Which texts are numerals. `Numeral.read?` takes a text apart from the left;
`Numeral.Spells` puts one together from the numeral's parts, and the two agree. -/

namespace FormulaEntry

def AllDigits (cs : List Char) : Prop := ∀ c ∈ cs, c.isDigit = true

def Sign.chars : Sign → List Char
  | .absent => []
  | .plus => ['+']
  | .minus => ['-']

def Sign.apply (n : Nat) : Sign → Int
  | .minus => -(n : Int)
  | _ => n

/-- `([eE][-+]?[0-9]+)?`, with the exponent it stands for. -/
inductive IsExponent : List Char → Int → Prop
  | absent : IsExponent [] 0
  | marked (mark : Char) (sign : Sign) (ds : List Char) (hm : mark = 'e' ∨ mark = 'E')
      (hne : ds ≠ []) (hd : AllDigits ds) :
      IsExponent (mark :: (sign.chars ++ ds)) (sign.apply (ofDigits ds))

namespace Numeral

def pointed (n : Numeral) : List Char := if n.point then '.' :: n.fraction else []

structure Spells (n : Numeral) (cs : List Char) : Prop where
  whole : AllDigits n.whole
  fraction : AllDigits n.fraction
  fraction_nil : n.point = false → n.fraction = []
  parts : ∃ es, IsExponent es n.exponent ∧ cs = n.sign.chars ++ (n.whole ++ (n.pointed ++ es))

end Numeral

theorem span_digits {ds cs : List Char} (hd : AllDigits ds)
    (hc : ∀ c ∈ cs.head?, c.isDigit = false) : (ds ++ cs).span Char.isDigit = (ds, cs) := by
  rw [List.span_eq_takeWhile_dropWhile, List.takeWhile_append_of_pos hd,
    List.dropWhile_append_of_pos hd]
  cases cs with
  | nil => simp
  | cons c cs =>
    have : c.isDigit = false := hc c (by simp)
    simp [this]

theorem splitSign_chars (sign : Sign) {cs : List Char} (hc : ∀ c ∈ cs.head?, c ≠ '+' ∧ c ≠ '-') :
    splitSign (sign.chars ++ cs) = (sign, cs) := by
  cases sign with
  | plus => rfl
  | minus => rfl
  | absent =>
    cases cs with
    | nil => rfl
    | cons c cs =>
      obtain ⟨hp, hm⟩ := hc c (by simp)
      simp only [Sign.chars, List.nil_append]
      unfold splitSign
      split <;> simp_all

theorem chars_splitSign (cs : List Char) : (splitSign cs).1.chars ++ (splitSign cs).2 = cs := by
  unfold splitSign
  split <;> rfl

theorem chars_splitPoint (cs : List Char) :
    (if (splitPoint cs).1 then ['.'] else []) ++ (splitPoint cs).2 = cs := by
  unfold splitPoint
  split <;> rfl

theorem isDigit_head_ne {cs : List Char} (h : AllDigits cs) :
    ∀ c ∈ cs.head?, c ≠ '+' ∧ c ≠ '-' := by
  intro c hc
  have hd := h c (List.mem_of_mem_head? hc)
  constructor <;> rintro rfl <;> revert hd <;> decide

theorem readExponent?_eq_some_iff {cs : List Char} {k : Int} :
    readExponent? cs = some k ↔ IsExponent cs k := by
  constructor
  · intro h
    cases cs with
    | nil =>
      obtain rfl : 0 = k := by simpa [readExponent?] using h
      exact .absent
    | cons c cs =>
      simp only [readExponent?] at h
      split at h
      next hm =>
        split at h
        next hd =>
          obtain rfl := Option.some.inj h
          have he := IsExponent.marked c (splitSign cs).1 (splitSign cs).2 hm hd.1
            (List.all_eq_true.mp hd.2)
          rw [chars_splitSign] at he
          cases hs : (splitSign cs).1 <;> simpa [hs, Sign.apply] using he
        next => cases h
      next => cases h
  · rintro (_ | ⟨mark, sign, ds, hm, hne, hd⟩)
    · rfl
    · have hall : ds.all Char.isDigit = true := List.all_eq_true.mpr hd
      simp only [readExponent?, if_pos hm, splitSign_chars sign (isDigit_head_ne hd)]
      cases sign <;> simp [hne, hall, Sign.apply]

theorem IsExponent.head_ne {es : List Char} {k : Int} (h : IsExponent es k) :
    ∀ c ∈ es.head?, c.isDigit = false ∧ c ≠ '.' ∧ c ≠ '+' ∧ c ≠ '-' := by
  cases h with
  | absent => simp
  | marked mark sign ds hm =>
    intro c hc
    obtain rfl : mark = c := by simpa using hc
    rcases hm with rfl | rfl <;> decide

namespace Numeral

theorem spells_of_read? {cs : List Char} {n : Numeral} (h : read? cs = some n) : n.Spells cs := by
  simp only [read?, List.span_eq_takeWhile_dropWhile] at h
  obtain ⟨exponent, he, rfl⟩ := Option.map_eq_some_iff.mp h
  have hd (l : List Char) : AllDigits (l.takeWhile Char.isDigit) := fun c hc =>
    List.all_eq_true.mp List.all_takeWhile c hc
  have hcs : (splitSign cs).1.chars ++ ((splitSign cs).2.takeWhile Char.isDigit ++
      (splitSign cs).2.dropWhile Char.isDigit) = cs := by
    rw [List.takeWhile_append_dropWhile, chars_splitSign]
  rw [← chars_splitPoint ((splitSign cs).2.dropWhile Char.isDigit)] at hcs
  revert he hcs
  generalize splitPoint ((splitSign cs).2.dropWhile Char.isDigit) = pv
  obtain ⟨point, v⟩ := pv
  intro he hcs
  cases point with
  | true =>
    refine ⟨hd _, hd _, by simp, _, readExponent?_eq_some_iff.mp he, ?_⟩
    simpa [pointed] using hcs.symm
  | false =>
    refine ⟨hd _, by simp [AllDigits], by simp, _, readExponent?_eq_some_iff.mp he, ?_⟩
    simpa [pointed] using hcs.symm

theorem read?_of_spells {cs : List Char} {n : Numeral} (h : n.Spells cs) : read? cs = some n := by
  obtain ⟨hw, hf, hnil, es, he, rfl⟩ := h
  obtain ⟨sign, whole, point, fraction, exponent⟩ := n
  have hes : ∀ c ∈ es.head?, c.isDigit = false := fun c hc => (he.head_ne c hc).1
  have htail : ∀ c ∈ ((pointed ⟨sign, whole, point, fraction, exponent⟩) ++ es).head?,
      c.isDigit = false ∧ c ≠ '+' ∧ c ≠ '-' := by
    intro c hc
    cases point with
    | true =>
      obtain rfl : '.' = c := by simpa [pointed] using hc
      decide
    | false =>
      have := he.head_ne c (by simpa [pointed] using hc)
      exact ⟨this.1, this.2.2⟩
  have hsign : ∀ c ∈ (whole ++ (pointed ⟨sign, whole, point, fraction, exponent⟩ ++ es)).head?,
      c ≠ '+' ∧ c ≠ '-' := by
    intro c hc
    cases whole with
    | nil => exact (htail c hc).2
    | cons d ds => exact isDigit_head_ne hw c hc
  simp only [read?, splitSign_chars sign hsign, span_digits hw fun c hc => (htail c hc).1]
  cases point with
  | true =>
    simp [pointed, splitPoint, span_digits hf hes, readExponent?_eq_some_iff.mpr he,
      -List.span_eq_takeWhile_dropWhile]
  | false =>
    have hp : splitPoint es = (false, es) := by
      unfold splitPoint
      split
      next cs => exact absurd rfl (he.head_ne '.' (by simp)).2.1
      next => rfl
    obtain rfl : fraction = [] := hnil rfl
    simp [pointed, hp, readExponent?_eq_some_iff.mpr he]

theorem read?_eq_some_iff {cs : List Char} {n : Numeral} : read? cs = some n ↔ n.Spells cs :=
  ⟨spells_of_read?, read?_of_spells⟩

end Numeral
end FormulaEntry
