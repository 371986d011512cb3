import FormulaEntry.Formula.Evaluate
import FormulaEntry.Proofs.Formula.Outline

/-! How evaluation fails: by the text, or because it is nested too deep. Every operator that the
scan finds is known by its symbol, and dividing by zero gives a number that is not finite. -/

namespace FormulaEntry

/-- The text itself is at fault. -/
def FormulaError.OfText (e : FormulaError) : Prop := ∀ symbol, e ≠ .unsupportedOperator symbol

variable {e : FormulaError}

theorem ofText_of_findOperators {text : List Char} (h : findOperators text = .error e) :
    e.OfText := by
  intro symbol
  rintro rfl
  rcases findOperators_eq_error_iff.1 h with ⟨-, h⟩ | ⟨-, -, h⟩
  · exact absurd h (by simp)
  · exact absurd h (by simp)

namespace Shape

variable {part : List Char → Except FormulaError Double}

theorem ofText_of_foldlM (hp : ∀ text e, part text = .error e → e.OfText)
    (rest : List (Operator × List Char)) (a : Double)
    (h : rest.foldlM (fun acc r => return r.1.apply acc (← part r.2)) a = .error e) : e.OfText := by
  induction rest generalizing a with
  | nil => exact absurd h (by simp [pure, Except.pure])
  | cons r rest ih =>
    rw [List.foldlM_cons] at h
    rcases bind_eq_error.1 h with h | ⟨b, -, h⟩
    · rcases bind_eq_error.1 h with h | ⟨x, -, h⟩
      · exact hp _ _ h
      · exact absurd h (by simp [pure, Except.pure])
    · exact ih b h

theorem ofText_of_value (hp : ∀ text e, part text = .error e → e.OfText) (s : Shape)
    (h : s.value part = .error e) : e.OfText := by
  rcases s with _ | n | ⟨first, rest⟩ | inner | inner | text
  · intro symbol
    rintro rfl
    exact absurd h (by simp [value])
  · exact absurd h (by simp [value])
  · rcases bind_eq_error.1 h with h | ⟨a, -, h⟩
    · exact hp _ _ h
    · exact ofText_of_foldlM hp rest a h
  · rcases bind_eq_error.1 h with h | ⟨x, -, h⟩
    · exact hp _ _ h
    · exact absurd h (by simp [pure, Except.pure])
  · exact hp _ _ h
  · intro symbol
    rintro rfl
    exact absurd h (by simp [value])

end Shape

theorem ofText_of_evaluateWithin (limit : Nat) (text : List Char) (e : FormulaError)
    (h : evaluateWithin limit text = .error e) : e.OfText := by
  induction limit generalizing text e with
  | zero =>
    intro symbol
    rintro rfl
    exact absurd h (by simp [evaluateWithin])
  | succ limit ih =>
    rcases bind_eq_error.1 h with h | ⟨s, -, h⟩
    · exact ofText_of_findOperators (Shape.ofTrimmed_eq_error_iff.1 h)
    · exact s.ofText_of_value ih h

theorem evaluate_outcome (formula : String) :
    (∃ x, evaluate formula = .ok x) ∨ evaluate formula = .error .missingOperand ∨
      evaluate formula = .error .extraClosing ∨ evaluate formula = .error .extraOpening ∨
      (∃ text, evaluate formula = .error (.malformed text)) ∨
        evaluate formula = .error .nestingTooDeep := by
  rcases h : evaluate formula with e | x
  · have htext := ofText_of_evaluateWithin _ _ e h
    rcases e with _ | _ | _ | symbol | text | _
    · simp
    · simp
    · simp
    · exact absurd rfl (htext symbol)
    · simp
    · simp
  · simp

theorem Place.getElem?_position {p : Place} {i : Nat} {text : List Char} {m : Match}
    (h : m ∈ p.operators i text) :
    i ≤ m.position ∧ text[m.position - i]? = some m.operator.symbol := by
  induction text generalizing p i with
  | nil => exact absurd h List.not_mem_nil
  | cons c cs ih =>
    rw [operators_cons] at h
    rcases List.mem_append.1 h with h | h
    · rw [Option.mem_toList, Option.map_eq_some_iff] at h
      obtain ⟨op, hop, rfl⟩ := h
      refine ⟨Nat.le_refl i, ?_⟩
      simp [(operator?_eq_some.1 hop).1]
    · obtain ⟨hle, hget⟩ := ih h
      refine ⟨by omega, ?_⟩
      have hstep : m.position - i = m.position - (i + 1) + 1 := by omega
      rw [hstep, List.getElem?_cons_succ]
      exact hget

theorem getElem?_of_findOperators {text : List Char} {ms : List Match} {m : Match}
    (h : findOperators text = .ok ms) (hm : m ∈ ms) :
    text[m.position]? = some m.operator.symbol := by
  obtain ⟨-, rfl⟩ := findOperators_eq_ok_iff.1 h
  exact (Place.getElem?_position (List.mem_filter.1 hm).1).2

namespace Operator

theorem applySymbol_symbol (op : Operator) (x y : Double) :
    applySymbol (String.singleton op.symbol) x y = .ok (op.apply x y) := by
  have hop : ofChar? op.symbol = some op := ofChar?_eq_some_iff.2 rfl
  rw [applySymbol, String.toList_singleton]
  simp only [hop]

theorem div_zero_not_finite (x : Double) {y : Double} (hy : y.isZero = true) :
    (div.apply x y).isFinite = false := by
  rw [apply, Double.div, if_pos hy]
  split
  · decide
  · cases x.isNegative != y.isNegative <;> decide

end Operator

end FormulaEntry
