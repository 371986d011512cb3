import FormulaEntry.Formula.Evaluate
import FormulaEntry.Proofs.Formula.Outline

/-! The limit on nesting. The value of a text is that of its shape, given those of its parts,
and the parts are shorter than the text. A limit above the length is therefore never
reached, and evaluations that do not reach their limits agree. Where the shapes come
from makes no difference to that, as long as their parts are shorter. -/

namespace FormulaEntry

/-- Evaluation of texts of which `shape` tells the shapes. -/
def evaluateVia (shape : List Char → Except FormulaError Shape) :
    Nat → List Char → Except FormulaError Double
  | 0, _ => .error .nestingTooDeep
  | limit + 1, text => do (← shape text).value (evaluateVia shape limit)

theorem evaluateVia_succ (shape : List Char → Except FormulaError Shape) (limit : Nat)
    (text : List Char) :
    evaluateVia shape (limit + 1) text = shape text >>= Shape.value (evaluateVia shape limit) := rfl

theorem evaluateVia_of (limit : Nat) : evaluateVia Shape.of limit = evaluateWithin limit := by
  induction limit with
  | zero => rfl
  | succ limit ih =>
    funext text
    rw [evaluateVia, evaluateWithin, ih]

namespace Shape

/-- The texts that the value of the shape depends on. -/
def parts : Shape → List (List Char)
  | chain first rest => first :: rest.map Prod.snd
  | negated inner | bracketed inner => [inner]
  | blank | literal _ | malformed _ => []

variable {part q : List Char → Except FormulaError Double}

/-- What holds between the outcomes for each part, and is kept when outcomes are bound
together, holds between the values. -/
theorem value_related {R : Except FormulaError Double → Except FormulaError Double → Prop}
    (hrefl : ∀ e, e ≠ .error .nestingTooDeep → R e e)
    (hbind : ∀ e e' (f f' : Double → Except FormulaError Double), R e e' → (∀ a, R (f a) (f' a)) →
      R (e >>= f) (e' >>= f'))
    (s : Shape) (h : ∀ text ∈ s.parts, R (part text) (q text)) :
    R (s.value part) (s.value q) := by
  have hpure (a : Double) : R (pure a) (pure a) := hrefl _ (by simp [pure, Except.pure])
  cases s with
  | blank => exact hrefl _ (by simp [value])
  | literal n => exact hpure n.toDouble
  | chain first rest =>
    refine hbind _ _ _ _ (h first (by simp [parts])) fun a => ?_
    have hrest : ∀ r ∈ rest, R (part r.2) (q r.2) := fun r hr =>
      h r.2 (by simpa [parts] using .inr ⟨r.1, hr⟩)
    clear h
    induction rest generalizing a with
    | nil => exact hpure a
    | cons r rest ih =>
      rw [List.foldlM_cons, List.foldlM_cons]
      refine hbind _ _ _ _ (hbind _ _ _ _ (hrest r (by simp)) fun x => hpure _) fun b => ?_
      exact ih b fun r' hr' => hrest r' (List.mem_cons_of_mem _ hr')
  | negated inner => exact hbind _ _ _ _ (h inner (by simp [parts])) fun x => hpure _
  | bracketed inner => exact h inner (by simp [parts])
  | malformed text => exact hrefl _ (by simp [value])

theorem value_congr (s : Shape) (h : ∀ text ∈ s.parts, part text = q text) :
    s.value part = s.value q :=
  value_related (fun _ _ => rfl) (fun _ _ _ _ he hf => by rw [he, funext hf]) s h

end Shape

theorem evaluateVia_of_le {shape : List Char → Except FormulaError Shape} {n m : Nat} (hnm : n ≤ m)
    {text : List Char} (h : evaluateVia shape n text ≠ .error .nestingTooDeep) :
    evaluateVia shape m text = evaluateVia shape n text := by
  induction n generalizing m text with
  | zero => exact absurd rfl h
  | succ n ih =>
    obtain ⟨m, rfl⟩ : ∃ m', m = m' + 1 := ⟨m - 1, by omega⟩
    rw [evaluateVia_succ] at h ⊢
    rw [evaluateVia_succ]
    cases hs : shape text with
    | error e => rfl
    | ok s =>
      rw [hs] at h
      refine Shape.value_related (R := fun e e' => e ≠ .error .nestingTooDeep → e' = e)
        (fun _ _ _ => rfl) (fun e e' f f' he hf hb => ?_) s
        (fun t _ => ih (Nat.le_of_succ_le_succ hnm)) h
      -- of two outcomes bound together neither was cut short
      have hne : e ≠ .error .nestingTooDeep := by
        rintro rfl
        exact hb rfl
      rw [he hne]
      cases e with
      | error d => rfl
      | ok a => exact hf a hb

theorem evaluateVia_agree {shape : List Char → Except FormulaError Shape} {n m : Nat}
    {text : List Char} (hn : evaluateVia shape n text ≠ .error .nestingTooDeep)
    (hm : evaluateVia shape m text ≠ .error .nestingTooDeep) :
    evaluateVia shape n text = evaluateVia shape m text := by
  rcases Nat.le_total n m with h | h
  · exact (evaluateVia_of_le h hn).symm
  · exact evaluateVia_of_le h hm

namespace Shape

/-- The parts of every shape are shorter than the text that has it. -/
structure Shrinks (shape : List Char → Except FormulaError Shape) : Prop where
  length_lt : ∀ {text s}, shape text = .ok s → ∀ part ∈ s.parts, part.length < text.length
  not_nested : ∀ text, shape text ≠ .error .nestingTooDeep

end Shape

theorem evaluateVia_not_nested {shape : List Char → Except FormulaError Shape}
    (hs : Shape.Shrinks shape) {limit : Nat} {text : List Char} (h : text.length < limit) :
    evaluateVia shape limit text ≠ .error .nestingTooDeep := by
  induction limit generalizing text with
  | zero => exact absurd h (Nat.not_lt_zero _)
  | succ limit ih =>
    rw [evaluateVia_succ]
    cases hsh : shape text with
    | error e =>
      intro he
      obtain rfl : e = .nestingTooDeep := Except.error.inj he
      exact hs.not_nested text hsh
    | ok s =>
      have hparts : ∀ t ∈ s.parts, evaluateVia shape limit t ≠ .error .nestingTooDeep := by
        intro t ht
        have := hs.length_lt hsh t ht
        exact ih (by omega)
      refine Shape.value_related (R := fun e _ => e ≠ .error .nestingTooDeep) (fun _ he => he)
        (fun e _ f _ he hf => ?_) s (q := evaluateVia shape limit) hparts
      cases e with
      | error d => exact he
      | ok a => exact hf a

/-! Both ways to tell shapes cut a text at operators or take characters off its ends. -/

theorem length_le_of_mem_join {first u : List Char} {rest : List (Operator × List Char)}
    (h : u ∈ first :: rest.map Prod.snd) : u.length ≤ (join first rest).length := by
  induction rest generalizing first with
  | nil => simp_all [join]
  | cons r rest ih =>
    rw [join_cons, List.length_append, List.length_cons]
    rcases List.mem_cons.mp h with rfl | h
    · omega
    · have : u.length ≤ (join r.2 rest).length := ih h
      omega

namespace Shape

theorem length_lt_of_mem_chain {first u : List Char} {rest : List (Operator × List Char)}
    (hne : rest ≠ []) (h : u ∈ (chain first rest).parts) : u.length < (join first rest).length := by
  obtain ⟨r, rest, rfl⟩ := List.exists_cons_of_ne_nil hne
  rw [join_cons, List.length_append, List.length_cons]
  rcases List.mem_cons.mp h with rfl | h
  · omega
  · have : u.length ≤ (join r.2 rest).length := length_le_of_mem_join h
    omega

theorem length_lt_of_mem_ofPlain {t u : List Char} (h : u ∈ (ofPlain t).parts) :
    u.length < t.length := by
  unfold ofPlain at h
  split at h
  · obtain rfl := List.mem_singleton.mp h
    simp
  · split at h
    · obtain rfl := List.mem_singleton.mp h
      rw [List.length_dropLast, List.length_cons]
      omega
    · exact absurd h List.not_mem_nil
  · exact absurd h List.not_mem_nil

theorem shrinks_of : Shrinks Shape.of where
  length_lt {text s} h part hp := by
    refine Nat.lt_of_lt_of_le ?_ (Text.length_strip_le text)
    have hout := outline_of_ofTrimmed h
    revert hout
    generalize Text.strip text = t
    intro hout
    cases hout with
    | blank => exact absurd hp List.not_mem_nil
    | literal => exact absurd hp List.not_mem_nil
    | chain k hne => exact length_lt_of_mem_chain hne hp
    | plain => exact length_lt_of_mem_ofPlain hp
  not_nested text h := by
    rcases findOperators_eq_error_iff.mp (ofTrimmed_eq_error_iff.mp h) with ⟨-, h⟩ | ⟨-, -, h⟩
    · exact absurd h (by simp)
    · exact absurd h (by simp)

end Shape

end FormulaEntry
