import FormulaEntry.Proofs.Formula.Place
import Mathlib.Data.List.Induction

/-! The scan finds the operators of lowest priority among all those outside
brackets. The pass over the text keeps a running minimum and starts its list anew
when the minimum falls; `Tallies` says that at every moment this is the minimum of
the operators so far and those of them that have it. -/

namespace FormulaEntry

def lowestPriority (ms : List Match) : Nat :=
  ms.foldl (fun n m => min n m.operator.priority) Operator.unranked

def ofLowestPriority (ms : List Match) : List Match :=
  ms.filter fun m => m.operator.priority == lowestPriority ms

theorem lowestPriority_append_singleton (ms : List Match) (m : Match) :
    lowestPriority (ms ++ [m]) = min (lowestPriority ms) m.operator.priority := by
  simp [lowestPriority]

theorem lowestPriority_le {ms : List Match} {m : Match} (h : m ∈ ms) :
    lowestPriority ms ≤ m.operator.priority := by
  induction ms using List.reverseRecOn with
  | nil => cases h
  | append_singleton ms m' ih =>
    rw [lowestPriority_append_singleton]
    rcases List.mem_append.mp h with h | h
    · exact Nat.le_trans (Nat.min_le_left ..) (ih h)
    · rw [List.mem_singleton.mp h]
      exact Nat.min_le_right ..

theorem priority_lt_unranked (op : Operator) : op.priority < Operator.unranked := by
  cases op <;> decide

theorem exists_priority_eq_lowest {ms : List Match} (h : ms ≠ []) :
    ∃ m ∈ ms, m.operator.priority = lowestPriority ms := by
  induction ms using List.reverseRecOn with
  | nil => exact absurd rfl h
  | append_singleton ms m ih =>
    rw [lowestPriority_append_singleton]
    by_cases hm : m.operator.priority ≤ lowestPriority ms
    · exact ⟨m, by simp, (Nat.min_eq_right hm).symm⟩
    · have hne : ms ≠ [] := by
        rintro rfl
        exact hm (Nat.le_of_lt (priority_lt_unranked m.operator))
      obtain ⟨m', hm', he⟩ := ih hne
      exact ⟨m', List.mem_append_left _ hm', by omega⟩

theorem ofLowestPriority_eq_nil {ms : List Match} : ofLowestPriority ms = [] ↔ ms = [] := by
  constructor
  · intro h
    by_contra hne
    obtain ⟨m, hm, he⟩ := exists_priority_eq_lowest hne
    have hmem : m ∈ ofLowestPriority ms := List.mem_filter.mpr ⟨hm, by simpa using he⟩
    rw [h] at hmem
    cases hmem
  · rintro rfl
    rfl

namespace Scan

def numberState (s : Scan) : NumberState :=
  if s.afterExponentMark then .marked
  else if s.last.any NumberState.isNumeric then .numeric
  else .plain

def place (s : Scan) : Place := ⟨s.depth, s.leading, s.numberState⟩

def noted (s : Scan) : Option Operator → Scan
  | none => s
  | some op => s.record op

/-- What the pass has collected is what it should of the operators so far. -/
structure Tallies (s : Scan) (ms : List Match) : Prop where
  lowest : s.lowest = lowestPriority ms
  found : s.found.reverse = ofLowestPriority ms

theorem tallies_start : start.Tallies [] := ⟨rfl, rfl⟩

theorem afterExponentMark_eq (s : Scan) :
    s.afterExponentMark = ((s.last == some 'e' || s.last == some 'E') &&
      s.beforeLast.any NumberState.isNumeric) := rfl

/-- An exponent mark is itself no digit, so one mark cannot follow another. -/
theorem numberState_eq_numeric (s : Scan) :
    s.numberState = .numeric ↔ s.last.any NumberState.isNumeric = true := by
  unfold numberState
  split
  next h =>
    simp only [reduceCtorEq, false_iff]
    rw [afterExponentMark_eq, Bool.and_eq_true, Bool.or_eq_true, beq_iff_eq, beq_iff_eq] at h
    rcases h.1 with h | h <;> rw [h] <;> decide
  next => split <;> simp_all

theorem numberState_advance (s : Scan) (c : Char) :
    (s.advance c).numberState = s.numberState.next c := by
  unfold NumberState.next
  by_cases hc : NumberState.isNumeric c = true
  · rw [if_pos hc]
    exact (numberState_eq_numeric (s.advance c)).mpr hc
  · simp only [if_neg hc, numberState_eq_numeric]
    simp only [numberState, afterExponentMark_eq, advance, Option.any_some, hc]
    congr 1
    simp [and_comm]

theorem isExponentSign_iff (s : Scan) (op : Operator) :
    s.isExponentSign op = true ↔ (op = .add ∨ op = .sub) ∧ s.numberState = .marked := by
  unfold isExponentSign numberState
  cases s.afterExponentMark
  · simp only [Bool.and_false, Bool.false_eq_true, if_false, false_iff, not_and]
    intro _
    split <;> simp
  · simp

theorem operator?_place_eq_some (s : Scan) (c : Char) (op : Operator) :
    s.place.operator? c = some op ↔
      c = op.symbol ∧ s.depth = 0 ∧ ¬(c = '-' ∧ s.leading = true) ∧ ¬s.isExponentSign op := by
  rw [Place.operator?_eq_some, isExponentSign_iff]
  constructor
  · rintro ⟨rfl, hd, hl, he⟩
    refine ⟨rfl, hd, fun h => hl ⟨?_, h.2⟩, he⟩
    cases op <;> simp_all [Operator.symbol]
  · rintro ⟨rfl, hd, hl, he⟩
    exact ⟨rfl, hd, fun h => hl ⟨by rw [h.1]; rfl, h.2⟩, he⟩

theorem noted_advance (s : Scan) (o : Option Operator) (c : Char) :
    (s.noted o).advance c =
      { s.advance c with lowest := (s.noted o).lowest, found := (s.noted o).found } := by
  cases o with
  | none => rfl
  | some op =>
    simp only [noted, record, advance]
    split
    · rfl
    · split <;> rfl

def moved (s : Scan) (c : Char) : Scan :=
  { (s.noted (s.place.operator? c)).advance c with
    depth := (s.place.next c).depth
    leading := (s.place.next c).leading }

theorem step_eq (s : Scan) (c : Char) :
    s.step c = if c = ')' ∧ s.depth = 0 then .error .extraClosing else .ok (s.moved c) := by
  unfold step moved
  cases h : s.place.operator? c with
  | some op =>
    obtain ⟨rfl, hd, hl, he⟩ := (operator?_place_eq_some s c op).mp h
    have ho : op.symbol ≠ '(' := by cases op <;> decide
    have hc : op.symbol ≠ ')' := by cases op <;> decide
    have hf : Operator.ofChar? op.symbol = some op := Operator.ofChar?_eq_some_iff.mpr rfl
    have hb : Text.isBlank op.symbol = false := by cases op <;> decide
    have hn : (s.leading && op == .sub) = (s.leading && Text.isBlank op.symbol) := by
      cases op <;> simp_all [Operator.symbol]
    have hr : (s.record op).advance op.symbol =
        { s.advance op.symbol with
          lowest := (s.record op).lowest, found := (s.record op).found } :=
      noted_advance s (some op) op.symbol
    simp only [if_neg ho, hc, if_neg hl, hf, hd, he, false_and, if_false, noted_advance,
      Place.next_symbol, place, hn, hr]
    simp [noted, advance, hd]
  | none =>
    rw [noted_advance]
    simp only [noted, place, Place.next]
    by_cases ho : c = '('
    · subst ho
      simp [advance]
    by_cases hc : c = ')'
    · subst hc
      simp [advance]
    simp only [if_neg ho, hc, false_and, if_false]
    by_cases hl : c = '-' ∧ s.leading = true
    · simp [hl, advance]
    rw [if_neg hl]
    -- a symbol that is no operator here stands within brackets or is the sign of an exponent
    have hn : (s.leading && (Text.isBlank c || c == '-')) = (s.leading && Text.isBlank c) := by
      cases hs : s.leading <;> simp_all
    rw [hn]
    cases hf : Operator.ofChar? c with
    | none => rfl
    | some op =>
      have hx := Option.eq_none_iff_forall_ne_some.mp h op
      rw [ne_eq, operator?_place_eq_some] at hx
      have hx' : ¬(s.depth = 0 ∧ ¬s.isExponentSign op = true) := fun hh =>
        hx ⟨Operator.ofChar?_eq_some_iff.mp hf, hh.1, hl, hh.2⟩
      simp only [if_neg hx']
      rfl

theorem place_moved (s : Scan) (c : Char) : (s.moved c).place = s.place.next c := by
  have hn : (s.moved c).numberState = s.numberState.next c := by
    rw [← numberState_advance, moved, noted_advance]
    rfl
  rw [place, hn]
  rfl

theorem position_moved (s : Scan) (c : Char) : (s.moved c).position = s.position + 1 := by
  rw [moved, noted_advance]
  rfl

theorem Tallies.record {s : Scan} {ms : List Match} (h : s.Tallies ms) (op : Operator) :
    (s.record op).Tallies (ms ++ [⟨op, s.position⟩]) := by
  obtain ⟨hl, hf⟩ := h
  unfold Scan.record
  split
  next hlt =>
    have hm : lowestPriority (ms ++ [⟨op, s.position⟩]) = op.priority := by
      rw [lowestPriority_append_singleton]
      exact Nat.min_eq_right (hl ▸ Nat.le_of_lt hlt)
    refine ⟨hm.symm, ?_⟩
    -- the earlier operators all bind more tightly than the new one
    have he : ms.filter (fun m => m.operator.priority == op.priority) = [] := by
      refine List.filter_eq_nil_iff.mpr fun m hmem => ?_
      have := lowestPriority_le hmem
      simp only [beq_iff_eq]
      omega
    rw [ofLowestPriority, hm, List.filter_append, he]
    simp
  next hge =>
    have hm : lowestPriority (ms ++ [⟨op, s.position⟩]) = s.lowest := by
      rw [lowestPriority_append_singleton, ← hl]
      exact Nat.min_eq_left (Nat.le_of_not_lt hge)
    split
    next heq =>
      refine ⟨hm.symm, ?_⟩
      rw [ofLowestPriority, hm, List.filter_append, List.reverse_cons, hf, ofLowestPriority, ← hl]
      simp [heq]
    next hne =>
      refine ⟨hm.symm, ?_⟩
      rw [ofLowestPriority, hm, List.filter_append, hf, ofLowestPriority, ← hl]
      simp [hne]

theorem Tallies.moved {s : Scan} {ms : List Match} (h : s.Tallies ms) (c : Char) :
    (s.moved c).Tallies
      (ms ++ ((s.place.operator? c).map fun op => Match.mk op s.position).toList) := by
  have hn : (s.noted (s.place.operator? c)).Tallies
      (ms ++ ((s.place.operator? c).map fun op => Match.mk op s.position).toList) := by
    cases s.place.operator? c with
    | none => simpa [noted] using h
    | some op => exact h.record op
  rw [Scan.moved, noted_advance]
  exact ⟨hn.lowest, hn.found⟩

theorem foldlM_step {s : Scan} {ms : List Match} (h : s.Tallies ms) (text : List Char) :
    (s.place.Admits text → ∃ t, text.foldlM step s = .ok t ∧
      t.depth = (s.place.after text).depth ∧
      t.Tallies (ms ++ s.place.operators s.position text)) ∧
    (¬s.place.Admits text → text.foldlM step s = .error .extraClosing) := by
  induction text generalizing s ms with
  | nil => exact ⟨fun _ => ⟨s, rfl, rfl, by simpa using h⟩, fun hn => absurd trivial hn⟩
  | cons c cs ih =>
    simp only [List.foldlM_cons, step_eq, Place.admits_cons, Place.after_cons,
      Place.operators_cons]
    by_cases hc : c = ')' ∧ s.depth = 0
    · rw [if_pos hc]
      exact ⟨fun ha => absurd hc ha.1, fun _ => rfl⟩
    · rw [if_neg hc]
      have hm := ih (h.moved c)
      rw [place_moved, position_moved, List.append_assoc] at hm
      exact ⟨fun ha => hm.1 ha.2, fun hn => hm.2 fun ha => hn ⟨hc, ha⟩⟩

end Scan

theorem findOperators_eq (text : List Char) :
    findOperators text =
      if ¬Place.start.Admits text then .error .extraClosing
      else if (Place.start.after text).depth ≠ 0 then .error .extraOpening
      else .ok (ofLowestPriority (Place.start.operators 0 text)) := by
  obtain ⟨hok, herr⟩ := Scan.foldlM_step Scan.tallies_start text
  have hp : Scan.start.place = Place.start := rfl
  rw [hp] at hok herr
  unfold findOperators
  by_cases ha : Place.start.Admits text
  · obtain ⟨t, ht, hd, -, hf⟩ := hok ha
    have hf' : t.found.reverse = ofLowestPriority (Place.start.operators 0 text) := hf
    simp only [ht, bind, Except.bind, ha, not_true_eq_false, if_false, hd, hf', ite_not]
  · simp only [herr ha, bind, Except.bind, ha, not_false_eq_true, if_true]

/-- Every bracket of the text has its partner in the text. -/
def Paired (text : List Char) : Prop := Place.start.Admits text ∧ (Place.start.after text).depth = 0

theorem findOperators_eq_error_iff {text : List Char} {e : FormulaError} :
    findOperators text = .error e ↔
      ¬Place.start.Admits text ∧ e = .extraClosing ∨
        Place.start.Admits text ∧ (Place.start.after text).depth ≠ 0 ∧ e = .extraOpening := by
  rw [findOperators_eq]
  split
  · simp_all [eq_comm]
  · split
    · simp_all [eq_comm]
    · simp_all

theorem findOperators_eq_ok_iff {text : List Char} {ms : List Match} :
    findOperators text = .ok ms ↔
      Paired text ∧ ms = ofLowestPriority (Place.start.operators 0 text) := by
  rw [findOperators_eq, Paired]
  split
  · simp_all
  · split
    · simp_all
    · simp_all [eq_comm]

end FormulaEntry
