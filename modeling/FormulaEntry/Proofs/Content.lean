import FormulaEntry.Control
import FormulaEntry.Proofs.Number.Rational
import FormulaEntry.Proofs.Number.Text

/-! The contents that edits of the usual controls make are coherent: validity, value and
text agree with one another, whichever of them the edit was about. -/

namespace FormulaEntry

/-- A derivation whose values are finite doubles. -/
def Derivation.GivesFinite (d : Derivation) : Prop :=
  ∀ text v, d.derive text = .ok v → ∃ x : Double, x.isFinite = true ∧ v = some (.double x)

theorem Derivation.ofDouble_givesFinite {label : String} {f : String → Except Fault Double}
    (hf : ∀ text x, f text = .ok x → x.isFinite = true) : (ofDouble label f).GivesFinite := by
  intro text v h
  change (f text).map _ = _ at h
  cases hx : f text with
  | error e => rw [hx] at h; exact absurd h (by simp [Except.map])
  | ok x =>
    rw [hx] at h
    exact ⟨x, hf text x hx, (Except.ok.inj h).symm⟩

theorem parseNumber_finite {text : String} {x : Double} (h : parseNumber text = .ok x) :
    x.isFinite = true := by
  unfold parseNumber at h
  dsimp only at h
  split at h
  · split at h
    · next hx => rwa [← Except.ok.inj h]
    · exact absurd h (by simp)
  · exact absurd h (by simp)

theorem evaluateFormula_finite {text : String} {x : Double} (h : evaluateFormula text = .ok x) :
    x.isFinite = true := by
  unfold evaluateFormula at h
  split at h
  · split at h
    · next hx => rwa [← Except.ok.inj h]
    · exact absurd h (by simp)
  · exact absurd h (by simp)

theorem parseNumber_isContent {text : String} {e : Fault} (h : parseNumber text = .error e) :
    e.isContent = true := by
  unfold parseNumber at h
  dsimp only at h
  split at h
  · split at h
    · exact absurd h (by simp)
    · rw [← Except.error.inj h]
      rfl
  · rw [← Except.error.inj h]
    split <;> rfl

theorem evaluateFormula_isContent {text : String} {e : Fault}
    (h : evaluateFormula text = .error e) : e.isContent = true := by
  unfold evaluateFormula at h
  split at h
  · split at h
    · exact absurd h (by simp)
    · rw [← Except.error.inj h]
      rfl
  · rw [← Except.error.inj h]
    rfl

/-- A derivation that finds fault with nothing but the text. -/
def Derivation.FaultsContent (d : Derivation) : Prop :=
  ∀ text e, d.derive text = .error e → e.isContent = true

theorem Derivation.ofDouble_faultsContent {label : String} {f : String → Except Fault Double}
    (hf : ∀ text e, f text = .error e → e.isContent = true) : (ofDouble label f).FaultsContent := by
  intro text e h
  change (f text).map _ = _ at h
  cases hx : f text with
  | error e' =>
    rw [hx] at h
    exact Except.error.inj h ▸ hf text e' hx
  | ok x => rw [hx] at h; exact absurd h (by simp [Except.map])

theorem ControlKind.faultsContent (kind : ControlKind) : kind.derivation.FaultsContent := by
  cases kind with
  | plain => exact Derivation.ofDouble_faultsContent fun _ _ => parseNumber_isContent
  | numeric => exact Derivation.ofDouble_faultsContent fun _ _ => parseNumber_isContent
  | calculator => exact Derivation.ofDouble_faultsContent fun _ _ => evaluateFormula_isContent

theorem ControlKind.givesFinite (kind : ControlKind) : kind.derivation.GivesFinite := by
  cases kind with
  | plain => exact Derivation.ofDouble_givesFinite fun _ _ => parseNumber_finite
  | numeric => exact Derivation.ofDouble_givesFinite fun _ _ => parseNumber_finite
  | calculator => exact Derivation.ofDouble_givesFinite fun _ _ => evaluateFormula_finite

namespace Content

structure Coherent (c : Content) : Prop where
  undetermined_iff : c.value = .undetermined ↔ c.isValid = false
  empty_iff : c.value = .empty ↔ c.text = ""
  finite : ∀ n, c.value = .number n → n.isFinite = true

theorem coherent_initial : initial.Coherent where
  undetermined_iff := by simp [initial]
  empty_iff := by simp [initial]
  finite _ h := absurd h (by simp [initial])

theorem coherent_invalid {text : String} (ht : text ≠ "") : (invalid text).Coherent where
  undetermined_iff := by simp [invalid]
  empty_iff := by simp [invalid, ht]
  finite _ h := absurd h (by simp [invalid])

theorem coherent_number {n : Number} {text : String} (ht : text ≠ "") (hn : n.isFinite = true) :
    Coherent ⟨.number n, text, true⟩ where
  undetermined_iff := by simp
  empty_iff := by simp [ht]
  finite _ h := by rwa [← Value.number.inj h]

/-- What an edit can make of a content. -/
inductive Made : Content → Prop
  | empty : Made initial
  | invalid {text : String} : text ≠ "" → Made (invalid text)
  | number {n : Number} {text : String} :
      text ≠ "" → n.isFinite = true → n.text?.isSome = true → Made ⟨.number n, text, true⟩

theorem Made.coherent {c : Content} (hc : c.Made) : c.Coherent := by
  cases hc with
  | empty => exact coherent_initial
  | invalid ht => exact coherent_invalid ht
  | number ht hn _ => exact coherent_number ht hn

theorem Made.hasResult {c : Content} (hc : c.Made) : c.resultText?.isSome = true := by
  cases hc with
  | empty => rfl
  | invalid => rfl
  | number _ _ ht => exact ht

variable {d : Derivation} {c : Content} {remark : Option Remark}

theorem made_ofText (hd : d.GivesFinite) {text : String} (h : ofText d text = .ok (c, remark)) :
    c.Made := by
  unfold ofText at h
  split at h
  · obtain ⟨rfl, -⟩ := Prod.mk.inj (Except.ok.inj h)
    exact .empty
  · next ht =>
    split at h
    · next v hv =>
      obtain ⟨x, hx, rfl⟩ := hd _ _ hv
      obtain ⟨rfl, -⟩ := Prod.mk.inj (Except.ok.inj h)
      exact .number ht hx rfl
    · split at h
      · obtain ⟨rfl, -⟩ := Prod.mk.inj (Except.ok.inj h)
        exact .invalid ht
      · exact absurd h (by simp)

theorem made_ofNumber {n : Number} (h : ofNumber n = .ok (c, remark)) : c.Made := by
  cases ht : n.text? with
  | none => simp [ofNumber, ht, orTooLong, bind, Except.bind] at h
  | some text =>
    have hne := Number.ne_empty_of_text? ht
    have hsome : n.text?.isSome = true := by rw [ht]; rfl
    simp only [ofNumber, ht, orTooLong, Option.elim_some, bind, Except.bind] at h
    split at h
    · obtain ⟨rfl, -⟩ := Prod.mk.inj (Except.ok.inj h)
      exact .number hne rfl hsome
    · split at h
      · next hx =>
        obtain ⟨rfl, -⟩ := Prod.mk.inj (Except.ok.inj h)
        exact .number hne hx hsome
      · obtain ⟨rfl, -⟩ := Prod.mk.inj (Except.ok.inj h)
        exact .invalid hne

theorem made_ofEdit (hd : d.GivesFinite) {e : Edit} (h : ofEdit d e = .ok (c, remark)) :
    c.Made := by
  unfold ofEdit at h
  split at h
  · exact made_ofText hd h
  · exact absurd h (by simp)
  · obtain ⟨rfl, -⟩ := Prod.mk.inj (Except.ok.inj h)
    exact .empty
  · exact made_ofNumber h
  · exact absurd h (by simp)
  · next thing =>
    cases hs : orTooLong thing.shown? with
    | ok s => rw [hs] at h; exact absurd h (by simp [bind, Except.bind])
    | error e => rw [hs] at h; exact absurd h (by simp [bind, Except.bind])

theorem coherent_ofEdit (hd : d.GivesFinite) {e : Edit} (h : ofEdit d e = .ok (c, remark)) :
    c.Coherent :=
  (made_ofEdit hd h).coherent

theorem exists_ofText (hd : d.FaultsContent) (text : String) :
    ∃ c remark, ofText d text = .ok (c, remark) ∧ c.text = text := by
  unfold ofText
  split
  · next h => exact ⟨_, _, rfl, h.symm⟩
  · split
    · exact ⟨_, _, rfl, rfl⟩
    · next e he =>
      rw [if_pos (hd text e he)]
      exact ⟨_, _, rfl, rfl⟩

theorem value_differs_iff {v w : Value} (hv : ∀ n, v = .number n → n.isFinite = true)
    (hw : ∀ n, w = .number n → n.isFinite = true) :
    v.differs w = true ↔ ¬ v.toDatum.Same w.toDatum := by
  cases v with
  | number m =>
    cases w with
    | number n =>
      rw [Value.differs, Number.differs_iff (hv m rfl) (hw n rfl), Value.toDatum, Value.toDatum,
        Datum.same_number_iff (hv m rfl)]
    | _ => simp [Value.differs, Value.toDatum, Datum.Same]
  | _ => cases w <;> simp [Value.differs, Value.toDatum, Datum.Same]

theorem differsAt_iff {old new : Content} (ho : old.Coherent) (hn : new.Coherent) (f : Field) :
    old.differsAt new f = true ↔ ¬ (old.get f).Same (new.get f) := by
  cases f with
  | value => exact value_differs_iff ho.finite hn.finite
  | text => simp [differsAt, get, Datum.Same]
  | isValid => simp [differsAt, get, Datum.Same]

/-- The fields to be announced are those that have become another datum. -/
theorem mem_changes_iff {old new : Content} (ho : old.Coherent) (hn : new.Coherent) (f : Field) :
    f ∈ old.changes new ↔ ¬ (old.get f).Same (new.get f) := by
  have hall : f ∈ Field.all := by cases f <;> decide
  rw [changes, List.mem_filter, differsAt_iff ho hn]
  exact and_iff_right hall

theorem Coherent.same_self {c : Content} (hc : c.Coherent) (f : Field) :
    (c.get f).Same (c.get f) := by
  cases f with
  | text | isValid => rfl
  | value =>
    change c.value.toDatum.Same c.value.toDatum
    cases hv : c.value with
    | number n => exact (Datum.same_number_iff (hc.finite n hv)).2 rfl
    | _ => rfl

theorem changes_self {c : Content} (hc : c.Coherent) : c.changes c = [] :=
  List.eq_nil_iff_forall_not_mem.2 fun f hf => (mem_changes_iff hc hc f).1 hf (hc.same_self f)

end Content

end FormulaEntry
