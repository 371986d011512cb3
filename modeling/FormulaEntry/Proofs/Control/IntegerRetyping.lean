import FormulaEntry.Proofs.Control.Retyping
import FormulaEntry.Proofs.Number.Integer

/-! Assigning an integer and then its text. The integer is kept exactly, whatever its size, but
texts are read as doubles: what its own text gives is a nearest double, or nothing where that
would be infinite. -/

namespace FormulaEntry

variable {κ σ : Type}

theorem ControlKind.derive_of_literal? (kind : ControlKind) {text : String} {n : Numeral}
    (h : Numeral.literal? text.toList = some n) :
    if n.toDouble.isFinite then kind.derivation.derive text = .ok (some (.double n.toDouble))
    else ∃ e, kind.derivation.derive text = .error e ∧ e.isContent = true := by
  have hnumber := parseNumber_of_literal? h
  have hformula := evaluateFormula_of_literal? h
  split
  · next hx =>
    rw [if_pos hx] at hnumber hformula
    cases kind with
    | plain | numeric => exact Derivation.derive_ofDouble hnumber
    | calculator => exact Derivation.derive_ofDouble hformula
  · next hx =>
    rw [if_neg hx] at hnumber hformula
    cases kind with
    | plain | numeric => exact ⟨_, congrArg (Except.map _) hnumber, rfl⟩
    | calculator => exact ⟨_, congrArg (Except.map _) hformula, rfl⟩

namespace Content

def intText (n : Int) : String := String.ofList (intChars n)

def ofInt (n : Int) : Content := ⟨.number (.int n), intText n, true⟩

def ofIntText (n : Int) : Content :=
  if (Double.ofInt n).isFinite then ⟨.number (.double (.ofInt n)), intText n, true⟩
  else invalid (intText n)

theorem ofNumber_int {n : Int} (hn : n.natAbs < Nat.pow 10 maxIntDigits) :
    ofNumber (.int n) = .ok (ofInt n, none) := by
  have ht : Number.text? (.int n) = some (intText n) := by
    rw [Number.text?, intText?, if_pos hn]
    rfl
  simp only [ofNumber, ht, orTooLong, Option.elim_some, bind, Except.bind]
  rfl

/-- The text of an integer is kept, whether or not it can be read back. -/
theorem ofEdit_intText (kind : ControlKind) (n : Int) :
    ∃ remark, ofEdit kind.derivation (.text (.text (intText n))) = .ok (ofIntText n, remark) := by
  obtain ⟨m, hl, hm⟩ := literal?_intChars n
  rw [← String.toList_ofList (l := intChars n)] at hl
  have hderive := kind.derive_of_literal? hl
  have hne : intText n ≠ "" := Numeral.ne_empty_of_literal? hl
  rw [hm] at hderive
  rw [ofEdit, ofText, if_neg hne, ofIntText, intText]
  by_cases hx : (Double.ofInt n).isFinite = true
  · rw [if_pos hx] at hderive
    rw [if_pos hx, hderive]
    exact ⟨none, rfl⟩
  · rw [if_neg hx] at hderive
    obtain ⟨e, he, hcontent⟩ := hderive
    rw [if_neg hx, he]
    exact ⟨some (.notDerived (intText n) e), if_pos hcontent⟩

variable (n : Int)

@[simp] theorem text_ofIntText : (ofIntText n).text = intText n := by
  unfold ofIntText
  split <;> rfl

theorem isValid_ofIntText_iff : (ofIntText n).isValid = true ↔ n.natAbs < Double.overflow := by
  rw [← Double.isFinite_ofInt_iff, ofIntText]
  split <;> simp [invalid, *]

variable {n}

theorem ofIntText_of_isValid (h : (ofIntText n).isValid = true) :
    (ofIntText n).value = .number (.double (.ofInt n)) ∧ (Double.ofInt n).IsNearest n := by
  rw [isValid_ofIntText_iff, ← Double.isFinite_ofInt_iff] at h
  exact ⟨by rw [ofIntText, if_pos h], Double.ofInt_isNearest h⟩

theorem ofIntText_of_not_isValid (h : (ofIntText n).isValid = false) :
    (ofIntText n).value = .undetermined := by
  unfold ofIntText at h ⊢
  split at h
  · exact absurd h (by simp)
  · next hx => rw [if_neg hx]; rfl

/-- An integer comes back from its text if any double is that integer. -/
theorem ofIntText_same_iff :
    ((ofIntText n).get .value).Same (.number (.int n)) ↔
      ∃ x : Double, x.rational? = some (n : ℚ) := by
  by_cases hx : (Double.ofInt n).isFinite = true
  · have hvalue : (ofIntText n).get .value = .number (.double (.ofInt n)) := by
      rw [get, ofIntText, if_pos hx]
      rfl
    rw [hvalue, Datum.same_number_iff (m := .double (.ofInt n)) hx]
    exact (Double.ofInt_isNearest hx).exact_iff
  · have hvalue : (ofIntText n).get .value = .undetermined := by
      rw [get, ofIntText, if_neg hx]
      rfl
    rw [hvalue]
    constructor
    · intro hsame
      exact absurd hsame (by simp [Datum.Same])
    · rintro ⟨x, hn⟩
      exact absurd (Double.isFinite_ofInt_of_rational? hn) hx

end Content

namespace Control

variable [DecidableEq κ] {audience : Audience κ σ (Step (ControlAction κ))}
    {w w' : World (Control κ) κ σ}
variable {content : Content} {remark : Option Remark}

theorem content_of_edit (h : ∀ k payload, (audience.react k payload).All fun s => ¬ s.Edits)
    (depth : Nat) {edit : Edit} (ha : w.state.alive = true)
    (hd : Content.ofEdit w.state.derivation edit = .ok (content, remark))
    (hw' : (step audience depth (.act (.edit edit))).final w = w') (ha' : w'.state.alive = true) :
    w'.state.derivation = w.state.derivation ∧ w'.state.content = content := by
  obtain ⟨r, hr, hstep⟩ := exists_unedited_responder h depth
  have hstored : ((w.remarked .whole remark).stored .whole edit content).Unedited w' := by
    rw [← hw', hstep]
    exact (Run.final_bind_pure _ _ _).symm ▸ remarked_stored_unedited hr ha hd
  obtain ⟨-, hd', hc'⟩ := hstored ha'
  refine ⟨hd'.trans ?_, hc'⟩
  change (w.remarked .whole remark).state.derivation = _
  rw [World.state_remarked]

theorem step_retype (depth : Nat) (ha : w.state.alive = true) :
    step audience depth (.act .retype) w =
      step audience depth (.act (.edit (.text (.text w.state.content.text)))) w := by
  obtain ⟨r, hstep⟩ := exists_performing_responder audience depth
  rw [hstep, hstep]
  exact Run.bind_of_ok (text_of_alive (p := .whole) ha)

/-- An integer that is assigned to a control is held exactly. Assigning its text then leaves the
control with that text, valid unless doubles overflow, and with a nearest double. That is the
same number just in case any double is. -/
theorem integer_text_restores_nearest (kind : ControlKind)
    (h : ∀ k payload, (audience.react k payload).All fun s => ¬ s.Edits) (depth : Nat)
    {n : Int} (hn : n.natAbs < Nat.pow 10 maxIntDigits) {w w₁ w₂ : World (Control κ) κ σ}
    (hkind : w.state.derivation = kind.derivation) (ha : w.state.alive = true)
    (hw₁ : (step audience depth (.act (.edit (.value (.number (.int n)))))).final w = w₁)
    (hw₂ : (step audience depth (.act .retype)).final w₁ = w₂) (ha₂ : w₂.state.alive = true) :
    w₁.state.content = ⟨.number (.int n), String.ofList (intChars n), true⟩ ∧
    w₂.state.content.text = String.ofList (intChars n) ∧
    (w₂.state.content.isValid = true ↔ n.natAbs < Double.overflow) ∧
    (w₂.state.content.isValid = true →
      ∃ x : Double, w₂.state.content.value = .number (.double x) ∧ x.IsNearest n) ∧
    (w₂.state.content.isValid = false → w₂.state.content.value = .undetermined) ∧
    ((w₂.state.content.get .value).Same (w₁.state.content.get .value) ↔
      ∃ x : Double, x.rational? = some (n : ℚ)) := by
  have ha₁ : w₁.state.alive = true := alive_of_step (hw₂ ▸ ha₂)
  have hassigned :
      Content.ofEdit w.state.derivation (.value (.number (.int n))) = .ok (.ofInt n, none) := by
    rw [Content.ofEdit, Content.ofNumber_int hn]
  obtain ⟨hd₁, hc₁⟩ := content_of_edit h depth ha hassigned hw₁ ha₁
  have htext : w₁.state.content.text = Content.intText n := by rw [hc₁]; rfl
  obtain ⟨remark, hmade⟩ := Content.ofEdit_intText kind n
  rw [← hkind, ← hd₁] at hmade
  rw [Run.final, step_retype depth ha₁, htext] at hw₂
  obtain ⟨-, hc₂⟩ := content_of_edit h depth ha₁ hmade hw₂ ha₂
  rw [hc₁, hc₂]
  refine ⟨rfl, Content.text_ofIntText n, Content.isValid_ofIntText_iff n, ?_,
    Content.ofIntText_of_not_isValid, Content.ofIntText_same_iff⟩
  intro hvalid
  exact ⟨_, Content.ofIntText_of_isValid hvalid⟩

def halfway : Int := 9007199254740993

theorem halfway_length : halfway.natAbs < Nat.pow 10 maxIntDigits := by
  obtain ⟨k, hk⟩ : ∃ k, k = maxIntDigits := ⟨_, rfl⟩
  have hle : 16 ≤ k := hk ▸ (by decide)
  rw [← hk]
  exact Nat.lt_of_lt_of_le (by decide : halfway.natAbs < 10 ^ 16)
    (Nat.pow_le_pow_right (by decide) hle)

theorem halfway_text_kept :
    let assigned := (step noting 1 (.act (.edit (.value (.number (.int halfway)))))).final watched
    let retyped := (step noting 1 (.act .retype)).final assigned
    assigned.state.content = ⟨.number (.int halfway), String.ofList (intChars halfway), true⟩ ∧
      retyped.state.content.text = String.ofList (intChars halfway) ∧
      ∃ x : Double, retyped.state.content.value = .number (.double x) ∧ x.IsNearest halfway := by
  intro assigned retyped
  have hnoting : ∀ k payload, (noting.react k payload).All fun s => ¬ s.Edits :=
    fun _ _ => ⟨id, fun _ => trivial⟩
  have halive : retyped.state.alive = true := by decide +kernel
  have hassigned :
      (step noting 1 (.act (.edit (.value (.number (.int halfway)))))).final watched = assigned :=
    rfl
  have hretyped : (step noting 1 (.act .retype)).final assigned = retyped := rfl
  obtain ⟨hc, ht, hvalid, hnear, -⟩ :=
    integer_text_restores_nearest .numeric hnoting 1 halfway_length rfl rfl hassigned hretyped
      halive
  exact ⟨hc, ht, hnear (hvalid.2 (by decide +kernel))⟩

/-- The neighbour below is what comes back. -/
theorem halfway_not_restored :
    let assigned := (step noting 1 (.act (.edit (.value (.number (.int halfway)))))).final watched
    let retyped := (step noting 1 (.act .retype)).final assigned
    retyped.state.alive = true ∧
      retyped.state.content.value = .number (.double ⟨0x4340000000000000⟩) ∧
      ¬ (retyped.state.content.get .value).Same (assigned.state.content.get .value) := by
  intro assigned retyped
  have hassigned : assigned.state.content.value = .number (.int halfway) := by decide +kernel
  have hretyped : retyped.state.content.value = .number (.double ⟨0x4340000000000000⟩) := by
    decide +kernel
  refine ⟨by decide +kernel, hretyped, ?_⟩
  rw [Content.get, Content.get, hassigned, hretyped]
  intro hsame
  have hfinite : (Number.double ⟨0x4340000000000000⟩).isFinite = true := by decide +kernel
  have hequals := (Number.equals_iff hfinite rfl).2 ((Datum.same_number_iff hfinite).1 hsame)
  exact absurd hequals (by decide +kernel)

end Control

end FormulaEntry
