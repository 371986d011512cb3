import FormulaEntry.Proofs.Control.Session
import FormulaEntry.Proofs.Number.RoundTrip

/-! Assigning a number and then its text. The text that a finite double is given is read
back as that double, so the second assignment finds everything as it is. Subscribers that
make no edits of their own have no part in this. -/

namespace FormulaEntry

variable {κ σ : Type}

theorem Derivation.derive_ofDouble {label : String} {f : String → Except Fault Double}
    {text : String} {x : Double} (h : f text = .ok x) :
    (ofDouble label f).derive text = .ok (some (.double x)) :=
  congrArg (Except.map _) h

namespace Content

def ofDouble (x : Double) : Content := ⟨.number (.double x), x.text, true⟩

variable {x : Double}

theorem coherent_ofDouble (hx : x.isFinite = true) : (ofDouble x).Coherent :=
  coherent_number x.text_ne_empty hx

theorem ofNumber_double (hx : x.isFinite = true) :
    ofNumber (.double x) = .ok (ofDouble x, none) := by
  have ht : Number.text? (.double x) = some x.text := rfl
  simp only [ofNumber, ht, orTooLong, Option.elim_some, bind, Except.bind]
  rw [if_pos hx]
  rfl

theorem derive_text (hx : x.isFinite = true) (kind : ControlKind) :
    kind.derivation.derive x.text = .ok (some (.double x)) := by
  cases kind with
  | plain => exact Derivation.derive_ofDouble (parseNumber_text hx)
  | numeric => exact Derivation.derive_ofDouble (parseNumber_text hx)
  | calculator => exact Derivation.derive_ofDouble (evaluateFormula_text hx)

theorem ofEdit_text_double (hx : x.isFinite = true) (kind : ControlKind) :
    ofEdit kind.derivation (.text (.text x.text)) = .ok (ofDouble x, none) := by
  simp only [ofEdit, ofText, if_neg x.text_ne_empty, derive_text hx]
  rfl

end Content

/-- The steps that assign something to a control. -/
def Step.Edits : Step (ControlAction κ) → Prop
  | act (.edit _) | act .retype => True
  | _ => False

def World.Unedited (w w' : World (Control κ) κ σ) : Prop :=
  w'.state.alive = true →
    w.state.alive = true ∧ w'.state.derivation = w.state.derivation ∧
    w'.state.content = w.state.content

instance : IsPreorder (World (Control κ) κ σ) World.Unedited where
  refl _ ha := ⟨ha, rfl, rfl⟩
  trans _ _ _ h₁ h₂ ha := by
    obtain ⟨ha₂, hd₂, hc₂⟩ := h₂ ha
    obtain ⟨ha₁, hd₁, hc₁⟩ := h₁ ha₂
    exact ⟨ha₁, hd₂.trans hd₁, hc₂.trans hc₁⟩

theorem World.Unedited.of_state {w w' : World (Control κ) κ σ} (h : w'.state = w.state) :
    w.Unedited w' :=
  fun ha => by rw [h] at ha ⊢; exact ⟨ha, rfl, rfl⟩

namespace Control

variable {r : Responder (Control κ) κ σ κ}

theorem trigger_unedited (hr : r.Respects World.Unedited) (f : Field) (payload : Datum) :
    (Channel.trigger (Channel.of f) r payload).Respects World.Unedited :=
  Channel.trigger_respects (fun _ _ => .of_state rfl) hr payload

theorem destroy_unedited :
    (destroy .whole : Run (Control κ) κ σ PUnit).Respects World.Unedited := by
  intro w
  cases ha : w.state.alive with
  | false =>
    rw [Run.final_of_error (destroy_of_not_alive (p := .whole) ha)]
    exact .of_state rfl
  | true =>
    obtain ⟨record, h⟩ := destroy_of_alive (q := .whole) ha
    rw [Run.final_of_ok h]
    exact fun ha' => absurd ha' Bool.false_ne_true

variable [DecidableEq κ]

theorem perform_unedited (r : Responder (Control κ) κ σ κ) (hr : r.Respects World.Unedited)
    (a : ControlAction κ) (ha : ¬ Step.Edits (.act a)) :
    (a.perform .whole r).Respects World.Unedited := by
  refine ControlAction.perform_respects (fun f b _ => ?_) (fun e he => absurd ?_ ha)
    destroy_unedited fun _ _ _ _ => .of_state rfl
  · refine ChannelAction.perform_respects (fun w a _ _ => ?_) fun payload _ =>
      trigger_unedited hr f payload
    cases f <;> exact fun h => ⟨h, rfl, rfl⟩
  · obtain rfl | rfl := he <;> trivial

theorem exists_unedited_responder {audience : Audience κ σ (Step (ControlAction κ))}
    (h : ∀ k payload, (audience.react k payload).All fun s => ¬ s.Edits) (depth : Nat) :
    ∃ r : Responder (Control κ) κ σ κ, r.Respects World.Unedited ∧
      step audience depth = Step.perform (fun r a => a.perform .whole r) r :=
  Step.exists_responder (fun _ _ => .of_state rfl) (fun _ => .of_state rfl) perform_unedited h depth

omit [DecidableEq κ] in
theorem update_of_same {w : World (Control κ) κ σ} {edit : Edit} {content : Content}
    (ha : w.state.alive = true) (hw : w.state.content = content) (hc : content.Coherent)
    (hd : Content.ofEdit w.state.derivation edit = .ok (content, none)) :
    update .whole r edit w = .ok ⟨⟩ (w.stored .whole edit content) := by
  subst hw
  rw [update_of_ok (p := .whole) ha hd]
  change emitAll .whole r _ (w.state.content.changes w.state.content) _ = _
  rw [Content.changes_self hc]
  rfl

omit [DecidableEq κ] in
theorem remarked_stored_unedited (hr : r.Respects World.Unedited) {w : World (Control κ) κ σ}
    {edit : Edit} {content : Content} {remark : Option Remark} (ha : w.state.alive = true)
    (hd : Content.ofEdit w.state.derivation edit = .ok (content, remark)) :
    ((w.remarked .whole remark).stored .whole edit content).Unedited
      ((update .whole r edit).final w) := by
  rw [Run.final, update_of_ok (p := .whole) ha hd]
  exact emitAll_respects (p := .whole) (trigger_unedited hr) content _ _

omit [DecidableEq κ] in
theorem stored_unedited (hr : r.Respects World.Unedited) {w : World (Control κ) κ σ} {edit : Edit}
    {content : Content} (ha : w.state.alive = true)
    (hd : Content.ofEdit w.state.derivation edit = .ok (content, none)) :
    (w.stored .whole edit content).Unedited ((update .whole r edit).final w) :=
  remarked_stored_unedited hr ha hd

/-- A control that has been assigned a finite double holds it with its text, from which
number fields and formulas read it back. Assigning that text changes nothing and announces
nothing. -/
theorem number_text_restores_number (kind : ControlKind)
    {audience : Audience κ σ (Step (ControlAction κ))}
    (h : ∀ k payload, (audience.react k payload).All fun s => ¬ s.Edits) (depth : Nat) {x : Double}
    (hx : x.isFinite = true) {w w₁ : World (Control κ) κ σ}
    (hkind : w.state.derivation = kind.derivation) (ha : w.state.alive = true)
    (hw₁ : (step audience depth (.act (.edit (.value (.number (.double x)))))).final w = w₁) :
    parseNumber x.text = .ok x ∧ evaluateFormula x.text = .ok x ∧
    (w₁.state.alive = true → w₁.state.content = ⟨.number (.double x), x.text, true⟩ ∧
      step audience depth (.act .retype) w₁ =
        .ok .none (w₁.stored .whole (.text (.text x.text)) w₁.state.content)) := by
  obtain ⟨r, hr, hstep⟩ := exists_unedited_responder h depth
  refine ⟨parseNumber_text hx, evaluateFormula_text hx, fun ha₁ => ?_⟩
  have hassigned : (w.stored .whole (.value (.number (.double x))) (.ofDouble x)).Unedited w₁ := by
    rw [← hw₁, hstep]
    exact (Run.final_bind_pure _ _ _).symm ▸ stored_unedited hr ha (Content.ofNumber_double hx)
  obtain ⟨-, hd₁, hc₁⟩ := hassigned ha₁
  change w₁.state.content = .ofDouble x at hc₁
  have hretype :
      Content.ofEdit w₁.state.derivation (.text (.text x.text)) = .ok (.ofDouble x, none) := by
    rw [hd₁]
    exact hkind ▸ Content.ofEdit_text_double hx kind
  have htext : text .whole w₁ = .ok x.text w₁ := by
    rw [text_of_alive (p := .whole) ha₁]
    exact congrArg (fun c : Content => EStateM.Result.ok c.text w₁) hc₁
  have hupdate := update_of_same (r := r) ha₁ hc₁ (Content.coherent_ofDouble hx) hretype
  refine ⟨hc₁, ?_⟩
  rw [hstep, hc₁]
  exact (Run.bind_of_ok htext).trans (Run.bind_of_ok hupdate)

def noting : Audience Unit Unit (Step (ControlAction Unit)) where
  label _ := "noting"
  react _ _ := .step .note fun _ => .done false

def watched : World (Control Unit) Unit Unit :=
  ⟨.create "n" ControlKind.numeric.derivation fun | .value => [()] | _ => [], (), []⟩

theorem negative_zero_restored :
    let assigned :=
      (step noting 1 (.act (.edit (.value (.number (.double (.zero true))))))).final watched
    assigned.state.content = ⟨.number (.double (.zero true)), (Double.zero true).text, true⟩ ∧
      step noting 1 (.act .retype) assigned =
        .ok .none (assigned.stored .whole (.text (.text (Double.zero true).text))
          assigned.state.content) := by
  have hnoting : ∀ k payload, (noting.react k payload).All fun s => ¬ s.Edits :=
    fun _ _ => ⟨id, fun _ => trivial⟩
  exact (number_text_restores_number .numeric hnoting 1 (x := .zero true) (by decide)
    (w := watched) rfl rfl rfl).2.2 (by decide +kernel)

end Control

end FormulaEntry
