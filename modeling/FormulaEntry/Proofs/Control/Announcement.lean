import FormulaEntry.Proofs.Control.Latest

/-! Every commit is announced in full. Channels end with their control unless somebody
ends one on its own; where nobody does, no announcement is cut short, and the trace of
a session is nothing but commits, each with its announcements around all that they
provoked. -/

namespace FormulaEntry

variable {κ σ : Type}

namespace Event

variable {S : Type}

def isEnding : Event S κ → Bool
  | altered _ .ended => true
  | _ => false

def isDestruction : Event S κ → Bool
  | destroyed _ => true
  | _ => false

end Event

/-- Three channels end with each destroyed control, and no other channel. -/
def EndTogether {S : Type} (history : List (Event S κ)) : Prop :=
  history.countP Event.isEnding = 3 * history.countP Event.isDestruction

def Control.Intact (c : Control κ) : Prop := c.alive = true → ∀ f, c.subscribers f ≠ none

theorem Control.Intact.altered {c : Control κ} (hc : c.Intact) {f : Field} {ks : Option (List κ)}
    (hk : c.subscribers f ≠ none → ks ≠ none) : (c.withSubscribers f ks).Intact := by
  intro ha g
  rw [alive_withSubscribers] at ha
  rw [subscribers_withSubscribers]
  split
  · exact hk (hc ha f)
  · exact hc ha g

theorem Control.intact_create (name : String) (d : Derivation) (subscribers : Field → List κ) :
    (create name d subscribers).Intact := by
  intro _ f
  cases f <;> exact Option.some_ne_none _

variable [DecidableEq κ]

namespace Trace

variable {byHand : Prop} {ph : Phase κ} {c c' : Control κ} {es : List (Event (Control κ) κ)}

theorem endings_ge (t : Trace True byHand ph c c' es) :
    3 * es.countP Event.isDestruction ≤ es.countP Event.isEnding := by
  induction t with
  | seq _ _ ih₁ ih₂ => simp only [List.countP_append]; omega
  | altered _ => simp [Event.isDestruction]
  | destroyed _ => simp [Event.isDestruction, Event.isEnding, List.countP_cons]
  | triggered _ _ ih => exact ih
  | commit _ _ _ ih => simpa [Event.isDestruction, Event.isEnding] using ih
  | announce _ _ _ ih₁ ih₂ => simp only [List.countP_append]; omega
  | dispatched _ _ ih => simpa [Event.isDestruction, Event.isEnding] using ih
  | call _ _ ih₁ ih₂ =>
    simp only [List.cons_append, List.countP_cons, List.countP_append, Event.isDestruction,
      Event.isEnding, Bool.false_eq_true, if_false]
    omega
  | idle | logged | noted | announced | dropped | broken | delivered => simp [Event.isDestruction]

variable {ph₁ ph₂ : Phase κ} {c₁ c₂ : Control κ} {es₁ es₂ : List (Event (Control κ) κ)}

theorem endTogether_append (t₁ : Trace True byHand ph₁ c c₁ es₁)
    (t₂ : Trace True byHand ph₂ c₁ c₂ es₂) (h : EndTogether (es₁ ++ es₂)) :
    EndTogether es₁ ∧ EndTogether es₂ := by
  have h₁ := t₁.endings_ge
  have h₂ := t₂.endings_ge
  unfold EndTogether at h ⊢
  rw [List.countP_append, List.countP_append] at h
  omega

theorem intact_append {P₁ P₂ : Prop} (t₁ : Trace True byHand ph₁ c c₁ es₁)
    (t₂ : Trace True byHand ph₂ c₁ c₂ es₂) (hc : c.Intact) (h : EndTogether (es₁ ++ es₂))
    (h₁ : c.Intact → EndTogether es₁ → P₁ ∧ c₁.Intact)
    (h₂ : c₁.Intact → EndTogether es₂ → P₂ ∧ c₂.Intact) : P₁ ∧ P₂ ∧ c₂.Intact := by
  obtain ⟨he₁, he₂⟩ := endTogether_append t₁ t₂ h
  obtain ⟨hp₁, hc₁⟩ := h₁ hc he₁
  exact ⟨hp₁, h₂ hc₁ he₂⟩

/-- Without endings of single channels, nothing of the trace needs their licence. -/
theorem strict (t : Trace True byHand ph c c' es) (hc : c.Intact) (he : EndTogether es) :
    Trace False byHand ph c c' es ∧ c'.Intact := by
  induction t with
  | idle => exact ⟨.idle _, hc⟩
  | logged => exact ⟨.logged _ _, hc⟩
  | noted => exact ⟨.noted _, hc⟩
  | announced => exact ⟨.announced _ _, hc⟩
  | dropped ha => exact ⟨.dropped ha, hc⟩
  | broken _ ha hs => exact absurd hs (hc ha _)
  | delivered => exact ⟨.delivered _ _ _, hc⟩
  | seq t₁ t₂ ih₁ ih₂ =>
    obtain ⟨t₁, t₂, hc'⟩ := intact_append t₁ t₂ hc he ih₁ ih₂
    exact ⟨t₁.seq t₂, hc'⟩
  | @altered c f a h =>
    cases a with
    | ended => simp [EndTogether, Event.isEnding, Event.isDestruction] at he
    | added k => exact ⟨.altered h, hc.altered (by simp [Alteration.apply])⟩
    | removed k => exact ⟨.altered h, hc.altered (by simp [Alteration.apply])⟩
  | destroyed ha => exact ⟨.destroyed ha, fun h => absurd h (by simp)⟩
  | triggered hb _ ih =>
    obtain ⟨t, hc'⟩ := ih hc he
    exact ⟨.triggered hb t, hc'⟩
  | commit ha hd _ ih =>
    obtain ⟨t, hc'⟩ := ih (by simpa [Control.Intact] using hc)
      (by simpa [EndTogether, Event.isDestruction, Event.isEnding] using he)
    exact ⟨.commit ha hd t, hc'⟩
  | announce ha t₁ t₂ ih₁ ih₂ =>
    obtain ⟨t₁, t₂, hc'⟩ := intact_append t₁ t₂ hc he ih₁ ih₂
    exact ⟨.announce ha t₁ t₂, hc'⟩
  | dispatched hs _ ih =>
    obtain ⟨t, hc'⟩ := ih hc (by simpa [EndTogether, Event.isDestruction, Event.isEnding] using he)
    exact ⟨.dispatched hs t, hc'⟩
  | @call c _ _ f payload k _ es₁ es₂ t₁ t₂ ih₁ ih₂ =>
    have he' : EndTogether (es₁ ++ es₂) := by
      simpa [EndTogether, Event.isDestruction, Event.isEnding] using he
    obtain ⟨t₁, t₂, hc'⟩ := intact_append t₁ t₂ hc he' ih₁ ih₂
    exact ⟨t₁.call t₂, hc'⟩

end Trace

/-- A control whose first subscriber destroys it as soon as its value changes. -/
def abandoned : Session Bool Unit where
  name := ""
  subscribers
    | .value => [true, false]
    | .text => [false]
    | .isValid => []
  audience := {
    label := fun k => if k then "destroying" else "watching"
    react := fun k _ => .steps false (if k then [.act .destroy] else []) }
  depth := 1
  memory := ()
  user := .steps false [.act (.edit (.text (.text "x")))]

end FormulaEntry
