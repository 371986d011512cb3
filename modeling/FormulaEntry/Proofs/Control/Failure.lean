import FormulaEntry.Proofs.Control.Session
import FormulaEntry.Proofs.Formula.Outline

/-! Edits that fail. An edit fails before it has changed anything, unless it comes upon a
channel that was ended although the control is alive. By then it is stored. What goes wrong
with subscribers is their own affair: no edit fails by it, and nobody is left out for it. -/

namespace FormulaEntry

variable {κ σ : Type}

theorem orTooLong_eq_error {text? : Option String} {e : Fault} (h : orTooLong text? = .error e) :
    e = .intTooLong := by
  rcases text? with _ | text
  · exact (Except.error.inj h).symm
  · exact absurd h (by simp [orTooLong])

namespace Content

variable {d : Derivation} {e : Fault}

theorem ofText_eq_error {text : String} (h : ofText d text = .error e) :
    d.derive text = .error e := by
  unfold ofText at h
  split at h
  · exact absurd h (by simp)
  · split at h
    · exact absurd h (by simp)
    · next e' he =>
      split at h
      · exact absurd h (by simp)
      · rw [he, Except.error.inj h]

theorem ofNumber_eq_error {n : Number} (h : ofNumber n = .error e) : e = .intTooLong := by
  rcases bind_eq_error.1 h with h | ⟨text, -, h⟩
  · exact orTooLong_eq_error h
  · split at h
    · exact absurd h (by simp [pure, Except.pure])
    · split at h <;> exact absurd h (by simp [pure, Except.pure])

/-- Only a derivation's own failure can look like the failure of a channel. -/
theorem derive_of_ofEdit {edit : Edit} {name : String}
    (h : ofEdit d edit = .error (.channelDestroyed name)) :
    ∃ text, edit = .text (.text text) ∧ d.derive text = .error (.channelDestroyed name) := by
  unfold ofEdit at h
  split at h
  · next text => exact ⟨text, rfl, ofText_eq_error h⟩
  · exact absurd h (by simp)
  · exact absurd h (by simp)
  · exact absurd (ofNumber_eq_error h) (by simp)
  · exact absurd h (by simp)
  · rcases bind_eq_error.1 h with h | ⟨shown, -, h⟩
    · exact absurd (orTooLong_eq_error h) (by simp)
    · exact absurd h (by simp)

end Content

/-- A field's channel is gone in `w'`, though its control is alive. Since `w` it was not the control
that was destroyed; unless it was gone by then, the channel was ended by itself. -/
structure World.EndedAlone (w w' : World (Control κ) κ σ) (f : Field) : Prop where
  alive : w'.state.alive = true
  ended : w'.state.subscribers f = none
  ending : ∃ newer, w'.history = newer ++ w.history ∧ (∀ name, .destroyed name ∉ newer) ∧
    (w.state.subscribers f ≠ none → .altered (w.state.channelName f) .ended ∈ newer)

variable [DecidableEq κ]

namespace Trace

variable {alone byHand : Prop} {ph : Phase κ} {c c' : Control κ} {es : List (Event (Control κ) κ)}
    {f : Field}

theorem not_destroyed (t : Trace alone byHand ph c c' es) (ha : c'.alive = true) (name : String) :
    .destroyed name ∉ es := by
  induction t with
  | idle | logged | noted | altered | announced | dropped | broken | delivered => simp
  | destroyed _ => exact absurd ha (by simp)
  | seq _ t₂ ih₁ ih₂ => simp [ih₁ (t₂.keeps.alive ha), ih₂ ha]
  | triggered _ _ ih => exact ih ha
  | commit _ _ _ ih => simp [ih ha]
  | announce _ _ t₂ ih₁ ih₂ => simp [ih₁ (t₂.keeps.alive ha), ih₂ ha]
  | dispatched _ _ ih => simp [ih ha]
  | call _ t₂ ih₁ ih₂ => simp [ih₁ (t₂.keeps.alive ha), ih₂ ha]

omit [DecidableEq κ] in
theorem ended_append {c₁ c₂ : Control κ} {es₁ es₂ : List (Event (Control κ) κ)}
    (hk : Keeps c c₁ es₁) (h₁ : c₁.subscribers f = none → .altered (c.channelName f) .ended ∈ es₁)
    (h₂ : c₁.subscribers f ≠ none → c₂.subscribers f = none →
      .altered (c₁.channelName f) .ended ∈ es₂)
    (hn : c₂.subscribers f = none) : .altered (c.channelName f) .ended ∈ es₁ ++ es₂ := by
  by_cases hs : c₁.subscribers f = none
  · exact List.mem_append_left _ (h₁ hs)
  · exact List.mem_append_right _ (hk.channelName f ▸ h₂ hs hn)

theorem ended (t : Trace alone byHand ph c c' es) (hs : c.subscribers f ≠ none)
    (hn : c'.subscribers f = none) : .altered (c.channelName f) .ended ∈ es := by
  induction t with
  | idle | logged | noted | announced | dropped | broken | delivered => exact absurd hn hs
  | seq t₁ _ ih₁ ih₂ => exact ended_append t₁.keeps (ih₁ hs) ih₂ hn
  | @altered c g a _ =>
    rw [Control.subscribers_withSubscribers] at hn
    split at hn
    · next hg =>
      subst hg
      rcases a with k | k | _
      · exact absurd (Option.map_eq_none_iff.1 hn) hs
      · exact absurd (Option.map_eq_none_iff.1 hn) hs
      · exact List.mem_singleton_self _
    · exact absurd hn hs
  | destroyed _ => cases f <;> simp
  | triggered _ _ ih => exact ih hs hn
  | commit _ _ _ ih =>
    rw [Control.subscribers_withContent] at ih
    exact List.mem_cons_of_mem _ (by simpa using ih hs hn)
  | announce _ t₁ _ ih₁ ih₂ => exact ended_append t₁.keeps (ih₁ hs) ih₂ hn
  | dispatched _ _ ih => simp [ih hs hn]
  | call t₁ _ ih₁ ih₂ => exact List.mem_cons_of_mem _ (ended_append t₁.keeps (ih₁ hs) ih₂ hn)

end Trace

theorem World.Leads.endedAlone {byHand : Prop} {w w' : World (Control κ) κ σ}
    (h : w.Leads byHand .free w') {f : Field} (ha : w'.state.alive = true)
    (hn : w'.state.subscribers f = none) : w.EndedAlone w' f := by
  obtain ⟨es, t, e⟩ := h
  refine ⟨ha, hn, es.reverse, e, fun name he => ?_, fun hs => ?_⟩
  · exact t.not_destroyed ha name (List.mem_reverse.1 he)
  · exact List.mem_reverse.2 (t.ended hs hn)

namespace Session

variable (s : Session κ σ) (d : Derivation)

omit [DecidableEq κ] in
theorem subscribers_start (f : Field) : (s.start d).state.subscribers f ≠ none := by
  rcases f <;> exact Option.some_ne_none _

theorem world_leads : (s.start d).Leads s.ByHand .free (s.world d) :=
  ⟨_, s.trace d, by rw [List.reverse_reverse]; exact (List.append_nil _).symm⟩

end Session

/-- An edit that fails leaves everything as it was, whatever it is about and whoever finds fault
with it. Only by the channel of a changed field can it fail later, and only if that is gone while
the control is alive: then the edit is stored. An edit that is derived is announced whatever its
subscribers do. Channels that are gone while their control is alive were ended by themselves. -/
theorem failed_edit_changes_nothing :
    (∀ (audience : Audience κ σ (Step (ControlAction κ))) depth (w : World (Control κ) κ σ) edit,
      let assign := Control.step audience depth (.act (.edit edit))
      (∀ e w', assign w = .error e w' → (∀ name, e ≠ .channelDestroyed name) → w' = w) ∧
      (∀ name w', assign w = .error (.channelDestroyed name) w' →
        (∃ text, edit = .text (.text text) ∧
          w.state.derivation.derive text = .error (.channelDestroyed name) ∧ w' = w) ∨
        ∃ content remark f, Content.ofEdit w.state.derivation edit = .ok (content, remark) ∧
          w.Announced edit content remark w' ∧ w.EndedAlone w' f ∧ name = w'.state.channelName f) ∧
      (w.state.alive = true → ∀ content remark,
        Content.ofEdit w.state.derivation edit = .ok (content, remark) →
        ∃ w', w.Announced edit content remark w' ∧
          Control.EndsIn (w.state.content.changes content) assign .none w w')) ∧
    ∀ (s : Session κ σ) d f,
      (s.world d).state.alive = true → (s.world d).state.subscribers f = none →
      (s.start d).EndedAlone (s.world d) f ∧
        .altered ((s.start d).state.channelName f) .ended ∈ (s.world d).history := by
  refine ⟨?_, ?_⟩
  · intro audience depth w edit assign
    have hleads : w.Leads True .free (assign.final w) := Control.step_leads audience depth _ w
    rcases Control.edit_outcome audience depth w edit with
      ⟨e, hfails, hwhy⟩ | ⟨content, remark, w', ha, hd, hannounced, hends⟩
    · -- the edit is refused, by the dead control or by what is wrong with it
      refine ⟨?_, ?_, ?_⟩
      · intro e' w' h _
        exact (EStateM.Result.error.inj (hfails.symm.trans h)).2.symm
      · intro name w' h
        obtain ⟨rfl, rfl⟩ := EStateM.Result.error.inj (hfails.symm.trans h)
        rcases hwhy with ⟨-, hname⟩ | ⟨-, hd⟩
        · exact absurd hname (by simp)
        · obtain ⟨text, hedit, hderive⟩ := Content.derive_of_ofEdit hd
          exact .inl ⟨text, hedit, hderive, rfl⟩
      · intro ha content remark hd
        rcases hwhy with ⟨hdead, -⟩ | ⟨-, hd'⟩
        · exact absurd (ha.symm.trans hdead) (by simp)
        · exact absurd (hd'.symm.trans hd) (by simp)
    · -- the edit is stored, and only a channel that ended alone makes it fail
      rw [hends.final] at hleads
      refine ⟨?_, ?_, ?_⟩
      · intro e w₁ h hne
        rcases hends with hok | ⟨f, -, -, -, hbroken⟩
        · exact absurd (hok.symm.trans h) (by simp)
        · obtain ⟨rfl, -⟩ := EStateM.Result.error.inj (hbroken.symm.trans h)
          exact absurd rfl (hne _)
      · intro name w₁ h
        rcases hends with hok | ⟨f, -, ha', hn, hbroken⟩
        · exact absurd (hok.symm.trans h) (by simp)
        · obtain ⟨hname, rfl⟩ := EStateM.Result.error.inj (hbroken.symm.trans h)
          exact .inr ⟨content, remark, f, hd, hannounced, hleads.endedAlone ha' hn,
            (Fault.channelDestroyed.inj hname).symm⟩
      · intro _ content' remark' hd'
        obtain ⟨rfl, rfl⟩ := Prod.mk.inj (Except.ok.inj (hd.symm.trans hd'))
        exact ⟨w', hannounced, hends⟩
  · intro s d f ha hn
    have halone := (s.world_leads d).endedAlone ha hn
    obtain ⟨newer, e, -, hending⟩ := halone.ending
    refine ⟨halone, ?_⟩
    rw [e]
    exact List.mem_append_left _ (hending (s.subscribers_start d f))

/-- A control whose first subscriber ends the channel of the text as soon as the value changes. -/
def severed : Session Bool Unit where
  name := ""
  subscribers
    | .value => [true]
    | .text => [false]
    | .isValid => []
  audience := {
    label := fun k => if k then "severing" else "watching"
    react := fun k _ => .steps false (if k then [.act (.channel .text .destroy)] else []) }
  depth := 1
  memory := ()
  user := .done false

theorem severed_edit_stored :
    let w := severed.world ControlKind.numeric.derivation
    let edit := Edit.text (.text "x")
    ∃ w', Control.step severed.audience severed.depth (.act (.edit edit)) w =
        .error (.channelDestroyed ".text_changed") w' ∧
      w'.state.content = .invalid "x" ∧
      ∃ f content remark, w.EndedAlone w' f ∧ w.Announced edit content remark w' := by
  intro w edit
  obtain ⟨w', hfails⟩ : ∃ w', Control.step severed.audience severed.depth (.act (.edit edit)) w =
      .error (.channelDestroyed ".text_changed") w' := ⟨_, by rfl⟩
  have hcontent :
      ((Control.step severed.audience severed.depth (.act (.edit edit))).final w).state.content =
        .invalid "x" := by decide +kernel
  rw [Run.final_of_error hfails] at hcontent
  refine ⟨w', hfails, hcontent, ?_⟩
  rcases (failed_edit_changes_nothing.1 severed.audience severed.depth w edit).2.1 _ _ hfails with
    ⟨-, -, -, hsame⟩ | ⟨content, remark, f, -, hannounced, halone, -⟩
  · -- the text is no longer empty
    rw [hsame] at hcontent
    exact absurd hcontent (by decide +kernel)
  · exact ⟨f, content, remark, halone, hannounced⟩

end FormulaEntry
