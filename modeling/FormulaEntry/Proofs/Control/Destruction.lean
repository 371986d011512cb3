import FormulaEntry.Proofs.Control.Announcement
import FormulaEntry.Proofs.Control.Failure
import FormulaEntry.Proofs.Control.Running

/-! Destruction is final. Once a control is destroyed, the dispatches under way make the calls
they have left, and nothing else is announced. Whoever asks for more is told that the control
is gone. -/

namespace FormulaEntry

variable {κ σ : Type}

structure Control.Gone (c : Control κ) : Prop where
  dead : c.alive = false
  ended : ∀ f, c.subscribers f = none

/-- What can still happen to a control that is gone. -/
def Event.Posthumous : Event (Control κ) κ → Prop
  | stored .. | destroyed _ | opened .. => False
  | called _ _ _ c | noted c => c.Gone
  | _ => True

def calls {S : Type} (es : List (Event S κ)) : List (Call κ) := es.filterMap Event.call?

/-- What is refused once the control is destroyed. -/
def ControlAction.Refused : ControlAction κ → Prop
  | edit _ | retype | focus _ | destroy => True
  | read (.field _) | read .host | read .derivation | read .resultText => True
  | _ => False

theorem Control.Gone.keeps {c c' : Control κ} {es : List (Event (Control κ) κ)} (h : c.Gone)
    (hk : Keeps c c' es) : c'.Gone where
  dead := by
    by_contra ha
    have halive := hk.alive (by simpa using ha)
    exact absurd (halive.symm.trans h.dead) (by simp)
  ended f := by
    by_contra hs
    exact hk.standing f hs (h.ended f)

theorem Control.gone_destroyed (c : Control κ) : c.destroyed.Gone where
  dead := rfl
  ended f := c.subscribers_destroyed f

variable [DecidableEq κ]

namespace Moment

variable {m m' : Moment κ} {e : Event (Control κ) κ} {es : List (Event (Control κ) κ)}

theorem Next.gone_of_destroyed {name : String} (h : Next m (.destroyed name) m') :
    m'.control.Gone ∧ m'.pending = m.pending := by
  cases h with
  | destroyed _ _ => exact ⟨Control.gone_destroyed _, rfl⟩

theorem Next.posthumous (h : Next m e m') (hm : m.control.Gone) :
    m'.control.Gone ∧ e.Posthumous ∧ e.call?.toList ++ m'.pending = m.pending := by
  rcases h with ha | ⟨ha, -⟩ | ⟨f, a⟩ | ⟨_, hs⟩ | _ | _ | _ | _
  · exact absurd (ha.symm.trans hm.dead) (by simp)
  · exact absurd (ha.symm.trans hm.dead) (by simp)
  · exact ⟨hm.keeps (.altered _ f a), trivial, rfl⟩
  · exact absurd (hs.symm.trans (hm.ended _)) (by simp)
  · exact ⟨hm, hm, rfl⟩
  · exact ⟨hm, trivial, rfl⟩
  · exact ⟨hm, trivial, rfl⟩
  · exact ⟨hm, hm, rfl⟩

theorem Passes.posthumous (h : Passes m es m') (hm : m.control.Gone) :
    m'.control.Gone ∧ (∀ e ∈ es, e.Posthumous) ∧ calls es ++ m'.pending = m.pending := by
  induction h with
  | nil => exact ⟨hm, by simp, rfl⟩
  | @cons m m₁ m₂ e es hn _ ih =>
    obtain ⟨hm₁, he, hcall⟩ := hn.posthumous hm
    obtain ⟨hm₂, hes, hcalls⟩ := ih hm₁
    refine ⟨hm₂, List.forall_mem_cons.2 ⟨he, hes⟩, ?_⟩
    have hcons : calls (e :: es) = e.call?.toList ++ calls es := by
      unfold calls
      rw [List.filterMap_cons]
      rcases e.call? with _ | call <;> rfl
    rw [hcons, List.append_assoc, hcalls, hcall]

/-- From a destruction on, the calls are those that were pending, up to the last one if no
dispatch is under way at the end. -/
theorem Passes.destroyed {name : String} {es₁ es₂ : List (Event (Control κ) κ)}
    (h : Passes m (es₁ ++ .destroyed name :: es₂) m') (hm' : m'.running = []) :
    m'.control.Gone ∧ (∀ e ∈ es₂, e.Posthumous) ∧ ∃ m₁, Passes m es₁ m₁ ∧
      calls es₂ = m₁.pending := by
  obtain ⟨m₁, h₁, h₂⟩ := h.split
  rcases h₂ with _ | ⟨hn, hrest⟩
  obtain ⟨hgone, hpending⟩ := hn.gone_of_destroyed
  obtain ⟨hgone', hes, hcalls⟩ := hrest.posthumous hgone
  refine ⟨hgone', hes, m₁, h₁, ?_⟩
  rw [← hpending, ← hcalls, pending, hm']
  exact (List.append_nil _).symm

end Moment

namespace Control

variable {w : World (Control κ) κ σ} (audience : Audience κ σ (Step (ControlAction κ)))
    (depth : Nat)

theorem Gone.step (h : w.state.Gone) (s : Step (ControlAction κ)) :
    ((step audience depth s).final w).state.Gone := by
  obtain ⟨es, t, -⟩ := step_leads audience depth s w
  exact h.keeps t.keeps

omit [DecidableEq κ] in
theorem readAttribute_of_not_alive (ha : w.state.alive = false) {a : Attribute}
    (hr : ControlAction.Refused (κ := κ) (.read a)) :
    ControlAction.readAttribute .whole a w = .error (.controlDestroyed w.state.name) w := by
  have hlive := live_of_not_alive (p := .whole) ha
  rcases a with f | _ | _ | _ | _ | _
  · exact Run.bind_of_error hlive
  · exact Run.bind_of_error hlive
  · exact Run.bind_of_error hlive
  · exact Run.bind_of_error (Run.bind_of_error hlive)
  · exact hr.elim
  · exact hr.elim

theorem perform_of_not_alive (ha : w.state.alive = false) (r : Responder (Control κ) κ σ κ)
    {a : ControlAction κ} (hr : a.Refused) :
    a.perform .whole r w = .error (.controlDestroyed w.state.name) w := by
  have hlive := live_of_not_alive (p := .whole) ha
  rcases a with ⟨f, b⟩ | e | _ | a | focused | _
  · exact hr.elim
  · exact Run.bind_of_error (update_of_not_alive (p := .whole) ha)
  · exact Run.bind_of_error (Run.bind_of_error hlive)
  · exact readAttribute_of_not_alive ha hr
  · exact Run.bind_of_error (Run.bind_of_error hlive)
  · exact Run.bind_of_error (destroy_of_not_alive (p := .whole) ha)

theorem Gone.refuses (h : w.state.Gone) :
    (∀ a : ControlAction κ, a.Refused →
      Control.step audience depth (.act a) w = .error (.controlDestroyed w.state.name) w) ∧
    ∀ f payload, Control.step audience depth (.act (.channel f (.trigger payload))) w =
      .error (.channelDestroyed (w.state.channelName f)) w := by
  obtain ⟨r, hstep⟩ := exists_performing_responder audience depth
  simp only [hstep]
  refine ⟨fun a ha => perform_of_not_alive h.dead r ha, fun f payload => ?_⟩
  have hended : Channel.trigger (Channel.of f) r payload w =
      .error (.channelDestroyed (w.state.channelName f)) w :=
    Channel.trigger_of_none (p := Channel.of f) (h.ended f)
  exact Run.bind_of_error hended

/-- The notifications that an edit has left when its control is destroyed are dropped. -/
theorem edit_of_destroyed {edit : Edit} (ha : w.state.alive = true)
    (hn : ((step audience depth (.act (.edit edit))).final w).state.alive = false) :
    ∃ w', step audience depth (.act (.edit edit)) w = .ok .none w' := by
  rcases edit_outcome audience depth w edit with ⟨e, hfails, -⟩ |
    ⟨content, remark, w', -, -, -, hends⟩
  · rw [Run.final_of_error hfails] at hn
    exact absurd (ha.symm.trans hn) (by simp)
  · rw [hends.final] at hn
    rcases hends with hok | ⟨f, -, ha', -⟩
    · exact ⟨w', hok⟩
    · exact absurd (ha'.symm.trans hn) (by simp)

theorem step_destroy (ha : w.state.alive = true) :
    ∃ w' record endings, step audience depth (.act .destroy) w = .ok .none w' ∧ w'.state.Gone ∧
      w'.history = .logged record :: .destroyed w.state.name :: (endings ++ w.history) := by
  obtain ⟨record, h⟩ := destroy_of_alive (q := .whole) ha
  obtain ⟨r, hstep⟩ := exists_performing_responder audience depth
  rw [hstep]
  exact ⟨_, record, [.altered (w.state.channelName .isValid) .ended,
    .altered (w.state.channelName .text) .ended, .altered (w.state.channelName .value) .ended],
    Run.bind_of_ok h, gone_destroyed w.state, rfl⟩

end Control

/-- Whoever destroys a live control records it. From that moment of a run on nothing more is
stored or announced, and of the subscribers only those are still called whom the dispatches under
way had left to call. Everybody finds the control gone. What is gone stays so and refuses all that
takes a live control, while edits in progress come to their end without failing. -/
theorem destruction_is_final (s : Session κ σ) (d : Derivation) :
    (∀ newer name older, (s.world d).history = newer ++ .destroyed name :: older →
      (s.world d).state.Gone ∧ (∀ e ∈ newer, e.Posthumous) ∧
        (∃ m, Moment.Passes ⟨(s.start d).state, []⟩ older.reverse m) ∧
        ∀ m, Moment.Passes ⟨(s.start d).state, []⟩ older.reverse m →
          calls newer.reverse = m.pending) ∧
    ∀ (audience : Audience κ σ (Step (ControlAction κ))) depth (w : World (Control κ) κ σ),
      (w.state.alive = true →
        (∃ w' record endings, Control.step audience depth (.act .destroy) w = .ok .none w' ∧
          w'.state.Gone ∧
          w'.history = .logged record :: .destroyed w.state.name :: (endings ++ w.history)) ∧
        ∀ edit, ((Control.step audience depth (.act (.edit edit))).final w).state.alive = false →
          ∃ w', Control.step audience depth (.act (.edit edit)) w = .ok .none w') ∧
      (w.state.Gone →
        (∀ a, ((Control.step audience depth a).final w).state.Gone) ∧
        (∀ a : ControlAction κ, a.Refused →
          Control.step audience depth (.act a) w = .error (.controlDestroyed w.state.name) w) ∧
        ∀ f payload, Control.step audience depth (.act (.channel f (.trigger payload))) w =
          .error (.channelDestroyed (w.state.channelName f)) w) := by
  refine ⟨?_, ?_⟩
  · intro newer name older h
    have hpasses := s.passes d
    rw [h, List.reverse_append, List.reverse_cons, List.append_assoc,
      List.singleton_append] at hpasses
    obtain ⟨hgone, hes, m, hm, hcalls⟩ := hpasses.destroyed rfl
    refine ⟨hgone, fun e he => hes e (List.mem_reverse.2 he), ⟨m, hm⟩, fun m' hm' => ?_⟩
    rw [hcalls, hm.unique (Control.channelName_create_injective _ _ _) hm']
  · intro audience depth w
    refine ⟨fun ha => ⟨Control.step_destroy audience depth ha, ?_⟩, fun h => ?_⟩
    · intro edit hn
      exact Control.edit_of_destroyed audience depth ha hn
    · exact ⟨h.step audience depth, h.refuses audience depth⟩

/-- Of the two subscribers to the value the first has destroyed the control, and the second is
the only one that is still called. -/
theorem abandoned_calls_rest :
    let w := abandoned.world ControlKind.numeric.derivation
    ∃ newer name older, w.history = newer ++ .destroyed name :: older ∧
      (calls newer).map Call.subscriber = [false] ∧
      ∃ m, Moment.Passes ⟨(abandoned.start ControlKind.numeric.derivation).state, []⟩
          older.reverse m ∧
        calls newer.reverse = m.pending := by
  intro w
  have h : w.history = w.history.take 3 ++ .destroyed "" :: w.history.drop 4 := by rfl
  obtain ⟨-, -, ⟨m, hm⟩, hcalls⟩ :=
    (destruction_is_final abandoned ControlKind.numeric.derivation).1 _ _ _ h
  exact ⟨_, _, _, h, by decide +kernel, m, hm, hcalls m hm⟩

end FormulaEntry
