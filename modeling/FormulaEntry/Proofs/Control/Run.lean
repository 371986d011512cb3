import FormulaEntry.Proofs.Control.Basic
import FormulaEntry.Proofs.Control.Trace

/-! Whatever is asked of a control leaves a trace, provided its subscribers' reactions
do: the control's state and the history of the world change together as `Trace` says. -/

namespace FormulaEntry

variable {κ σ α β : Type}

namespace Channel

/-- The channel of a field of the control that is the whole state. -/
abbrev of (f : Field) : Part (Control κ) (Channel κ) := Part.whole.andThen (Control.channel f)

end Channel

variable [DecidableEq κ] {byHand : Prop}

/-- What happens between two worlds is a trace of the phase. -/
def World.Leads (byHand : Prop) (ph : Phase κ) (w w' : World (Control κ) κ σ) : Prop :=
  ∃ es, Trace True byHand ph w.state w'.state es ∧ w'.history = es.reverse ++ w.history

namespace World.Leads

variable {w w₁ w₂ w' : World (Control κ) κ σ}

theorem refl (w : World (Control κ) κ σ) : w.Leads byHand .free w := ⟨[], .idle _, rfl⟩

theorem trans (h₁ : w.Leads byHand .free w₁) (h₂ : w₁.Leads byHand .free w₂) :
    w.Leads byHand .free w₂ := by
  obtain ⟨es₁, t₁, e₁⟩ := h₁
  obtain ⟨es₂, t₂, e₂⟩ := h₂
  exact ⟨es₁ ++ es₂, t₁.seq t₂, by rw [e₂, e₁, List.reverse_append, List.append_assoc]⟩

theorem call {f : Field} {payload : Datum} {k : κ} {ks : List κ}
    (h₁ : Leads byHand .free
      { w with history := .called (w.state.channelName f) k payload w.state :: w.history } w₁)
    (h₂ : w₁.Leads byHand (.deliver f payload ks) w₂) :
    w.Leads byHand (.deliver f payload (k :: ks)) w₂ := by
  obtain ⟨es₁, t₁, e₁⟩ := h₁
  obtain ⟨es₂, t₂, e₂⟩ := h₂
  exact ⟨_, t₁.call t₂, by rw [e₂, e₁]; simp⟩

theorem dispatched {f : Field} {payload : Datum} {ks : List κ}
    (hs : w.state.subscribers f = some ks) (h : Leads byHand (.deliver f payload ks)
      { w with history := .opened (w.state.channelName f) payload :: w.history } w₁) :
    w.Leads byHand (.dispatch f payload)
      { w₁ with history := .closed (w.state.channelName f) :: w₁.history } := by
  obtain ⟨es, t, e⟩ := h
  exact ⟨_, .dispatched hs t, by simp [e]⟩

theorem announce {content : Content} {f : Field} {fs : List Field} (ha : w.state.alive = true)
    (h₁ : w.Leads byHand (.dispatch f (content.get f)) w₁)
    (h₂ : w₁.Leads byHand (.announce content fs) w₂) :
    w.Leads byHand (.announce content (f :: fs)) w₂ := by
  obtain ⟨es₁, t₁, e₁⟩ := h₁
  obtain ⟨es₂, t₂, e₂⟩ := h₂
  exact ⟨_, .announce ha t₁ t₂, by rw [e₂, e₁, List.reverse_append, List.append_assoc]⟩

end World.Leads

instance : IsPreorder (World (Control κ) κ σ) (World.Leads byHand .free) where
  refl := World.Leads.refl
  trans _ _ _ := World.Leads.trans

namespace Run

def Traces (byHand : Prop) (x : Run (Control κ) κ σ α) : Prop :=
  ∀ w : World (Control κ) κ σ, w.Leads byHand .free (x.final w)

namespace Traces

theorem remember (m : σ) : (remember m : Run (Control κ) κ σ PUnit).Traces byHand :=
  fun _ => ⟨[], .idle _, rfl⟩

theorem log (level : Level) (message : String) (cause : Option Fault) :
    (log level message cause : Run (Control κ) κ σ PUnit).Traces byHand :=
  fun _ => ⟨_, .logged _ _, rfl⟩

end Traces

end Run

def Responder.Traces (byHand : Prop) (r : Responder (Control κ) κ σ κ) : Prop :=
  ∀ k payload, (r.call k payload).Traces byHand

namespace Channel

variable {r : Responder (Control κ) κ σ κ} {w : World (Control κ) κ σ} {f : Field} {payload : Datum}

theorem Called.leads {name : String} {k : κ} {w' : World (Control κ) κ σ} (hr : r.Traces byHand)
    (h : Called name r payload k w w') :
    World.Leads byHand .free (w.recorded (.called name k payload w.state)) w' := by
  have hc := hr k payload (w.recorded (.called name k payload w.state))
  rcases h.left with rfl | ⟨record, rfl⟩
  · exact hc
  · exact hc.trans ⟨_, .logged _ _, rfl⟩

theorem Calls.leads {name : String} {ks : List κ} {w' : World (Control κ) κ σ}
    (hr : r.Traces byHand) (h : Calls name r payload ks w w')
    (hname : w.state.channelName f = name) : w.Leads byHand (.deliver f payload ks) w' := by
  induction h with
  | nil w => exact ⟨[], .delivered _ _ _, rfl⟩
  | cons h _ ih =>
    subst hname
    obtain ⟨es, t, -⟩ := h.leads hr
    exact (h.leads hr).call (ih (t.keeps.channelName f))

theorem trigger_leads (hr : r.Traces byHand) (payload : Datum) {ks : List κ}
    (hs : w.state.subscribers f = some ks) :
    ∃ w', trigger (of f) r payload w = .ok ⟨⟩ w' ∧ w.Leads byHand (.dispatch f payload) w' := by
  obtain ⟨w', h, hc⟩ := trigger_calls (p := of f) (r := r) hs payload
  exact ⟨_, h, World.Leads.dispatched hs (hc.leads hr rfl)⟩

theorem trigger_traces (hr : r.Traces byHand) (hb : byHand) (f : Field) (payload : Datum) :
    (trigger (of f) r payload).Traces byHand := by
  intro w
  cases hs : w.state.subscribers f with
  | none => rw [Run.final_of_error (trigger_of_none (p := of f) hs)]; exact .refl w
  | some ks =>
    obtain ⟨w', h, es, t, e⟩ := trigger_leads hr payload hs
    rw [Run.final_of_ok h]
    exact ⟨es, .triggered hb t, e⟩

end Channel

/-- The steps that trigger a channel with no edit for it to announce. -/
def Step.ByHand {κ : Type} : Step (ControlAction κ) → Prop
  | act (.channel _ (.trigger _)) => True
  | _ => False

theorem ChannelAction.perform_traces {r : Responder (Control κ) κ σ κ} (hr : r.Traces byHand)
    (f : Field) {a : ChannelAction κ} (ha : Step.ByHand (.act (.channel f a)) → byHand) :
    (a.perform (Channel.of f) r).Traces byHand :=
  perform_respects (fun _ _ _ hadmits => ⟨_, .altered hadmits, rfl⟩) fun payload h =>
    Channel.trigger_traces hr (ha (h ▸ trivial)) f payload

namespace Control

variable {r : Responder (Control κ) κ σ κ} {w : World (Control κ) κ σ}

omit [DecidableEq κ] in
theorem destroy_of_alive {S : Type} {q : Part S (Control κ)} {w : World S κ σ}
    (ha : (q.get w.state).alive = true) :
    ∃ record, destroy q w = .ok ⟨⟩ { w with
      state := q.set (q.get w.state).destroyed w.state
      history := .logged record :: .destroyed (q.get w.state).name ::
        .altered ((q.get w.state).channelName .isValid) .ended ::
        .altered ((q.get w.state).channelName .text) .ended ::
        .altered ((q.get w.state).channelName .value) .ended :: w.history } := by
  refine ⟨⟨.debug, (q.get w.state).name ++ " destroyed", none⟩,
    (Run.bind_of_ok (live_of_alive ha)).trans ?_⟩
  simp only [Channel.destroy, Channel.alter, Run.bind_apply, Run.read_apply, Run.write_apply,
    Run.change_apply, Run.record_apply, Run.log_apply, World.set, Part.andThen, q.get_set,
    q.set_set]
  rfl

/-- A run that announces fields ends in `w'`: by itself, unless the channel of a field turned out
to be ended although the control was alive. -/
def EndsIn (fields : List Field) (x : Run (Control κ) κ σ α) (a : α)
    (w w' : World (Control κ) κ σ) : Prop :=
  x w = .ok a w' ∨ ∃ f ∈ fields, w'.state.alive = true ∧ w'.state.subscribers f = none ∧
    x w = .error (.channelDestroyed (w'.state.channelName f)) w'

omit [DecidableEq κ] in
theorem EndsIn.final {fields : List Field} {x : Run (Control κ) κ σ α} {a : α}
    {w w' : World (Control κ) κ σ} (h : EndsIn fields x a w w') : x.final w = w' := by
  rcases h with h | ⟨f, -, -, -, h⟩
  · exact Run.final_of_ok h
  · exact Run.final_of_error h

omit [DecidableEq κ] in
theorem EndsIn.bind_pure {fields : List Field} {x : Run (Control κ) κ σ α} {a : α}
    {w w' : World (Control κ) κ σ} (h : EndsIn fields x a w w') (b : β) :
    EndsIn fields (x >>= fun _ => pure b) b w w' := by
  rcases h with h | ⟨f, hf, ha, hs, h⟩
  · exact .inl (Run.bind_of_ok h)
  · exact .inr ⟨f, hf, ha, hs, Run.bind_of_error h⟩

/-- Fields are announced one after the other, until the control is destroyed or a channel
turns out to be ended. No subscriber makes the announcements fail. -/
theorem emitAll_endsIn (hr : r.Traces byHand) (content : Content) (fs : List Field)
    (w : World (Control κ) κ σ) :
    ∃ w', EndsIn fs (emitAll .whole r content fs) ⟨⟩ w w' ∧
      w.Leads byHand (.announce content fs) w' := by
  induction fs generalizing w with
  | nil => exact ⟨w, .inl rfl, [], .announced _ _, rfl⟩
  | cons f fs ih =>
    rcases Bool.eq_false_or_eq_true w.state.alive with ha | ha
    · have hemit := fun payload => emit_of_alive (p := .whole) (r := r) ha f payload
      unfold emitAll
      rcases hs : w.state.subscribers f with _ | ks
      · have h := (hemit (content.get f)).trans (Channel.trigger_of_none (p := Channel.of f) hs)
        exact ⟨w, .inr ⟨f, List.mem_cons_self, ha, hs, Run.bind_of_error h⟩, [],
          .broken trivial ha hs, rfl⟩
      · obtain ⟨w₁, h₁, l₁⟩ := Channel.trigger_leads hr (content.get f) hs
        obtain ⟨w₂, h₂, l₂⟩ := ih w₁
        refine ⟨w₂, ?_, l₁.announce ha l₂⟩
        rw [EndsIn, Run.bind_of_ok ((hemit _).trans h₁)]
        rcases h₂ with h | ⟨g, hg, h⟩
        · exact .inl h
        · exact .inr ⟨g, List.mem_cons_of_mem _ hg, h⟩
    · exact ⟨w, .inl (emitAll_of_not_alive ha _ _), [], .dropped ha, rfl⟩

theorem emitAll_leads (hr : r.Traces byHand) (content : Content) (fs : List Field)
    (w : World (Control κ) κ σ) :
    w.Leads byHand (.announce content fs) ((emitAll .whole r content fs).final w) := by
  obtain ⟨w', h, hl⟩ := emitAll_endsIn hr content fs w
  rwa [h.final]

theorem remarked_leads (w : World (Control κ) κ σ) (remark : Option Remark) :
    w.Leads byHand .free (w.remarked .whole remark) := by
  cases remark with
  | none => exact .refl w
  | some remark => exact ⟨_, .logged _ _, rfl⟩

theorem stored_leads (hr : r.Traces byHand) {edit : Edit} {content : Content}
    {remark : Option Remark} (ha : w.state.alive = true)
    (hd : Content.ofEdit w.state.derivation edit = .ok (content, remark)) :
    w.Leads byHand .free ((emitAll .whole r content (w.state.content.changes content)).final
      (w.stored .whole edit content)) := by
  obtain ⟨es, t, e⟩ :=
    emitAll_leads hr content (w.state.content.changes content) (w.stored .whole edit content)
  refine ⟨_, .commit ha hd t, ?_⟩
  rw [List.reverse_cons, List.append_assoc]
  exact e

theorem update_traces (hr : r.Traces byHand) (edit : Edit) :
    (update .whole r edit).Traces byHand := by
  intro w
  cases ha : w.state.alive with
  | false =>
    rw [Run.final_of_error (update_of_not_alive (p := .whole) ha)]
    exact .refl w
  | true =>
    cases hd : Content.ofEdit w.state.derivation edit with
    | error e =>
      rw [Run.final_of_error (update_of_error (p := .whole) ha hd)]
      exact .refl w
    | ok p =>
      obtain ⟨content, remark⟩ := p
      have hstored := stored_leads (w := w.remarked .whole remark) hr
        (by rwa [World.state_remarked]) (by rwa [World.state_remarked])
      rw [World.state_remarked] at hstored
      rw [Run.final, update_of_ok (p := .whole) ha hd]
      exact (remarked_leads w remark).trans hstored

theorem destroy_traces : (destroy .whole : Run (Control κ) κ σ PUnit).Traces byHand := by
  intro w
  cases ha : w.state.alive with
  | false =>
    rw [Run.final_of_error (destroy_of_not_alive (p := .whole) ha)]
    exact .refl w
  | true =>
    obtain ⟨record, h⟩ := destroy_of_alive (q := .whole) ha
    rw [Run.final_of_ok h]
    exact ⟨_, .seq (.destroyed ha) (.logged _ record), rfl⟩

end Control

namespace ControlAction

variable {r : Responder (Control κ) κ σ κ}

theorem perform_traces (hr : r.Traces byHand) {a : ControlAction κ}
    (ha : Step.ByHand (.act a) → byHand) : (a.perform .whole r).Traces byHand :=
  perform_respects (fun f _ h => ChannelAction.perform_traces hr f (h ▸ ha))
    (fun e _ => Control.update_traces hr e) Control.destroy_traces Run.Traces.log

end ControlAction

end FormulaEntry
