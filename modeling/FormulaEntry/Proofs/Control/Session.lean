import FormulaEntry.Proofs.Control.Run
import FormulaEntry.Proofs.Script

/-! Sessions with a control. However deep the calls of subscribers nest, a session
leaves a trace from the control's creation on. -/

namespace FormulaEntry

variable {κ σ : Type} [DecidableEq κ] {byHand : Prop}

namespace Control

/-- A step taken with a control by its user or by one of its subscribers, to whom the
`audience` lends their reactions. -/
abbrev step (audience : Audience κ σ (Step (ControlAction κ))) (depth : Nat) :
    Step (ControlAction κ) → Run (Control κ) κ σ Datum :=
  Step.performWithin (fun r a => a.perform .whole r) audience depth

theorem exists_performing_responder (audience : Audience κ σ (Step (ControlAction κ)))
    (depth : Nat) :
    ∃ r : Responder (Control κ) κ σ κ, ∀ a, step audience depth (.act a) = a.perform .whole r := by
  rcases depth with _ | depth
  · exact ⟨_, fun _ => rfl⟩
  · exact ⟨_, fun _ => rfl⟩

theorem exists_tracing_responder {audience : Audience κ σ (Step (ControlAction κ))}
    (ha : ∀ k payload, (audience.react k payload).All fun s => s.ByHand → byHand) (depth : Nat) :
    ∃ r : Responder (Control κ) κ σ κ, r.Traces byHand ∧
      step audience depth = Step.perform (fun r a => a.perform .whole r) r :=
  Step.exists_responder Run.Traces.remember (fun _ => ⟨_, .noted _, rfl⟩)
    (fun _ hr _ hb => ControlAction.perform_traces hr hb) ha depth

theorem step_traces {audience : Audience κ σ (Step (ControlAction κ))}
    (ha : ∀ k payload, (audience.react k payload).All fun s => s.ByHand → byHand) (depth : Nat)
    (s : Step (ControlAction κ)) (hs : s.ByHand → byHand) : (step audience depth s).Traces byHand :=
  Step.performWithin_respects Run.Traces.remember (fun _ => ⟨_, .noted _, rfl⟩)
    (fun _ hr _ hb => ControlAction.perform_traces hr hb) ha depth hs

theorem step_leads (audience : Audience κ σ (Step (ControlAction κ))) (depth : Nat)
    (s : Step (ControlAction κ)) (w : World (Control κ) κ σ) :
    w.Leads True .free ((step audience depth s).final w) :=
  step_traces (fun _ _ => Script.all_of_forall (fun _ _ => trivial) _) depth s (fun _ => trivial) w

theorem alive_of_step {audience : Audience κ σ (Step (ControlAction κ))} {depth : Nat}
    {s : Step (ControlAction κ)} {w : World (Control κ) κ σ}
    (ha : ((step audience depth s).final w).state.alive = true) : w.state.alive = true := by
  obtain ⟨es, t, -⟩ := step_leads audience depth s w
  exact t.keeps.alive ha

end Control

/-- The edit was stored, and its announcement led from there to `w'`. -/
def World.Announced (edit : Edit) (content : Content) (remark : Option Remark)
    (w w' : World (Control κ) κ σ) : Prop :=
  ((w.remarked .whole remark).stored .whole edit content).Leads True
    (.announce content (w.state.content.changes content)) w'

namespace Control

variable {w : World (Control κ) κ σ} {edit : Edit} {content : Content} {remark : Option Remark}

theorem update_endsIn {r : Responder (Control κ) κ σ κ} (hr : r.Traces True)
    (ha : w.state.alive = true)
    (hd : Content.ofEdit w.state.derivation edit = .ok (content, remark)) :
    ∃ w', EndsIn (w.state.content.changes content) (update .whole r edit) ⟨⟩ w w' ∧
      w.Announced edit content remark w' := by
  obtain ⟨w', h, hl⟩ := emitAll_endsIn hr content (w.state.content.changes content)
    ((w.remarked .whole remark).stored .whole edit content)
  refine ⟨w', ?_, hl⟩
  rw [EndsIn, update_of_ok (p := .whole) ha hd]
  exact h

/-- An edit ends without having done anything, or it is stored and announced. -/
theorem edit_outcome (audience : Audience κ σ (Step (ControlAction κ))) (depth : Nat)
    (w : World (Control κ) κ σ) (edit : Edit) :
    (∃ e, step audience depth (.act (.edit edit)) w = .error e w ∧
      (w.state.alive = false ∧ e = .controlDestroyed w.state.name ∨
        w.state.alive = true ∧ Content.ofEdit w.state.derivation edit = .error e)) ∨
    ∃ content remark w', w.state.alive = true ∧
      Content.ofEdit w.state.derivation edit = .ok (content, remark) ∧
        w.Announced edit content remark w' ∧
      EndsIn (w.state.content.changes content)
        (step audience depth (.act (.edit edit))) .none w w' := by
  have hreact : ∀ k payload, (audience.react k payload).All fun s => s.ByHand → True :=
    fun _ _ => Script.all_of_forall (fun _ _ => trivial) _
  obtain ⟨r, hr, hstep⟩ := exists_tracing_responder hreact depth
  have hedit : step audience depth (.act (.edit edit)) =
      update .whole r edit >>= fun _ => pure .none := congrFun hstep _
  rw [hedit]
  rcases Bool.eq_false_or_eq_true w.state.alive with ha | ha
  · rcases hd : Content.ofEdit w.state.derivation edit with e | ⟨content, remark⟩
    · exact .inl ⟨e, Run.bind_of_error (update_of_error (p := .whole) ha hd), .inr ⟨ha, rfl⟩⟩
    · obtain ⟨w', hends, hannounced⟩ := update_endsIn hr ha hd
      exact .inr ⟨content, remark, w', ha, rfl, hannounced, hends.bind_pure Datum.none⟩
  · exact .inl ⟨_, Run.bind_of_error (update_of_not_alive (p := .whole) ha), .inl ⟨ha, rfl⟩⟩

/-- Of an edit that is derived the first that comes is that it is stored, and nothing comes of any
other. -/
structure CommitsEdits (step : Step (ControlAction κ) → Run (Control κ) κ σ Datum) : Prop where
  derived : ∀ (w : World (Control κ) κ σ) edit content remark, w.state.alive = true →
    Content.ofEdit w.state.derivation edit = .ok (content, remark) →
    w.Announced edit content remark ((step (.act (.edit edit))).final w)
  refused : ∀ (w : World (Control κ) κ σ) edit,
    w.state.alive = false ∨ (∃ e, Content.ofEdit w.state.derivation edit = .error e) →
    (step (.act (.edit edit))).final w = w

theorem step_commitsEdits (audience : Audience κ σ (Step (ControlAction κ))) (depth : Nat) :
    CommitsEdits (step audience depth) := by
  constructor
  · intro w edit content remark ha hd
    rcases edit_outcome audience depth w edit with
      ⟨e, -, ⟨hdead, -⟩ | ⟨-, he⟩⟩ | ⟨content', remark', w', -, hd', hannounced, hends⟩
    · exact absurd (ha.symm.trans hdead) (by simp)
    · exact absurd (hd.symm.trans he) (by simp)
    · obtain ⟨rfl, rfl⟩ := Prod.mk.inj (Except.ok.inj (hd.symm.trans hd'))
      rwa [hends.final]
  · intro w edit h
    rcases edit_outcome audience depth w edit with ⟨e, hfails, -⟩ |
      ⟨content, remark, w', ha, hd, -, -⟩
    · exact Run.final_of_error hfails
    · rcases h with hdead | ⟨e, he⟩
      · exact absurd (ha.symm.trans hdead) (by simp)
      · exact absurd (hd.symm.trans he) (by simp)

end Control

/-- All that a control's story depends on but its derivation: who subscribes to it, how
the subscribers react and how deep their reactions nest, and what its user does with it. -/
structure Session (κ σ : Type) where
  name : String
  subscribers : Field → List κ
  audience : Audience κ σ (Step (ControlAction κ))
  depth : Nat
  memory : σ
  user : Script σ (Step (ControlAction κ))

namespace Session

variable (s : Session κ σ) (d : Derivation)

def start : World (Control κ) κ σ := ⟨.create s.name d s.subscribers, s.memory, []⟩

/-- The world after all the user did. As the user may stop anywhere, this is the world
after any of the steps. -/
def world : World (Control κ) κ σ :=
  (s.user.run (Control.step s.audience s.depth)).final (s.start d)

def ByHand : Prop :=
  ¬ (s.user.All (fun a => ¬ a.ByHand) ∧
    ∀ k payload, (s.audience.react k payload).All fun a => ¬ a.ByHand)

omit [DecidableEq κ] in
theorem react_byHand (k : κ) (payload : Datum) :
    (s.audience.react k payload).All fun a => a.ByHand → s.ByHand := by
  by_cases hb : s.ByHand
  · exact Script.all_of_forall (fun _ _ => hb) _
  · exact (Classical.not_not.1 hb).2 k payload |>.imp fun _ h h' => absurd h' h

theorem step_traces (a : Step (ControlAction κ)) (ha : a.ByHand → s.ByHand) :
    (Control.step s.audience s.depth a).Traces s.ByHand :=
  Control.step_traces s.react_byHand s.depth a ha

theorem trace :
    Trace True s.ByHand .free (s.start d).state (s.world d).state (s.world d).history.reverse := by
  have hu : s.user.All fun a => a.ByHand → s.ByHand := by
    by_cases hb : s.ByHand
    · exact Script.all_of_forall (fun _ _ => hb) _
    · exact (Classical.not_not.1 hb).1.imp fun _ h h' => absurd h' h
  obtain ⟨es, t, e⟩ := Script.run_respects Run.Traces.remember s.step_traces hu (s.start d)
  change (s.world d).history = es.reverse ++ [] at e
  rwa [e, List.append_nil, List.reverse_reverse]

def after (a : Step (ControlAction κ)) : World (Control κ) κ σ :=
  (Control.step s.audience s.depth a).final (s.world d)

theorem after_leads (a : Step (ControlAction κ)) : (s.world d).Leads True .free (s.after d a) :=
  Control.step_leads s.audience s.depth a _

theorem sound_world (kind : ControlKind) : (s.world kind.derivation).state.Sound :=
  (s.trace kind.derivation).keeps.sound ⟨kind.givesFinite, fun _ => Content.coherent_initial⟩

end Session

end FormulaEntry
