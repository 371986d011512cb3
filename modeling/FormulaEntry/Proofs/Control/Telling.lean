import FormulaEntry.Proofs.Control.Basic
import FormulaEntry.Proofs.Control.Trace

/-! Controls whose subscribers make no edits of their own. An edit is then stored once, and
what becomes of the state is a fold over the fields the edit changed. -/

namespace FormulaEntry

variable {S κ σ : Type}

/-- That an edit was stored by a control, and what it made of what. -/
structure Commit where
  control : String
  edit : Edit
  before : Content
  after : Content

def Event.commit? : Event S κ → Option Commit
  | stored control edit before after => some ⟨control, edit, before, after⟩
  | _ => none

def commits (history : List (Event S κ)) : List Commit := history.filterMap Event.commit?

@[simp] theorem commits_append (es history : List (Event S κ)) :
    commits (es ++ history) = commits es ++ commits history := List.filterMap_append

theorem commits_stored (name : String) (edit : Edit) (before after : Content)
    (history : List (Event S κ)) :
    commits (.stored name edit before after :: history) =
      ⟨name, edit, before, after⟩ :: commits history :=
  rfl

theorem exists_remarked (q : Part S (Control κ)) (w : World S κ σ) (remark : Option Remark) :
    ∃ es, commits es = [] ∧ w.remarked q remark = { w with history := es ++ w.history } := by
  cases remark with
  | none => exact ⟨[], rfl, rfl⟩
  | some remark => exact ⟨[_], rfl, rfl⟩

namespace Control

/-- Subscribers that change the state by `tell` when they are told about a field of a
control, and do nothing else with it. -/
structure Tells (q : Part S (Control κ)) (r : Responder S κ σ κ) (Inv : S → Prop)
    (tell : S → Field → S) : Prop where
  emit : ∀ (w : World S κ σ) f, Inv w.state → ∃ es, commits es = [] ∧
    emit q r f ((q.get w.state).content.get f) w =
      .ok ⟨⟩ ⟨tell w.state f, w.memory, es ++ w.history⟩
  inv : ∀ s f, Inv s → Inv (tell s f)
  content : ∀ s f, (q.get (tell s f)).content = (q.get s).content

namespace Tells

variable {q : Part S (Control κ)} {r : Responder S κ σ κ} {Inv : S → Prop} {tell : S → Field → S}

theorem emitAll (h : Tells q r Inv tell) (fs : List Field) (w : World S κ σ) (hw : Inv w.state) :
    ∃ es, commits es = [] ∧
      Control.emitAll q r (q.get w.state).content fs w =
        .ok ⟨⟩ ⟨fs.foldl tell w.state, w.memory, es ++ w.history⟩ := by
  induction fs generalizing w with
  | nil => exact ⟨[], rfl, rfl⟩
  | cons f fs ih =>
    obtain ⟨es₁, hc₁, h₁⟩ := h.emit w f hw
    obtain ⟨es₂, hc₂, h₂⟩ := ih ⟨tell w.state f, w.memory, es₁ ++ w.history⟩ (h.inv _ f hw)
    rw [h.content] at h₂
    refine ⟨es₂ ++ es₁, by rw [commits_append, hc₁, hc₂]; rfl, (Run.bind_of_ok h₁).trans ?_⟩
    rw [h₂, List.append_assoc]
    rfl

/-- An edit is stored once, and the fields it changed are told. -/
theorem update (h : Tells q r Inv tell) {w : World S κ σ} {edit : Edit} {content : Content}
    {remark : Option Remark} (ha : (q.get w.state).alive = true)
    (hd : Content.ofEdit (q.get w.state).derivation edit = .ok (content, remark))
    (hw : Inv (q.set ((q.get w.state).withContent content) w.state)) :
    ∃ es, commits es = [⟨(q.get w.state).name, edit, (q.get w.state).content, content⟩] ∧
      Control.update q r edit w = .ok ⟨⟩
        ⟨((q.get w.state).content.changes content).foldl tell
            (q.set ((q.get w.state).withContent content) w.state),
          w.memory, es ++ w.history⟩ := by
  obtain ⟨rs, hrs, hr⟩ := exists_remarked q w remark
  let stored := ({ w with history := rs ++ w.history } : World S κ σ).stored q edit content
  have hcontent : (q.get stored.state).content = content :=
    congrArg Control.content (q.get_set ((q.get w.state).withContent content) w.state)
  obtain ⟨es, hes, he⟩ := h.emitAll ((q.get w.state).content.changes content) stored hw
  rw [hcontent] at he
  refine ⟨es ++ .stored (q.get w.state).name edit (q.get w.state).content content :: rs, ?_, ?_⟩
  · rw [commits_append, hes, commits_stored, hrs]
    rfl
  · rw [update_of_ok ha hd, hr, List.append_assoc]
    exact he

end Tells

/-- The control after an edit: nothing but its content is another one, if the edit is derived. -/
def edited (c : Control κ) (edit : Edit) : Control κ :=
  match Content.ofEdit c.derivation edit with
  | .ok (content, _) => c.withContent content
  | .error _ => c

def commitsOf (c : Control κ) (edit : Edit) : List Commit :=
  match Content.ofEdit c.derivation edit with
  | .ok (content, _) => [⟨c.name, edit, c.content, content⟩]
  | .error _ => []

/-- A live control that nobody subscribes to. -/
structure Bare (c : Control κ) : Prop where
  alive : c.alive = true
  unsubscribed : ∀ f, c.subscribers f = some []

theorem bare_create (name : String) (d : Derivation) :
    (create name d fun _ => [] : Control κ).Bare where
  alive := rfl
  unsubscribed f := by cases f <;> rfl

theorem Bare.withContent {c : Control κ} (hc : c.Bare) (content : Content) :
    (c.withContent content).Bare where
  alive := hc.alive
  unsubscribed f := by rw [subscribers_withContent, hc.unsubscribed]

theorem Bare.edited {c : Control κ} (hc : c.Bare) (edit : Edit) : (c.edited edit).Bare := by
  unfold Control.edited
  split
  · exact hc.withContent _
  · exact hc

theorem tells_nobody (r : Responder (Control κ) κ σ κ) : Tells .whole r Bare fun c _ => c where
  emit w f hw :=
    ⟨[.closed (w.state.channelName f), .opened (w.state.channelName f) (w.state.content.get f)],
      rfl,
      (emit_of_alive (p := .whole) hw.alive f _).trans
        (Channel.trigger_of_some (p := Part.whole.andThen (channel f)) (hw.unsubscribed f) rfl)⟩
  inv _ _ hc := hc
  content _ _ := rfl

theorem update_bare (r : Responder (Control κ) κ σ κ) {w : World (Control κ) κ σ}
    (hw : w.state.Bare) (edit : Edit) : ∃ es, commits es = w.state.commitsOf edit ∧
      (update .whole r edit).final w = ⟨w.state.edited edit, w.memory, es ++ w.history⟩ := by
  unfold commitsOf edited
  cases hd : Content.ofEdit w.state.derivation edit with
  | error e => exact ⟨[], rfl, Run.final_of_error (update_of_error (p := .whole) hw.alive hd)⟩
  | ok made =>
    obtain ⟨es, hes, h⟩ := (tells_nobody r).update hw.alive hd (hw.withContent _)
    rw [List.foldl_fixed] at h
    exact ⟨es, hes, Run.final_of_ok h⟩

end Control

end FormulaEntry
