import FormulaEntry.Proofs.Box.Basic
import FormulaEntry.Proofs.Control.Run
import FormulaEntry.Proofs.Control.Telling

/-! What a user can do with a box, and what it does to the box. Wherever the box is, what is typed
goes to the control as an edit, and those told about the edit are the box itself and then whoever
else subscribes. For a box that has no other subscribers every use is one function of the box,
whose control goes the way of a control that nobody subscribes to. -/

namespace FormulaEntry

variable {S κ σ : Type}

namespace Box

section

variable {p : Part S (Box κ)} {r : BoxResponder S κ σ κ} {w w' : World S (BoxSubscriber κ) σ}
variable {others : Field → List κ} {hear : S → Field → S}

/-- Those others who subscribe change the state by `hear` when they are told about a field, and
leave the box as it is. -/
structure Hears (p : Part S (Box κ)) (r : BoxResponder S κ σ (BoxSubscriber κ))
    (others : Field → List κ) (hear : S → Field → S) : Prop where
  deliver : ∀ (w : World S (BoxSubscriber κ) σ) f, (p.get w.state).Bound others →
    ∃ es, commits es = [] ∧
      Channel.deliverAll ((p.get w.state).control.channelName f) r
          ((p.get w.state).control.content.get f) ((others f).map .other) w =
        .ok ⟨⟩ ⟨hear w.state f, w.memory, es ++ w.history⟩
  box : ∀ s f, p.get (hear s f) = p.get s

theorem hears_nobody (p : Part S (Box κ)) (r : BoxResponder S κ σ (BoxSubscriber κ)) :
    Hears p r (fun _ => []) fun s _ => s where
  deliver _ _ _ := ⟨[], rfl, rfl⟩
  box _ _ := rfl

theorem control_heard (b : Box κ) (f : Field) : (b.heard f).control = b.control := by
  cases f <;> rfl

theorem Hears.tells {st : String → BoxRun S κ σ PUnit}
    (h : Hears p (responderVia p st r) others hear) :
    Control.Tells (p.andThen controlPart) (responderVia p st r) (fun s => (p.get s).Bound others)
      fun s f => hear (p.set ((p.get s).heard f) s) f where
  emit w f hw := by
    let name := (p.get w.state).control.channelName f
    let payload := (p.get w.state).control.content.get f
    let called : World S (BoxSubscriber κ) σ :=
      { w with history :=
          .called name (own f) payload w.state :: .opened name payload :: w.history }
    have hown : Channel.deliver name (responderVia p st r) payload (own f)
        { w with history := .opened name payload :: w.history } =
          .ok ⟨⟩ (called.set p ((p.get w.state).heard f)) :=
      Channel.deliver_of_ok (call_own (w := called) st r hw f)
    obtain ⟨es, hes, hothers⟩ := h.deliver (called.set p ((p.get w.state).heard f)) f
      (by rw [World.get_set]; exact hw.heard f)
    rw [World.get_set, control_heard] at hothers
    refine ⟨.closed name :: (es ++ [.called name (own f) payload w.state, .opened name payload]),
      ?_, ?_⟩
    · change commits (es ++ _) = []
      rw [commits_append, hes]
      rfl
    · refine (Control.emit_of_alive (p := p.andThen controlPart) hw.controlAlive f _).trans ?_
      refine (Channel.trigger_of_some (p := (p.andThen controlPart).andThen (Control.channel f))
        (hw.subscribed f) ((Run.bind_of_ok hown).trans hothers)).trans ?_
      rw [List.cons_append, List.append_assoc]
      rfl
  inv s f hs := by
    rw [h.box, p.get_set]
    exact hs.heard f
  content s f := by
    change (p.get (hear (p.set ((p.get s).heard f) s) f)).control.content = _
    rw [h.box, p.get_set, control_heard]
    rfl

theorem type_of_ok {s : String} (hb : (p.get w.state).Bound others)
    (hh : (p.get w.state).handling = false)
    (h : setText p (responder p r) s (w.set p { p.get w.state with entry := s, handling := true }) =
      .ok ⟨⟩ w') :
    type p r s w = .ok ⟨⟩ (w'.set p { p.get w'.state with handling := false }) := by
  unfold type
  rw [Run.bind_of_ok (Run.read_apply _ _)]
  refine (congrFun (if_pos hb.alive) w).trans ((writeEntry_of_typed _ s hb hh).trans ?_)
  exact Run.ensuring_of_ok h (Run.change_apply _ _ _)

theorem type_of_not_alive (ha : (p.get w.state).alive = false) (s : String) :
    type p r s w = .ok ⟨⟩ w := by
  unfold type
  rw [Run.bind_of_ok (Run.read_apply _ _), ha]
  rfl

theorem setActive_of_alive (hb : (p.get w.state).Bound others) (focused : Bool) :
    ∃ es, commits es = [] ∧ setActive p focused w =
      .ok ⟨⟩ ⟨p.set ({ p.get w.state with active := focused } : Box κ).painted w.state, w.memory,
        es ++ w.history⟩ := by
  let b := { p.get w.state with active := focused }
  have hpaint : paintBorder p (w.set p b) = .ok ⟨⟩ (w.set p b.painted) := by
    rw [paintBorder_apply (by rw [World.get_set]; exact hb.controlAlive), World.get_set,
      World.set_set]
  have ha : (p.get (w.set p b.painted).state).control.alive = true := by
    rw [World.get_set]
    exact hb.controlAlive
  refine ⟨[.logged ⟨.debug, (p.get (w.set p b.painted).state).control.name ++ " focus=" ++
    (if focused then "True" else "False"), none⟩], rfl, ?_⟩
  unfold setActive
  rw [Run.bind_of_ok (Run.read_apply _ _)]
  refine (congrFun (if_pos hb.alive) w).trans ((Run.bind_of_ok (Run.change_apply _ _ _)).trans ?_)
  rw [Run.bind_of_ok hpaint, Run.bind_of_ok (Run.read_apply _ _)]
  refine (congrFun (if_pos ha) _).trans ?_
  exact Control.notifyFocus_of_alive (p := p.andThen controlPart) ha focused

theorem setActive_of_not_alive (ha : (p.get w.state).alive = false) (focused : Bool) :
    setActive p focused w = .ok ⟨⟩ w := by
  unfold setActive
  rw [Run.bind_of_ok (Run.read_apply _ _), ha]
  rfl

def ended (b : Box κ) : Box κ :=
  if b.control.alive then
    { b with control := b.control.destroyed, watched := false, alive := false }
  else { b with alive := false }

theorem destroy_control (ha : (p.get w.state).control.alive = true) :
    ∃ es, commits es = [] ∧
      (do
        Control.destroy (p.andThen controlPart)
        Run.change p fun b => { b with alive := false }) w =
        .ok ⟨⟩ ⟨p.set { p.get w.state with
            control := (p.get w.state).control.destroyed, alive := false } w.state,
          w.memory, es ++ w.history⟩ := by
  obtain ⟨record, h⟩ := Control.destroy_of_alive (q := p.andThen controlPart) ha
  refine ⟨[.logged record, .destroyed (p.get w.state).control.name,
    .altered ((p.get w.state).control.channelName .isValid) .ended,
    .altered ((p.get w.state).control.channelName .text) .ended,
    .altered ((p.get w.state).control.channelName .value) .ended], rfl, ?_⟩
  rw [Run.bind_of_ok h, Run.change_apply]
  simp only [World.set, Part.andThen, controlPart, p.get_set, p.set_set]
  rfl

theorem destroy_apply (p : Part S (Box κ)) (w : World S (BoxSubscriber κ) σ) :
    ∃ es, commits es = [] ∧
      destroy p w = .ok ⟨⟩ ⟨p.set (p.get w.state).ended w.state, w.memory, es ++ w.history⟩ := by
  unfold destroy ended
  rw [Run.bind_of_ok (Run.read_apply _ _)]
  by_cases ha : (p.get w.state).control.alive = true
  · rw [if_pos ha, if_pos ha]
    by_cases hw : (p.get w.state).watched = true
    · let unwatched := w.set p { p.get w.state with watched := false }
      obtain ⟨es, hes, h⟩ :=
        destroy_control (p := p) (w := unwatched) (by rw [World.get_set]; exact ha)
      refine ⟨es, hes, ?_⟩
      rw [if_pos hw]
      refine (Run.bind_of_ok (Run.change_apply _ _ _)).trans (h.trans ?_)
      simp only [unwatched, World.set, p.get_set, p.set_set]
    · let record : LogRecord :=
        ⟨.debug, "trace already removed for " ++ (p.get w.state).control.name, none⟩
      let logged : World S (BoxSubscriber κ) σ := { w with history := .logged record :: w.history }
      obtain ⟨es, hes, h⟩ := destroy_control (p := p) (w := logged) ha
      refine ⟨es ++ [.logged record], ?_, ?_⟩
      · rw [commits_append, hes]
        rfl
      · rw [if_neg hw]
        refine (Run.bind_of_ok (Run.log_apply _ _ _ _)).trans (h.trans ?_)
        rw [List.append_assoc, ← Bool.eq_false_iff.mpr hw]
        rfl
  · rw [if_neg ha, if_neg ha]
    exact ⟨[], rfl, rfl⟩

end

theorem tells_own (p : Part S (Box κ)) (st : String → BoxRun S κ σ PUnit)
    (r : BoxResponder S κ σ κ) :
    Control.Tells (p.andThen controlPart) (responderVia p st r)
      (fun s => (p.get s).Bound fun _ => []) fun s f => p.set ((p.get s).heard f) s :=
  (hears_nobody p (responderVia p st r)).tells

def told (b : Box κ) (content : Content) : Box κ :=
  (b.control.content.changes content).foldl heard
    { b with control := b.control.withContent content }

def edited (b : Box κ) (edit : Edit) : Box κ :=
  match Content.ofEdit b.control.derivation edit with
  | .ok (content, _) => b.told content
  | .error _ => b

/-- What depends on certain fields alone is brought up to date if one of them is heard about. -/
theorem foldl_heard {α β : Type} {hear : β → Field → β} {g d : β → α} {P : Field → Bool}
    (hd : ∀ b f, d (hear b f) = d b) (hg : ∀ b f, g (hear b f) = if P f then d b else g b)
    (fs : List Field) (b : β) : g (fs.foldl hear b) = if fs.any P then d b else g b := by
  induction fs generalizing b with
  | nil => rfl
  | cons f fs ih =>
    rw [List.foldl_cons, ih, hd, hg, List.any_cons]
    cases P f <;> cases fs.any P <;> rfl

theorem Bound.foldl_heard {others : Field → List κ} {b : Box κ} (hb : b.Bound others)
    (fs : List Field) : (fs.foldl Box.heard b).Bound others := by
  induction fs generalizing b with
  | nil => exact hb
  | cons f fs ih => exact ih (hb.heard f)

end Box

/-- What a user does with a box, or somebody who has its control. -/
inductive Use where
  | type (s : String)
  | edit (e : Edit)
  | focus (focused : Bool)

namespace Use

def action : Use → BoxAction κ
  | type s => .type s
  | edit e => .control (.edit e)
  | focus focused => .focus focused

def edit? : Use → Option Edit
  | type s => some (.text (.text s))
  | edit e => some e
  | focus _ => none

def focused : Use → Bool → Bool
  | focus focused, _ => focused
  | _, before => before

/-- The box after the use. While what is typed is handled, a flag says so. -/
def apply (b : Box κ) : Use → Box κ
  | type s =>
    { ({ b with entry := s, handling := true } : Box κ).edited (.text (.text s)) with
      handling := false }
  | edit e => b.edited e
  | focus focused => ({ b with active := focused } : Box κ).painted

end Use

namespace Box

variable {w : World (Box κ) (BoxSubscriber κ) σ}

theorem Bound.withContent {others : Field → List κ} {b : Box κ} (hb : b.Bound others)
    {content : Content} (hc : content.Made) :
    ({ b with control := b.control.withContent content } : Box κ).Bound others where
  alive := hb.alive
  controlAlive := hb.controlAlive
  watched := hb.watched
  writingBack := hb.writingBack
  subscribed f := by rw [Control.subscribers_withContent, hb.subscribed]
  made := hc

theorem update_edited (st : String → BoxRun (Box κ) κ σ PUnit) (r : BoxResponder (Box κ) κ σ κ)
    (hb : w.state.Bound fun _ => []) (hd : w.state.control.derivation.GivesFinite) (edit : Edit) :
    ∃ es, commits es = w.state.control.commitsOf edit ∧
      (Control.update (Part.whole.andThen controlPart) (responderVia .whole st r) edit).final w =
        ⟨w.state.edited edit, w.memory, es ++ w.history⟩ := by
  unfold Control.commitsOf edited
  cases he : Content.ofEdit w.state.control.derivation edit with
  | error e =>
    exact ⟨[], rfl, Run.final_of_error
      (Control.update_of_error (p := Part.whole.andThen controlPart) hb.controlAlive he)⟩
  | ok made =>
    obtain ⟨es, hes, h⟩ := (tells_own .whole st r).update hb.controlAlive he
      (hb.withContent (Content.made_ofEdit hd he))
    exact ⟨es, hes, Run.final_of_ok h⟩

theorem type_edited (r : BoxResponder (Box κ) κ σ κ) (hb : w.state.Bound fun _ => [])
    (hh : w.state.handling = false) (hd : w.state.control.derivation.GivesFinite) (s : String) :
    ∃ es, commits es = w.state.control.commitsOf (.text (.text s)) ∧
      (type .whole r s).final w = ⟨(Use.type s).apply w.state, w.memory, es ++ w.history⟩ := by
  let typed : World (Box κ) (BoxSubscriber κ) σ :=
    { w with state := { w.state with entry := s, handling := true } }
  obtain ⟨es, hes, h⟩ :=
    update_edited (w := typed) (setText .whole (responderVia .whole (fun _ => pure ()) r)) r
    (hb.congr rfl rfl rfl rfl) hd (.text (.text s))
  refine ⟨es, hes, ?_⟩
  unfold type
  rw [Run.final_bind_of_ok (Run.read_apply _ _)]
  refine (congrArg (Run.final · w) (if_pos hb.alive)).trans ?_
  rw [Run.final, writeEntry_of_typed (p := .whole) _ s hb hh]
  refine (Run.final_ensuring (Run.change_apply _ _ _)).trans ?_
  exact congrArg (fun w' => World.set .whole { w'.state with handling := false } w') h

/-- Every use does to the box what it is meant to do, and stores nothing but its own edit. -/
theorem perform_use [DecidableEq κ] (r : BoxResponder (Box κ) κ σ κ)
    (hb : w.state.Bound fun _ => []) (hh : w.state.handling = false)
    (hd : w.state.control.derivation.GivesFinite) (u : Use) :
    ∃ es, commits es = u.edit?.elim [] w.state.control.commitsOf ∧
      (u.action.perform .whole r).final w = ⟨u.apply w.state, w.memory, es ++ w.history⟩ := by
  cases u with
  | type s =>
    obtain ⟨es, hes, h⟩ := type_edited r hb hh hd s
    exact ⟨es, hes, (Run.final_bind_pure _ _ _).trans h⟩
  | edit e =>
    obtain ⟨es, hes, h⟩ :=
      update_edited (setText .whole (responderVia .whole (fun _ => pure ()) r)) r hb hd e
    exact ⟨es, hes, (Run.final_bind_pure _ _ _).trans h⟩
  | focus focused =>
    obtain ⟨es, hes, h⟩ := setActive_of_alive (p := .whole) hb focused
    exact ⟨es, hes, (Run.final_bind_pure _ _ _).trans (Run.final_of_ok h)⟩

end Box

end FormulaEntry
