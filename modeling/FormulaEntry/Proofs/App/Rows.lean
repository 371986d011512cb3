import FormulaEntry.Proofs.App.Gesture
import FormulaEntry.Proofs.Box.Lasting

/-! The rows of a panel before an audience. While a row's edit is announced, subscribers from
outside may do whatever a user can do, and destroy the control as well. The row that sets the
value has nothing more to ask of the control then. The row that sets the text reads it again, and
fails if there is none left. -/

namespace FormulaEntry

variable {κ σ : Type}

/-- The steps that end a channel of the panel's control and leave the control. -/
def Step.EndsChannel (s : PanelSlot) : Step (AppAction κ) → Prop
  | act (.box (.panel s') (.control (.channel _ .destroy))) => s' = s
  | _ => False

namespace App

variable {s s' : PanelSlot}

abbrev Lasts (s : PanelSlot) :
    World (App κ) (AppSubscriber κ) σ → World (App κ) (AppSubscriber κ) σ → Prop :=
  World.Lasts (control s)

theorem control_eq_cell (a : App κ) (s : PanelSlot) :
    (control s).get a = (a.cell (.panel s)).box.control := by
  rw [box_cell]
  rfl

theorem lasts_of_ne {slot : BoxSlot} (h : slot ≠ .panel s) (b : Box (PanelSubscriber κ))
    (w : World (App κ) (AppSubscriber κ) σ) : Lasts s w (w.set (box slot) b) := by
  have hcell := (recast_box slot b w.state).of_ne (Ne.symm h)
  rw [Lasts, World.Lasts, control_eq_cell, control_eq_cell]
  exact hcell ▸ .refl _

theorem allows (s : PanelSlot) (slot : BoxSlot) :
    Box.Allows (box slot) (Lasts s : World (App κ) (AppSubscriber κ) σ → _ → Prop) where
  record _ _ := .refl _
  set b w hb := by
    by_cases h : slot = .panel s
    · subst h
      rw [Lasts, World.Lasts]
      change ((box (.panel s)).get w.state).control.Lasts
        ((box (.panel s)).get (w.set _ b).state).control
      rwa [World.get_set]
    · exact lasts_of_ne h b w

theorem control_create (s : PanelSlot) :
    ((control s).get (create : App κ)).Intact ∧
      ((control s).get (create : App κ)).name = (BoxSlot.panel s).title ∧
      ((control s).get (create : App κ)).derivation = (BoxSlot.panel s).kind.derivation := by
  refine ⟨?_, by cases s <;> rfl, by cases s <;> rfl⟩
  have h := Control.intact_create (κ := AppSubscriber κ) (BoxSlot.panel s).title
    (BoxSlot.panel s).kind.derivation fun f => Box.ownSubscribers f ++ [.other (.readout f)]
  cases s <;> exact h

section

variable {r : AppResponder κ σ κ}

theorem change_respects {A : Type} {p : Part (App κ) A} {f : A → A}
    (h : ∀ a, (control s).get (p.set (f (p.get a)) a) = (control s).get a) :
    (Run.change p f : AppRun κ σ PUnit).Respects (Lasts s) := fun w => by
  rw [Run.final_of_ok (Run.change_apply p f w), Lasts, World.Lasts, World.set, h]
  exact .refl _

theorem setStatus_respects (status : String) :
    (setStatus status : AppRun κ σ PUnit).Respects (Lasts s) :=
  change_respects fun _ => by cases s <;> rfl

theorem showReadout_respects (f : Field) (payload : Datum) :
    (showReadout s' f payload : AppRun κ σ PUnit).Respects (Lasts s) := by
  cases f with
  | value | text =>
    exact (Run.Respects.ofExcept _).bind fun _ => change_respects fun _ => by
      cases s <;> cases s' <;> rfl
  | isValid =>
    simp only [showReadout]
    exact change_respects fun _ => by cases s <;> cases s' <;> rfl

theorem responder_respects (hr : r.Respects (Lasts s)) (slot : BoxSlot) :
    ∀ k payload, ((responder r slot).call k payload).Respects (Lasts s) := by
  intro k payload
  cases slot with
  | panel s' =>
    cases k with
    | readout f => exact (showReadout_respects f payload).bind fun _ => .pure _
    | outside k => exact hr k payload
  | customNumeric | customCalculator =>
    cases k with
    | readout f => exact .pure _
    | outside k => exact hr k payload

theorem edit_respects (hr : r.Respects (Lasts s)) (e : Edit) : (edit s' r e).Respects (Lasts s) :=
  (allows s (.panel s')).control.update
    ((allows s (.panel s')).responder (responder_respects hr (.panel s'))) e

theorem setValue_respects (hr : r.Respects (Lasts s)) : (setValue s' r).Respects (Lasts s) := by
  refine (Run.Respects.read _).bind fun p => .ite ?_ (.pure _)
  split
  · exact setStatus_respects _
  · refine (edit_respects hr _).bind fun _ => (Run.Respects.ofExcept _).bind fun _ => ?_
    exact setStatus_respects _

theorem setText_respects (hr : r.Respects (Lasts s)) : (setText s' r).Respects (Lasts s) := by
  refine (Run.Respects.read _).bind fun p => .ite ?_ (.pure _)
  refine (edit_respects hr _).bind fun _ =>
    (Control.live_respects.bind fun _ => .pure _).bind fun _ => ?_
  exact setStatus_respects _

theorem destroyBox_respects (slot : BoxSlot) :
    (destroyBox slot : AppRun κ σ PUnit).Respects (Lasts s) :=
  (allows s slot).destroy

theorem disableSetters_respects : (disableSetters s' : AppRun κ σ PUnit).Respects (Lasts s) :=
  change_respects fun _ => by cases s <;> cases s' <;> rfl

theorem destroyAll_respects : (destroyAll : AppRun κ σ PUnit).Respects (Lasts s) := by
  refine (destroyBox_respects _).bind fun _ => disableSetters_respects.bind fun _ => ?_
  refine (destroyBox_respects _).bind fun _ => disableSetters_respects.bind fun _ => ?_
  refine (destroyBox_respects _).bind fun _ => (destroyBox_respects _).bind fun _ => ?_
  refine (change_respects fun _ => by cases s <;> rfl).bind fun _ => ?_
  exact (setStatus_respects _).bind fun _ => (allows s .customNumeric).record _

theorem quit_respects : (quit : AppRun κ σ PUnit).Respects (Lasts s) := by
  refine (change_respects fun _ => by cases s <;> rfl).bind fun _ => ?_
  refine (destroyBox_respects _).bind fun _ => (destroyBox_respects _).bind fun _ => ?_
  refine (destroyBox_respects _).bind fun _ => (destroyBox_respects _).bind fun _ => ?_
  exact change_respects fun _ => by cases s <;> rfl

variable [DecidableEq κ]

omit [DecidableEq κ] in
theorem sendOff_respects {row : AppRun κ σ PUnit} (h : row.Respects (Lasts s)) (press : Press) :
    (sendOff s' press row).Respects (Lasts s) :=
  (Run.Respects.read _).bind fun _ => .ite (h.bind fun _ => .pure _) (.pure _)

theorem box_respects (hr : r.Respects (Lasts s)) (slot : BoxSlot) {a : BoxAction κ}
    (ha : ¬(Step.act (.box slot a)).EndsChannel s) :
    ((AppAction.box slot a).perform r).Respects (Lasts s) := by
  refine (allows s slot).perform (responder_respects hr slot) fun f hend => ?_
  have hne : slot ≠ .panel s := by
    rintro rfl
    cases a with
    | control a =>
      obtain rfl := ControlAction.eq_of_map_eq_destroy (BoxAction.control.inj hend)
      exact ha rfl
    | type | focus | destroy | unwatch => cases hend
  intro w
  rw [Run.final_of_ok (Channel.destroy_apply w)]
  exact lasts_of_ne hne _ w

/-- All that can be done in the window, but for the end of a channel, the control lasts through. -/
theorem perform_respects (hr : r.Respects (Lasts s)) {a : AppAction κ}
    (ha : ¬(Step.act a).EndsChannel s) : (a.perform r).Respects (Lasts s) := by
  cases a with
  | box slot a => exact box_respects hr slot ha
  | setValue s' text press =>
    cases text with
    | none => exact sendOff_respects (setValue_respects hr) press
    | some text =>
      refine (change_respects fun _ => ?_).bind fun _ =>
        sendOff_respects (setValue_respects hr) press
      cases s <;> cases s' <;> rfl
  | setText s' text press =>
    cases text with
    | none => exact sendOff_respects (setText_respects hr) press
    | some text =>
      refine (change_respects fun _ => ?_).bind fun _ =>
        sendOff_respects (setText_respects hr) press
      cases s <;> cases s' <;> rfl
  | destroyAll =>
    exact (Run.Respects.read _).bind fun _ =>
      .ite (destroyAll_respects.bind fun _ => .pure _) (.pure _)
  | escape =>
    exact (Run.Respects.read _).bind fun _ => .ite (quit_respects.bind fun _ => .pure _) (.pure _)
  | interrupt => exact quit_respects.bind fun _ => .pure _

end

section

variable {r : AppResponder κ σ κ} {w : World (App κ) (AppSubscriber κ) σ}

/-- The edit of a row is announced in full, whatever the subscribers do. -/
theorem exists_edit (hr : r.Respects (Lasts s)) (hi : ((control s).get w.state).Intact)
    (ha : ((control s).get w.state).alive = true) {e : Edit} {content : Content}
    {remark : Option Remark}
    (hd : Content.ofEdit ((control s).get w.state).derivation e = .ok (content, remark)) :
    ∃ w', edit s r e w = .ok ⟨⟩ w' ∧ Lasts s w w' :=
  Control.exists_update (p := control s)
    ((allows s (.panel s)).responder (responder_respects hr (.panel s))) hi ha hd

/-- A value is taken or reported, and then nothing is asked of the control any more. -/
theorem exists_setValue (hr : r.Respects (Lasts s)) (hi : ((control s).get w.state).Intact) :
    ∃ w', setValue s r w = .ok ⟨⟩ w' := by
  cases ha : ((control s).get w.state).alive with
  | false => exact ⟨w, setValue_of_not_alive ha⟩
  | true =>
    cases hp : parseValueEntry ((panel s).get w.state).valueField with
    | error e => exact ⟨_, setValue_of_error ha hp⟩
    | ok v =>
      obtain ⟨content, hd, hm, -, hvalue⟩ :=
        Content.exists_ofEntry ((control s).get w.state).derivation hp
      obtain ⟨shown, hs⟩ := Option.isSome_iff_exists.mp (Display.value?_of_made hm)
      rw [hvalue] at hs
      obtain ⟨w', hw, -⟩ := exists_edit hr hi ha hd
      rw [setValue_of_ok ha hp, Run.bind_of_ok hw, hs]
      exact ⟨_, rfl⟩

/-- A text is always taken, but then it is read again. -/
theorem setText_outcome (hr : r.Respects (Lasts s)) (hi : ((control s).get w.state).Intact)
    (hf : ((control s).get w.state).derivation.FaultsContent) :
    ∃ w', setText s r w =
      if ((control s).get w.state).alive = true ∧ ((control s).get w'.state).alive = false then
        .error (.controlDestroyed ((control s).get w.state).name) w'
      else .ok ⟨⟩ w' := by
  cases ha : ((control s).get w.state).alive with
  | false =>
    refine ⟨w, ?_⟩
    rw [if_neg (by simp)]
    exact setText_of_not_alive ha
  | true =>
    obtain ⟨content, remark, hd, -⟩ := Content.exists_ofText hf ((panel s).get w.state).textField
    obtain ⟨v, hv, hlasts⟩ := exists_edit (e := .text (.text _)) hr hi ha hd
    rw [setText_of_alive ha, Run.bind_of_ok hv]
    cases hav : ((control s).get v.state).alive with
    | true =>
      rw [Run.bind_of_ok (Control.text_of_alive (p := control s) hav)]
      generalize (_ : String) ++ "." = status
      have halive : ((control s).get { v.state with status }).alive = true := by
        cases s <;> exact hav
      refine ⟨{ v with state := { v.state with status } }, ?_⟩
      rw [if_neg (by simp [halive])]
      rfl
    | false =>
      refine ⟨v, ?_⟩
      rw [if_pos ⟨rfl, hav⟩, ← hlasts.name]
      exact Run.bind_of_error (Run.bind_of_error (Control.live_of_not_alive hav))

theorem sendOff_of_failed {press : Press} {row : AppRun κ σ PUnit} {e : Fault}
    {w' : World (App κ) (AppSubscriber κ) σ} (hp : AppAction.canPress w.state s press = true)
    (h : row w = .error e w') : sendOff s press row w = .error e w' :=
  (Run.bind_of_ok (Run.read_apply .whole w)).trans
    ((congrFun (if_pos hp) w).trans (Run.bind_of_error h))

variable [DecidableEq κ]

theorem perform_setValue_ok (hr : r.Respects (Lasts s)) (hi : ((control s).get w.state).Intact)
    (text : Option String) (press : Press) :
    ∃ w', (AppAction.setValue s text press).perform r w = .ok .none w' := by
  let filled := w.set (panel s)
    { (panel s).get w.state with valueField := text.getD ((panel s).get w.state).valueField }
  have hcontrol : (control s).get filled.state = (control s).get w.state := by cases s <;> rfl
  rw [perform_setValue]
  cases hp : AppAction.canPress filled.state s press with
  | false => exact ⟨filled, sendOff_of_not_pressed _ hp⟩
  | true =>
    obtain ⟨w', hw⟩ := exists_setValue (w := filled) hr (hcontrol ▸ hi)
    exact ⟨w', sendOff_of_pressed hp hw⟩

theorem perform_setText_outcome (hr : r.Respects (Lasts s)) (hi : ((control s).get w.state).Intact)
    (hf : ((control s).get w.state).derivation.FaultsContent) (text : Option String)
    (press : Press) : ∃ w', (AppAction.setText s text press).perform r w =
      if ((control s).get w.state).alive = true ∧ ((control s).get w'.state).alive = false then
        .error (.controlDestroyed ((control s).get w.state).name) w'
      else .ok .none w' := by
  let filled := w.set (panel s)
    { (panel s).get w.state with textField := text.getD ((panel s).get w.state).textField }
  have hcontrol : (control s).get filled.state = (control s).get w.state := by cases s <;> rfl
  rw [perform_setText, ← hcontrol]
  cases hp : AppAction.canPress filled.state s press with
  | false =>
    refine ⟨filled, ?_⟩
    rw [if_neg (by simp)]
    exact sendOff_of_not_pressed _ hp
  | true =>
    obtain ⟨w', hrow⟩ := setText_outcome (w := filled) hr (hcontrol ▸ hi) (hcontrol ▸ hf)
    refine ⟨w', ?_⟩
    split at hrow
    next hdied => exact (sendOff_of_failed hp hrow).trans (if_pos hdied).symm
    next hleft => exact (sendOff_of_pressed hp hrow).trans (if_neg hleft).symm

/-- A step taken in the window by its user or by one of the subscribers from outside, to whom the
`audience` lends their reactions. -/
abbrev step (audience : Audience κ σ (Step (AppAction κ))) (depth : Nat) :
    Step (AppAction κ) → AppRun κ σ Datum :=
  Step.performWithin (fun r a => a.perform r) audience depth

variable {audience : Audience κ σ (Step (AppAction κ))}

theorem exists_responder
    (ha : ∀ k payload, (audience.react k payload).All fun a => ¬a.EndsChannel s) (depth : Nat) :
    ∃ r : AppResponder κ σ κ, r.Respects (Lasts s) ∧
      step audience depth = Step.perform (fun r a => a.perform r) r :=
  Step.exists_responder (fun _ _ => .refl _) (fun _ => .refl _)
    (fun _ hr _ ha => perform_respects hr ha) ha depth

theorem step_respects (ha : ∀ k payload, (audience.react k payload).All fun a => ¬a.EndsChannel s)
    (depth : Nat) {a : Step (AppAction κ)} (hs : ¬a.EndsChannel s) :
    (step audience depth a).Respects (Lasts s) :=
  Step.performWithin_respects (fun _ _ => .refl _) (fun _ => .refl _)
    (fun _ hr _ ha => perform_respects hr ha) ha depth hs

end

end App

section

variable [DecidableEq κ]

/-- The world after steps have been taken in its window, whether or not they failed. -/
def World.stepped (audience : Audience κ σ (Step (AppAction κ))) (depth : Nat)
    (steps : List (Step (AppAction κ))) (w : World (App κ) (AppSubscriber κ) σ) :
    World (App κ) (AppSubscriber κ) σ :=
  steps.foldl (fun w a => (App.step audience depth a).final w) w

theorem World.stepped_lasts {audience : Audience κ σ (Step (AppAction κ))} {s : PanelSlot}
    (ha : ∀ k payload, (audience.react k payload).All fun a => ¬a.EndsChannel s) (depth : Nat)
    {steps : List (Step (AppAction κ))} (hs : ∀ a ∈ steps, ¬a.EndsChannel s)
    (w : World (App κ) (AppSubscriber κ) σ) : App.Lasts s w (w.stepped audience depth steps) := by
  induction steps generalizing w with
  | nil => exact .refl _
  | cons a steps ih =>
    refine (App.step_respects ha depth (hs a (by simp)) w).trans ?_
    exact ih (fun a' ha' => hs a' (List.mem_cons_of_mem a ha')) _

/-- Whatever has been done in the window and whatever its subscribers do, short of ending a channel
of the control on its own, the row that sets the value never fails. The row that sets the text fails
if the control is destroyed while the text is announced, and not otherwise. -/
theorem setter_rows_outcomes (audience : Audience κ σ (Step (AppAction κ))) (depth : Nat)
    (s : PanelSlot) (ha : ∀ k payload, (audience.react k payload).All fun a => ¬a.EndsChannel s)
    (steps : List (Step (AppAction κ))) (hs : ∀ a ∈ steps, ¬a.EndsChannel s) (m : σ)
    (text : Option String) (press : Press) :
    let w := (World.opened m).stepped audience depth steps
    (∃ w', App.step audience depth (.act (.setValue s text press)) w = .ok .none w') ∧
    let w' := (App.step audience depth (.act (.setText s text press))).final w
    App.step audience depth (.act (.setText s text press)) w =
      if ((App.control s).get w.state).alive = true ∧
        ((App.control s).get w'.state).alive = false then
        .error (.controlDestroyed (BoxSlot.panel s).title) w'
      else .ok .none w' := by
  intro w
  obtain ⟨hintact, hname, hderivation⟩ := App.control_create (κ := κ) s
  have hlasts : App.Lasts s (World.opened m) w := World.stepped_lasts ha depth hs _
  obtain ⟨r, hr, hstep⟩ := App.exists_responder ha depth
  have hfaults : ((App.control s).get w.state).derivation.FaultsContent := by
    rw [hlasts.derivation, show (World.opened m).state = App.create from rfl, hderivation]
    exact ControlKind.faultsContent _
  have htitle : ((App.control s).get w.state).name = (BoxSlot.panel s).title :=
    hlasts.name.trans hname
  rw [hstep, ← htitle]
  refine ⟨App.perform_setValue_ok hr (hlasts.intact hintact) text press, ?_⟩
  intro w'
  obtain ⟨v, h⟩ := App.perform_setText_outcome hr (hlasts.intact hintact) hfaults text press
  obtain rfl : w' = v := Run.final_of_ite h
  exact h

end

def boxDestroyer (s : PanelSlot) : Audience Unit Unit (Step (AppAction Unit)) where
  label _ := "destroyer"
  react _ _ := .steps false [.act (.box (.panel s) .destroy)]

theorem all_boxDestroyer (s : PanelSlot) (k : Unit) (payload : Datum) :
    ((boxDestroyer s).react k payload).All fun a => ¬a.EndsChannel s :=
  ⟨id, fun r => by cases r <;> trivial⟩

def subscribing (s : PanelSlot) : Step (AppAction Unit) :=
  .act (.box (.panel s) (.control (.channel .text (.on (.subscriber ())))))

/-- The control is destroyed while a row announces its edit. The row that sets the value takes no
notice, the row that sets the text fails. -/
theorem destroyed_within_rows :
    let w := (World.opened ()).stepped (boxDestroyer .numeric) 1 [subscribing .numeric]
    let value := App.step (boxDestroyer .numeric) 1 (.act (.setValue .numeric (some "1") .button))
    let text := App.step (boxDestroyer .numeric) 1 (.act (.setText .numeric (some "1") .button))
    (value w = .ok .none (value.final w) ∧
      ((App.control .numeric).get (value.final w).state).alive = false) ∧
      text w = .error (.controlDestroyed "Numeric Input") (text.final w) := by
  obtain ⟨⟨w', hvalue⟩, htext⟩ := setter_rows_outcomes (boxDestroyer .numeric) 1 .numeric
    (all_boxDestroyer .numeric) [subscribing .numeric] (by simp [subscribing, Step.EndsChannel]) ()
    (some "1") .button
  dsimp only at htext ⊢
  rw [if_pos (by decide +kernel)] at htext
  refine ⟨⟨?_, by decide +kernel⟩, htext⟩
  rw [Run.final_of_ok hvalue]
  exact hvalue

theorem text_row_fails :
    ((App.step (boxDestroyer .numeric) 1 (.act (.setText .numeric (some "x") .button))).attempt
      ((World.opened ()).stepped (boxDestroyer .numeric) 1 [subscribing .numeric])) matches
        .ok (.error (.controlDestroyed "Numeric Input")) _ := by
  decide +kernel

end FormulaEntry
