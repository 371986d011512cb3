import FormulaEntry.Proofs.App.Gesture

/-! What the panels show. The readouts are told of what changes in the control and of nothing else,
and in a window that has been used for any length of time they still show the control as it is. What
is no number never gets that far. -/

namespace FormulaEntry

variable {κ σ : Type}

namespace App

theorem canPress_fill (a : App κ) (s : PanelSlot) (text : String) (press : Press) :
    AppAction.canPress ((panel s).set { (panel s).get a with valueField := text } a) s press =
      AppAction.canPress a s press := by
  cases press <;> cases s <;> rfl

/-- A value that is refused is reported in the status bar, and nothing else comes of it. -/
theorem perform_setValue_of_error [DecidableEq κ] (r : AppResponder κ σ κ)
    (w : World (App κ) (AppSubscriber κ) σ) (s : PanelSlot) (text : Option String) (press : Press)
    {e : Fault} (he : parseValueEntry (text.getD ((panel s).get w.state).valueField) = .error e) :
    (AppAction.setValue s text press).perform r w = .ok .none { w with state :=
      { (panel s).set { (panel s).get w.state with
          valueField := text.getD ((panel s).get w.state).valueField } w.state with
        status :=
          if AppAction.canPress w.state s press && ((control s).get w.state).alive then
            "Cannot assign value: " ++ Text.quoted (text.getD ((panel s).get w.state).valueField) ++
              " is not a number."
          else w.state.status } } := by
  let filled := w.set (panel s) { (panel s).get w.state with
    valueField := text.getD ((panel s).get w.state).valueField }
  have hfield :
      ((panel s).get filled.state).valueField = text.getD ((panel s).get w.state).valueField := by
    rw [World.get_set]
  have hcontrol : ((panel s).get filled.state).box.control = (control s).get w.state := by
    rw [World.get_set]
    rfl
  have hunsent : filled = { w with state := { filled.state with status := w.state.status } } := by
    cases s <;> rfl
  rw [perform_setValue]
  cases hp : AppAction.canPress w.state s press with
  | false =>
    refine (sendOff_of_not_pressed _ ((canPress_fill _ _ _ _).trans hp)).trans ?_
    exact congrArg (EStateM.Result.ok Datum.none) hunsent
  | true =>
    have hpressed : AppAction.canPress filled.state s press = true :=
      (canPress_fill _ _ _ _).trans hp
    rw [← hcontrol]
    cases ha : ((panel s).get filled.state).box.control.alive with
    | false =>
      refine (sendOff_of_pressed hpressed (setValue_of_not_alive ha)).trans ?_
      exact congrArg (EStateM.Result.ok Datum.none) hunsent
    | true =>
      rw [← hfield] at he
      refine (sendOff_of_pressed hpressed (setValue_of_error ha he)).trans ?_
      rw [hfield]
      rfl

end App

/-- For as long as its control lives a panel shows the control's text and validity, and its value
but for the sign of a zero, whatever has been done in the window. A value that is no number changes
nothing but the status bar and the field it was put in. -/
theorem readouts_show_control [DecidableEq κ] (r : AppResponder κ σ κ) (m : σ) (gs : List Gesture) :
    let w := (World.opened m).gestured r gs
    (∀ s, ((App.control s).get w.state).alive = true →
      ((App.panel s).get w.state).readouts.Shows ((App.control s).get w.state).content) ∧
    ∀ s text press e,
      parseValueEntry (text.getD ((App.panel s).get w.state).valueField) = .error e →
      (AppAction.setValue s text press).perform r w = .ok .none { w with state :=
        { (App.panel s).set { (App.panel s).get w.state with
            valueField := text.getD ((App.panel s).get w.state).valueField } w.state with
          status :=
            if AppAction.canPress w.state s press && ((App.control s).get w.state).alive then
              "Cannot assign value: " ++
                Text.quoted (text.getD ((App.panel s).get w.state).valueField) ++
                " is not a number."
            else w.state.status } } := by
  intro w
  have hopened : (World.opened m : World (App κ) (AppSubscriber κ) σ).state.Fit := App.fit_create
  obtain ⟨hfit, -⟩ := World.gestured_fit hopened r gs
  refine ⟨fun s ha => ?_, fun s text press e he =>
    App.perform_setValue_of_error r w s text press he⟩
  exact ((hfit.cells (.panel s)).live ha).shown _ rfl

/-- A zero that gets a sign goes unnoticed by the readout of the value, and a word set as the value
by everything but the status bar. -/
theorem signed_zero_shown_without_sign :
    let nobody : AppResponder Empty Unit Empty := ⟨nofun, nofun⟩
    let w := (World.opened ()).gestured nobody
      [.type (.panel .numeric) "0", .type (.panel .numeric) "-0"]
    (w.state.numeric.readouts = ⟨"0.0", "-0", "valid"⟩ ∧
      w.state.numeric.readouts.Shows w.state.numeric.box.control.content) ∧
    (AppAction.setValue .numeric (some "x") .button).perform nobody w = .ok .none { w with state :=
      { w.state with
        numeric := { w.state.numeric with valueField := "x" }
        status := "Cannot assign value: 'x' is not a number." } } := by
  obtain ⟨hshows, herror⟩ :=
    readouts_show_control (⟨nofun, nofun⟩ : AppResponder Empty Unit Empty) ()
    [.type (.panel .numeric) "0", .type (.panel .numeric) "-0"]
  refine ⟨⟨by decide +kernel, hshows .numeric (by decide +kernel)⟩, ?_⟩
  have hmessage : "Cannot assign value: " ++ Text.quoted "x" ++ " is not a number." =
      "Cannot assign value: 'x' is not a number." := by decide +kernel
  have hrefused := herror .numeric (some "x") .button (.notNumber "x") rfl
  dsimp only [Option.getD_some, App.panel] at hrefused
  rwa [if_pos (by decide +kernel), hmessage] at hrefused

end FormulaEntry
