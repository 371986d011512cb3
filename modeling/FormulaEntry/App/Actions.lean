import FormulaEntry.App.Basic
import FormulaEntry.Box.Binding

/-! What happens in the window: readouts follow the notifications of their control,
rows assign to it, and the window takes every control with it when it goes. -/

namespace FormulaEntry

namespace App

variable {κ σ : Type}

def setStatus (status : String) : AppRun κ σ PUnit :=
  Run.change .whole fun a => { a with status }

def showReadout (s : PanelSlot) (f : Field) (payload : Datum) : AppRun κ σ PUnit := do
  match f with
  | .value =>
    let shown ← Run.ofExcept (orTooLong (Display.value? payload))
    Run.change (panel s) fun p => { p with readouts := { p.readouts with value := shown } }
  | .text =>
    let shown ← Run.ofExcept (orTooLong (Display.textOf? payload))
    Run.change (panel s) fun p => { p with readouts := { p.readouts with text := shown } }
  | .isValid =>
    let shown := Display.validity payload.isTruthy
    Run.change (panel s) fun p => { p with readouts := { p.readouts with isValid := shown } }

/-- Calls of the readouts in one panel; the others are left to `r`. -/
def panelResponder (s : PanelSlot) (r : AppResponder κ σ κ) :
    AppResponder κ σ (PanelSubscriber κ) where
  label
    | .readout _ => "readout"
    | .outside k => r.label k
  call
    | .readout f, payload => do showReadout s f payload; return false
    | .outside k, payload => r.call k payload

/-- Boxes of their own have outside subscribers only. -/
def customResponder (r : AppResponder κ σ κ) :
    AppResponder κ σ (PanelSubscriber κ) where
  label
    | .readout _ => "readout"
    | .outside k => r.label k
  call
    | .readout _, _ => return false
    | .outside k, payload => r.call k payload

def responder (r : AppResponder κ σ κ) :
    BoxSlot → AppResponder κ σ (PanelSubscriber κ)
  | .panel s => panelResponder s r
  | .customNumeric | .customCalculator => customResponder r

def edit (s : PanelSlot) (r : AppResponder κ σ κ) (e : Edit) : AppRun κ σ PUnit :=
  Control.update (control s) (Box.responder (box (.panel s)) (panelResponder s r)) e

/-- The row that sets the value; a text that is no number touches the status bar only. -/
def setValue (s : PanelSlot) (r : AppResponder κ σ κ) : AppRun κ σ PUnit := do
  let p ← Run.read (panel s)
  if p.box.control.alive then
    match parseValueEntry p.valueField with
    | .error _ =>
      setStatus ("Cannot assign value: " ++ Text.quoted p.valueField ++ " is not a number.")
    | .ok v =>
      let value := v.elim Datum.none fun x => .number (.double x)
      edit s r (.value value)
      let shown ← Run.ofExcept (orTooLong (Display.value? value))
      setStatus ("Value of " ++ (BoxSlot.panel s).title ++ " set to " ++ shown ++ ".")

def setText (s : PanelSlot) (r : AppResponder κ σ κ) : AppRun κ σ PUnit := do
  let p ← Run.read (panel s)
  if p.box.control.alive then
    edit s r (.text (.text p.textField))
    let text ← Control.text (control s)
    setStatus ("Text of " ++ (BoxSlot.panel s).title ++ " set to " ++ Display.text text ++ ".")

def destroyBox (slot : BoxSlot) : AppRun κ σ PUnit := Box.destroy (box slot)

def disableSetters (s : PanelSlot) : AppRun κ σ PUnit :=
  Run.change (panel s) fun p => { p with settersEnabled := false }

def destroyAll : AppRun κ σ PUnit := do
  destroyBox (.panel .numeric)
  disableSetters .numeric
  destroyBox (.panel .calculator)
  disableSetters .calculator
  destroyBox .customNumeric
  destroyBox .customCalculator
  Run.change .whole fun a => { a with destroyEnabled := false }
  setStatus "All controls destroyed."
  Run.log .info ("destroyed " ++ toString BoxSlot.all.length ++ " controls") none

/-- Leaves the event loop and closes the window, which destroys every box in it. -/
def quit : AppRun κ σ PUnit := do
  Run.change .whole fun a => { a with quits := a.quits + 1 }
  destroyBox (.panel .numeric)
  destroyBox (.panel .calculator)
  destroyBox .customNumeric
  destroyBox .customCalculator
  Run.change .whole fun a => { a with alive := false }

end App

/-- How a row is sent off: by its button, or by Return in its field. -/
inductive Press where
  | button
  | returnKey
deriving DecidableEq, Repr

/-- What can be done in the window. A row may be filled in before it is sent off. -/
inductive AppAction (κ : Type) where
  | box (slot : BoxSlot) (a : BoxAction κ)
  | setValue (s : PanelSlot) (text : Option String) (press : Press)
  | setText (s : PanelSlot) (text : Option String) (press : Press)
  | destroyAll
  | escape
  | interrupt

namespace AppAction

variable {κ σ : Type}

/-- Buttons can be pressed while enabled, fields used while they exist. -/
def canPress (a : App κ) (s : PanelSlot) : Press → Bool
  | .button => a.alive && ((App.panel s).get a).settersEnabled
  | .returnKey => a.alive

def perform [DecidableEq κ] (r : AppResponder κ σ κ) :
    AppAction κ → AppRun κ σ Datum
  | box slot a => (a.map .outside).perform (App.box slot) (App.responder r slot)
  | setValue s text press => do
    if let some text := text then Run.change (App.panel s) fun p => { p with valueField := text }
    if canPress (← Run.read .whole) s press then App.setValue s r
    return .none
  | setText s text press => do
    if let some text := text then Run.change (App.panel s) fun p => { p with textField := text }
    if canPress (← Run.read .whole) s press then App.setText s r
    return .none
  | destroyAll => do
    let a ← Run.read .whole
    if a.alive && a.destroyEnabled then App.destroyAll
    return .none
  | escape => do
    if (← Run.read .whole).alive then
      App.quit
      return .list [.text "break"]
    else return .list []
  | interrupt => do App.quit; return .none

end AppAction

end FormulaEntry
