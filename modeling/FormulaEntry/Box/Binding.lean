import FormulaEntry.Box.Basic

/-! How a box and its control are bound. What is typed goes to the control; what
changes in the control goes to the entry, and the flag `writingBack` keeps that
from coming back as if typed. -/

namespace FormulaEntry

namespace Box

variable {S κ σ : Type} (p : Part S (Box κ))

def refreshResult : BoxRun S κ σ PUnit := do
  if (← Run.read p).readout.isSome then
    let text ← Control.resultText (p.andThen controlPart)
    let isValid := (← Run.read p).control.content.isValid
    let colour := if isValid then Colour.result else Colour.errorResult
    Run.change p fun b => { b with readout := some ⟨text, colour⟩ }

def paintBorder : BoxRun S κ σ PUnit :=
  Run.change p fun b =>
    let colour :=
      if b.control.alive && !b.control.content.isValid then Colour.errorBorder
      else if b.active then Colour.activeBorder
      else Colour.border
    { b with border := ⟨colour, some colour⟩ }

def showValidity (isValid : Bool) : BoxRun S κ σ PUnit := do
  let colour := if isValid then Colour.entry else Colour.errorEntry
  Run.change p fun b => { b with entryColour := colour }
  paintBorder p
  refreshResult p

/-- Puts `s` into the entry. A watched write that does not come from the control
itself, nor while another is handled, is passed on to `setText`. -/
def writeEntry (setText : String → BoxRun S κ σ PUnit) (s : String) :
    BoxRun S κ σ PUnit := do
  Run.change p fun b => { b with entry := s }
  let b ← Run.read p
  if b.watched && !b.handling then
    Run.change p fun b => { b with handling := true }
    Run.ensuring (unless b.writingBack || !b.control.alive do setText b.entry)
      (Run.change p fun b => { b with handling := false })

def showText (setText : String → BoxRun S κ σ PUnit) (text : Datum) :
    BoxRun S κ σ PUnit := do
  let b ← Run.read p
  let same := match text with
    | .text s => b.entry == s
    | _ => false
  unless same do
    Run.change p fun b => { b with writingBack := true }
    Run.ensuring (do writeEntry p setText (← Run.ofExcept (orTooLong text.text?)))
      (Run.change p fun b => { b with writingBack := false })

/-- Calls of the box's own subscribers; all others are left to `r`. -/
def responderVia (setText : String → BoxRun S κ σ PUnit) (r : BoxResponder S κ σ κ) :
    BoxResponder S κ σ (BoxSubscriber κ) where
  label
    | .result => "result"
    | .entry => "entry"
    | .validity => "validity"
    | .other k => r.label k
  call
    | .result, _ => do refreshResult p; return false
    | .entry, text => do showText p setText text; return false
    | .validity, isValid => do showValidity p isValid.isTruthy; return false
    | .other k, payload => r.call k payload

def setText (r : BoxResponder S κ σ (BoxSubscriber κ)) (s : String) : BoxRun S κ σ PUnit :=
  Control.update (p.andThen controlPart) r (.text (.text s))

/-- A text written back would be assigned again if it were passed on. It never is,
so one level of assignments within assignments says all that can happen. -/
def responder (r : BoxResponder S κ σ κ) : BoxResponder S κ σ (BoxSubscriber κ) :=
  responderVia p (setText p (responderVia p (fun _ => pure ()) r)) r

/-- The entry can be typed into while it exists. -/
def type (r : BoxResponder S κ σ κ) (s : String) : BoxRun S κ σ PUnit := do
  if (← Run.read p).alive then writeEntry p (setText p (responder p r)) s

def setActive (active : Bool) : BoxRun S κ σ PUnit := do
  if (← Run.read p).alive then
    Run.change p fun b => { b with active }
    paintBorder p
    if (← Run.read p).control.alive then
      Control.notifyFocus (p.andThen controlPart) active

def unwatch : BoxRun S κ σ PUnit := Run.change p fun b => { b with watched := false }

/-- Destroys the control with the box. It does no harm to do so again. -/
def destroy : BoxRun S κ σ PUnit := do
  let b ← Run.read p
  if b.control.alive then
    if b.watched then unwatch p
    else Run.log .debug ("trace already removed for " ++ b.control.name) none
    Control.destroy (p.andThen controlPart)
  Run.change p fun b => { b with alive := false }

end Box

inductive BoxAction (κ : Type) where
  | control (a : ControlAction κ)
  | type (s : String)
  | focus (focused : Bool)
  | destroy
  | unwatch

namespace BoxAction

variable {S ι κ σ : Type}

def map (f : ι → κ) : BoxAction ι → BoxAction κ
  | control a => .control (a.map f)
  | type s => .type s
  | focus focused => .focus focused
  | destroy => .destroy
  | unwatch => .unwatch

def perform [DecidableEq κ] (p : Part S (Box κ)) (r : BoxResponder S κ σ κ) :
    BoxAction κ → BoxRun S κ σ Datum
  | control a => (a.map .other).perform (p.andThen Box.controlPart) (Box.responder p r)
  | type s => do Box.type p r s; return .none
  | focus focused => do Box.setActive p focused; return .none
  | destroy => do Box.destroy p; return .none
  | unwatch => do Box.unwatch p; return .none

end BoxAction

end FormulaEntry
