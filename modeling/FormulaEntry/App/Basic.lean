import FormulaEntry.Box.Basic
import FormulaEntry.Display

/-! The application window: two panels, each a box with readouts of its control and
rows to set value and text, two boxes of their own, a button that destroys every
control, and a status bar. -/

namespace FormulaEntry

/-- A panel's own subscribers, and those from outside. -/
inductive PanelSubscriber (κ : Type) where
  | readout (f : Field)
  | outside (k : κ)
deriving DecidableEq

/-- What a panel shows of its control. -/
structure Readouts where
  value : String
  text : String
  isValid : String
deriving DecidableEq, Repr

structure Panel (κ : Type) where
  box : Box (PanelSubscriber κ)
  readouts : Readouts
  /-- The fields of the rows that set value and text. -/
  valueField : String
  textField : String
  settersEnabled : Bool

inductive PanelSlot where
  | numeric
  | calculator
deriving DecidableEq, Repr

inductive BoxSlot where
  | panel (s : PanelSlot)
  | customNumeric
  | customCalculator
deriving DecidableEq, Repr

namespace BoxSlot

/-- In the order in which they are built and destroyed. -/
def all : List BoxSlot :=
  [.panel .numeric, .panel .calculator, .customNumeric, .customCalculator]

def title : BoxSlot → String
  | panel .numeric => "Numeric Input"
  | panel .calculator => "Calculator Input"
  | customNumeric => "Custom Numeric Input"
  | customCalculator => "Custom Calculator Input"

def kind : BoxSlot → ControlKind
  | panel .numeric | customNumeric => .numeric
  | panel .calculator | customCalculator => .calculator

end BoxSlot

structure App (κ : Type) where
  numeric : Panel κ
  calculator : Panel κ
  customNumeric : Box (PanelSubscriber κ)
  customCalculator : Box (PanelSubscriber κ)
  status : String
  destroyEnabled : Bool
  quits : Nat
  alive : Bool

namespace Panel

variable {κ : Type}

def create (slot : PanelSlot) : Panel κ where
  box :=
    .create (BoxSlot.panel slot).kind (some (BoxSlot.panel slot).title) none none
      fun f => [.readout f]
  readouts := ⟨"(empty)", Display.text "", Display.validity true⟩
  valueField := ""
  textField := ""
  settersEnabled := true

def boxPart : Part (Panel κ) (Box (PanelSubscriber κ)) where
  get := box
  set b p := { p with box := b }
  get_set _ _ := rfl
  set_get _ := rfl
  set_set _ _ _ := rfl

end Panel

/-- Everyone who may be subscribed in the window. -/
abbrev AppSubscriber (κ : Type) := BoxSubscriber (PanelSubscriber κ)

abbrev AppRun (κ σ : Type) := Run (App κ) (AppSubscriber κ) σ

abbrev AppResponder (κ σ ι : Type) := Responder (App κ) (AppSubscriber κ) σ ι

namespace App

variable {κ : Type}

def title : String := "Numeric and Calculator Inputs"

def create : App κ :=
  let custom (slot : BoxSlot) : Box (PanelSubscriber κ) :=
    Box.create slot.kind (some slot.title) none none fun _ => []
  { numeric := .create .numeric
    calculator := .create .calculator
    customNumeric := custom .customNumeric
    customCalculator := custom .customCalculator
    status := "Type a number or a formula such as (2+3)*4."
    destroyEnabled := true
    quits := 0
    alive := true }

def panel : PanelSlot → Part (App κ) (Panel κ)
  | .numeric => ⟨numeric, fun a s => { s with numeric := a },
      fun _ _ => rfl, fun _ => rfl, fun _ _ _ => rfl⟩
  | .calculator => ⟨calculator, fun a s => { s with calculator := a },
      fun _ _ => rfl, fun _ => rfl, fun _ _ _ => rfl⟩

def box : BoxSlot → Part (App κ) (Box (PanelSubscriber κ))
  | .panel s => (panel s).andThen Panel.boxPart
  | .customNumeric => ⟨customNumeric, fun a s => { s with customNumeric := a },
      fun _ _ => rfl, fun _ => rfl, fun _ _ _ => rfl⟩
  | .customCalculator => ⟨customCalculator, fun a s => { s with customCalculator := a },
      fun _ _ => rfl, fun _ => rfl, fun _ _ _ => rfl⟩

def control (s : PanelSlot) : Part (App κ) (Control (AppSubscriber κ)) :=
  (box (.panel s)).andThen Box.controlPart

end App

end FormulaEntry
