import FormulaEntry.Control
import FormulaEntry.Host

/-! Boxes. A box shows a control in an entry field with a border, and calculators
with a readout of the result. Border and background show focus and validity. -/

namespace FormulaEntry

namespace Colour

def border : String := "#b8b8b8"

def activeBorder : String := "#3d7dca"

def errorBorder : String := "#cc4444"

def entry : String := "#ffffff"

def errorEntry : String := "#ffeaea"

def result : String := "#34495e"

def errorResult : String := "#bf2a2a"

end Colour

/-- The border's colours without and with the focus; the latter is unset until first painted. -/
structure Border where
  resting : String
  focused : Option String
deriving DecidableEq, Repr

structure Readout where
  text : String
  colour : String
deriving DecidableEq, Repr

/-- A box's own subscribers, and those of its surroundings. -/
inductive BoxSubscriber (κ : Type) where
  | result
  | entry
  | validity
  | other (k : κ)
deriving DecidableEq

abbrev BoxRun (S κ σ : Type) := Run S (BoxSubscriber κ) σ

abbrev BoxResponder (S κ σ ι : Type) := Responder S (BoxSubscriber κ) σ ι

structure Box (κ : Type) where
  control : Control (BoxSubscriber κ)
  /-- The widget that the box sits in, unless it sits in the window itself. -/
  host : Option String
  alive : Bool
  active : Bool
  entry : String
  entryColour : String
  border : Border
  readout : Option Readout
  /-- Whether writing the entry is watched. -/
  watched : Bool
  /-- Whether a write is being handled, during which further ones are not. -/
  handling : Bool
  writingBack : Bool

namespace Box

variable {κ : Type}

def ownSubscribers : Field → List (BoxSubscriber κ)
  | .value => [.result]
  | .text => [.entry]
  | .isValid => [.validity]

/-- A new box, with further subscribers after its own. Unless asked otherwise,
calculators show the result. -/
def create (kind : ControlKind) (name : Option String) (host : Option String)
    (showResult : Option Bool) (others : Field → List κ) : Box κ where
  control := .create (Control.nameOr kind.defaultName name) kind.derivation fun f =>
    ownSubscribers f ++ (others f).map .other
  host
  alive := true
  active := false
  entry := ""
  entryColour := Colour.entry
  border := ⟨Colour.border, none⟩
  readout := if showResult.getD (kind == .calculator) then some ⟨"", Colour.result⟩ else none
  watched := true
  handling := false
  writingBack := false

/-- A box in the host given, or in the window itself. -/
def createIn (widgets : List String) (host : Option Host) (kind : ControlKind)
    (name : Option String) (showResult : Option Bool) (others : Field → List κ) :
    Except Fault (Box κ) :=
  match host with
  | none => .ok (create kind name none showResult others)
  | some host => do return create kind name (← resolveHost widgets host) showResult others

def controlPart : Part (Box κ) (Control (BoxSubscriber κ)) where
  get := control
  set c b := { b with control := c }
  get_set _ _ := rfl
  set_get _ := rfl
  set_set _ _ _ := rfl

end Box

end FormulaEntry
