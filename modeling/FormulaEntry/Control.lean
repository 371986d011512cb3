import FormulaEntry.Channel

/-! Controls. An edit is derived first and then stored whole, and only after that
are the channels of the fields it changed triggered: value, text, validity. A
subscriber may edit the control again or destroy it; notifications still to come
are dropped once the control is destroyed. -/

namespace FormulaEntry

structure Control (κ : Type) where
  name : String
  derivation : Derivation
  alive : Bool
  content : Content
  valueChanged : Channel κ
  textChanged : Channel κ
  isValidChanged : Channel κ

/-- The kinds of control, each with its derivation and the name it has by default. -/
inductive ControlKind where
  | plain
  | numeric
  | calculator
deriving DecidableEq, Repr

namespace ControlKind

def derivation : ControlKind → Derivation
  | plain | numeric => .number
  | calculator => .formula

def defaultName : ControlKind → String
  | plain => "InputControl"
  | numeric => "NumericInput"
  | calculator => "CalcInput"

end ControlKind

namespace Control

variable {S κ σ : Type}

def nameOr (default : String) (name : Option String) : String :=
  match name with
  | some s => if s.isEmpty then default else s
  | none => default

def create (name : String) (derivation : Derivation) (subscribers : Field → List κ) :
    Control κ where
  name
  derivation
  alive := true
  content := .initial
  valueChanged := .create (name ++ ".value_changed") (subscribers .value)
  textChanged := .create (name ++ ".text_changed") (subscribers .text)
  isValidChanged := .create (name ++ ".is_valid_changed") (subscribers .isValid)

/-- A control needs a host to live on. -/
def createOn (hosted : Bool) (name : String) (derivation : Derivation)
    (subscribers : Field → List κ) : Except Fault (Control κ) :=
  if hosted then .ok (create name derivation subscribers) else .error (.hostMissing none)

def channel : Field → Part (Control κ) (Channel κ)
  | .value => ⟨valueChanged, fun a c => { c with valueChanged := a },
      fun _ _ => rfl, fun _ => rfl, fun _ _ _ => rfl⟩
  | .text => ⟨textChanged, fun a c => { c with textChanged := a },
      fun _ _ => rfl, fun _ => rfl, fun _ _ _ => rfl⟩
  | .isValid => ⟨isValidChanged, fun a c => { c with isValidChanged := a },
      fun _ _ => rfl, fun _ => rfl, fun _ _ _ => rfl⟩

def live (p : Part S (Control κ)) : Run S κ σ (Control κ) := do
  let c ← Run.read p
  if c.alive then return c else throw (.controlDestroyed c.name)

def emit (p : Part S (Control κ)) (r : Responder S κ σ κ) (f : Field) (payload : Datum) :
    Run S κ σ PUnit := do
  if (← Run.read p).alive then Channel.trigger (p.andThen (channel f)) r payload

def emitAll (p : Part S (Control κ)) (r : Responder S κ σ κ) (content : Content) :
    List Field → Run S κ σ PUnit
  | [] => pure ()
  | f :: fs => do
    emit p r f (content.get f)
    emitAll p r content fs

def store (p : Part S (Control κ)) (edit : Edit) (content : Content) : Run S κ σ PUnit := do
  let c ← Run.read p
  Run.write p { c with content }
  Run.record (.stored c.name edit c.content content)

def update (p : Part S (Control κ)) (r : Responder S κ σ κ) (edit : Edit) : Run S κ σ PUnit := do
  let c ← live p
  let (content, remark) ← Run.ofExcept (Content.ofEdit c.derivation edit)
  if let some remark := remark then Run.log .debug (c.name ++ ": " ++ remark.message) none
  store p edit content
  emitAll p r content (c.content.changes content)

def destroy (p : Part S (Control κ)) : Run S κ σ PUnit := do
  let c ← live p
  Run.change p fun c => { c with alive := false }
  Channel.destroy (p.andThen (channel .value))
  Channel.destroy (p.andThen (channel .text))
  Channel.destroy (p.andThen (channel .isValid))
  Run.change p fun c => { c with content := { c.content with value := .empty, text := "" } }
  Run.record (.destroyed c.name)
  Run.log .debug (c.name ++ " destroyed") none

/-- Focus concerns the presentation only. -/
def notifyFocus (p : Part S (Control κ)) (focused : Bool) : Run S κ σ PUnit := do
  let c ← live p
  Run.log .debug (c.name ++ " focus=" ++ (if focused then "True" else "False")) none

def text (p : Part S (Control κ)) : Run S κ σ String := do return (← live p).content.text

def resultText (p : Part S (Control κ)) : Run S κ σ String := do
  Run.ofExcept (orTooLong (← live p).content.resultText?)

/-- The control as log messages and the like show it. -/
def shown? (c : Control κ) : Option String := do
  if c.alive then
    let value ← c.content.value.toDatum.shown?
    return "<" ++ c.name ++ " value=" ++ value ++ " text=" ++ Text.quoted c.content.text ++
      " is_valid=" ++ (if c.content.isValid then "True" else "False") ++ ">"
  else return "<" ++ c.name ++ " destroyed>"

end Control

inductive Attribute where
  | field (f : Field)
  | host
  | derivation
  | resultText
  | name
  | destroyed

inductive ControlAction (κ : Type) where
  | channel (f : Field) (a : ChannelAction κ)
  | edit (e : Edit)
  /-- Assigns the text the control has. -/
  | retype
  | read (a : Attribute)
  | focus (focused : Bool)
  | destroy

namespace ControlAction

variable {S ι κ σ : Type}

def map (f : ι → κ) : ControlAction ι → ControlAction κ
  | channel field a => .channel field (a.map f)
  | edit e => .edit e
  | retype => .retype
  | read a => .read a
  | focus focused => .focus focused
  | destroy => .destroy

def readAttribute (p : Part S (Control κ)) : Attribute → Run S κ σ Datum
  | .field f => do return (← Control.live p).content.get f
  | .host => do let _ ← Control.live p; return .object
  | .derivation => do return .text (← Control.live p).derivation.label
  | .resultText => do return .text (← Control.resultText p)
  | .name => do return .text (← Run.read p).name
  | .destroyed => do return .flag !(← Run.read p).alive

def perform [DecidableEq κ] (p : Part S (Control κ)) (r : Responder S κ σ κ) :
    ControlAction κ → Run S κ σ Datum
  | channel f a => a.perform (p.andThen (Control.channel f)) r
  | edit e => do Control.update p r e; return .none
  | retype => do Control.update p r (.text (.text (← Control.text p))); return .none
  | read a => readAttribute p a
  | focus focused => do Control.notifyFocus p focused; return .none
  | destroy => do Control.destroy p; return .none

end ControlAction

end FormulaEntry
