import FormulaEntry.Content
import FormulaEntry.Log
import FormulaEntry.Part

/-! Runs. A run changes a state of type `S` in a world where subscribers, named by
keys of type `κ`, keep a memory of type `σ`. It may fail, and what was done before
the failure stays done. The world's history records what happened, newest first,
so that laws can speak of the moments within a run. -/

namespace FormulaEntry

/-- What became of a channel's subscribers. -/
inductive Alteration (κ : Type) where
  | added (k : κ)
  /-- Every subscription of `k` went. -/
  | removed (k : κ)
  | ended
deriving DecidableEq

inductive Event (S κ : Type) where
  /-- An edit replaced the content of a control. -/
  | stored (control : String) (edit : Edit) (before after : Content)
  | destroyed (control : String)
  | altered (channel : String) (a : Alteration κ)
  /-- A channel began to deliver a payload. -/
  | opened (channel : String) (payload : Datum)
  | closed (channel : String)
  /-- A subscriber was called, and this is the state it found. -/
  | called (channel : String) (subscriber : κ) (payload : Datum) (found : S)
  | logged (record : LogRecord)
  /-- Somebody asked for the state to be noted. -/
  | noted (found : S)

structure World (S κ σ : Type) where
  state : S
  memory : σ
  history : List (Event S κ)

abbrev Run (S κ σ : Type) := EStateM Fault (World S κ σ)

namespace Run

variable {S κ σ A α : Type}

def read (p : Part S A) : Run S κ σ A := do return p.get (← get).state

def write (p : Part S A) (a : A) : Run S κ σ PUnit :=
  modify fun w => { w with state := p.set a w.state }

def change (p : Part S A) (f : A → A) : Run S κ σ PUnit :=
  modify fun w => { w with state := p.set (f (p.get w.state)) w.state }

def record (e : Event S κ) : Run S κ σ PUnit :=
  modify fun w => { w with history := e :: w.history }

def log (level : Level) (message : String) (cause : Option Fault) : Run S κ σ PUnit :=
  record (.logged ⟨level, message, cause⟩)

def memory : Run S κ σ σ := do return (← get).memory

def remember (m : σ) : Run S κ σ PUnit := modify fun w => { w with memory := m }

def ofExcept : Except Fault α → Run S κ σ α
  | .ok a => pure a
  | .error f => throw f

/-- A failed run as a result, with all it did. -/
def attempt (x : Run S κ σ α) : Run S κ σ (Except Fault α) := fun w =>
  match x w with
  | .ok a w => .ok (.ok a) w
  | .error f w => .ok (.error f) w

/-- `last` comes after `x` even if `x` fails. -/
def ensuring (x : Run S κ σ α) (last : Run S κ σ PUnit) : Run S κ σ α := do
  let r ← attempt x
  last
  ofExcept r

end Run

end FormulaEntry
