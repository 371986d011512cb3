import FormulaEntry.Channel

/-! Sessions: what an outside user and the subscribers do to a state. A
subscriber's reaction is a script, which performs steps, sees how each ended,
and may remember things from one call to the next. Subscribers react to what
other subscribers do, so a session is unfolded to a depth; at depth zero they
only observe, and a session in which calls never nest deeper is the same at
every greater depth. -/

namespace FormulaEntry

/-- A reaction over memory `σ` and steps `α`. -/
inductive Script (σ α : Type) where
  /-- The end; true stands for an answer that would have to be awaited. -/
  | done (awaitable : Bool)
  | fail (f : Fault)
  | step (a : α) (next : Except Fault Datum → Script σ α)
  | consult (next : σ → Script σ α)
  | remember (m : σ) (next : Script σ α)

namespace Script

variable {S κ σ α : Type}

def run (perform : α → Run S κ σ Datum) : Script σ α → Run S κ σ Bool
  | done awaitable => return awaitable
  | fail f => throw f
  | step a next => do (next (← Run.attempt (perform a))).run perform
  | consult next => do (next (← Run.memory)).run perform
  | remember m next => do
    Run.remember m
    next.run perform

/-- Performs steps until one fails. -/
def steps (awaitable : Bool) : List α → Script σ α
  | [] => .done awaitable
  | a :: rest => .step a fun
    | .ok _ => steps awaitable rest
    | .error f => .fail f

end Script

/-- The outside subscribers of a session: how each is shown, and how it reacts. -/
structure Audience (ι σ α : Type) where
  label : ι → String
  react : ι → Datum → Script σ α

/-- Answers calls by the subscribers' scripts, or by observing only. -/
def Audience.responder {S ι κ σ α : Type} (audience : Audience ι σ α)
    (perform : Option (α → Run S κ σ Datum)) : Responder S κ σ ι where
  label := audience.label
  call k payload :=
    match perform with
    | some perform => (audience.react k payload).run perform
    | none => return false

/-- An action, or one of the things that can be done in any session. -/
inductive Step (α : Type) where
  | act (a : α)
  | raise (message : String)
  | note

namespace Step

variable {S ι κ σ α : Type}

def perform (act : Responder S κ σ ι → α → Run S κ σ Datum) (r : Responder S κ σ ι) :
    Step α → Run S κ σ Datum
  | .act a => act r a
  | .raise message => throw (.raised message)
  | .note => do
    Run.record (.noted (← Run.read .whole))
    return .none

/-- A step of a session whose actions are performed by `act`. -/
def performWithin (act : Responder S κ σ ι → α → Run S κ σ Datum)
    (audience : Audience ι σ (Step α)) : Nat → Step α → Run S κ σ Datum
  | 0 => perform act (audience.responder none)
  | depth + 1 => perform act (audience.responder (some (performWithin act audience depth)))

end Step

end FormulaEntry
