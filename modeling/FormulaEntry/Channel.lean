import FormulaEntry.World

/-! Channels deliver payloads to their subscribers, in the order of subscription.
Who is called is decided when a delivery begins: subscribers may come and go, or
the channel be destroyed, while it lasts. A subscriber that fails is logged and
stops neither the delivery nor whoever began it. -/

namespace FormulaEntry

structure Channel (κ : Type) where
  name : String
  /-- None once the channel is destroyed. -/
  subscribers : Option (List κ)
deriving DecidableEq

/-- How the subscribers named by `ι` are shown, and what they do when called; true
stands for an answer that would have to be awaited. -/
structure Responder (S κ σ ι : Type) where
  label : ι → String
  call : ι → Datum → Run S κ σ Bool

/-- Whoever is to be subscribed, or data that cannot be called. -/
inductive Callback (κ : Type) where
  | subscriber (k : κ)
  | thing (d : Datum)

namespace Callback

def map {ι κ : Type} (f : ι → κ) : Callback ι → Callback κ
  | subscriber k => .subscriber (f k)
  | thing d => .thing d

end Callback

namespace Channel

variable {S κ σ : Type}

def defaultName : String := "event"

def create (name : String) (subscribers : List κ) : Channel κ := ⟨name, some subscribers⟩

def live (p : Part S (Channel κ)) : Run S κ σ (List κ) := do
  let c ← Run.read p
  match c.subscribers with
  | some ks => return ks
  | none => throw (.channelDestroyed c.name)

def alter (p : Part S (Channel κ)) (subscribers : Option (List κ)) (a : Alteration κ) :
    Run S κ σ PUnit := do
  let c ← Run.read p
  Run.write p { c with subscribers }
  Run.record (.altered c.name a)

def on (p : Part S (Channel κ)) (callback : Callback κ) : Run S κ σ PUnit := do
  let ks ← live p
  match callback with
  | .subscriber k => alter p (some (ks ++ [k])) (.added k)
  | .thing _ => throw .notCallable

/-- Removes every subscription of the one given. -/
def off [DecidableEq κ] (p : Part S (Channel κ)) (callback : Callback κ) : Run S κ σ PUnit := do
  let ks ← live p
  match callback with
  | .subscriber k => alter p (some (ks.filter (· ≠ k))) (.removed k)
  | .thing _ => pure ()

def count (p : Part S (Channel κ)) : Run S κ σ Nat := do return (← live p).length

def destroy (p : Part S (Channel κ)) : Run S κ σ PUnit := alter p none .ended

def deliver (name : String) (r : Responder S κ σ κ) (payload : Datum) (k : κ) :
    Run S κ σ PUnit := do
  Run.record (.called name k payload (← Run.read .whole))
  match ← Run.attempt (r.call k payload) with
  | .ok false => pure ()
  | .ok true =>
    Run.log .warning (name ++ ": subscriber " ++ r.label k ++
      " returned an awaitable; callbacks must be sync functions") none
  | .error f => Run.log .error (name ++ ": subscriber " ++ r.label k ++ " failed") (some f)

def deliverAll (name : String) (r : Responder S κ σ κ) (payload : Datum) :
    List κ → Run S κ σ PUnit
  | [] => pure ()
  | k :: ks => do
    deliver name r payload k
    deliverAll name r payload ks

def trigger (p : Part S (Channel κ)) (r : Responder S κ σ κ) (payload : Datum) :
    Run S κ σ PUnit := do
  let ks ← live p
  let name := (← Run.read p).name
  Run.record (.opened name payload)
  deliverAll name r payload ks
  Run.record (.closed name)

end Channel

inductive ChannelAction (κ : Type) where
  | on (callback : Callback κ)
  | off (callback : Callback κ)
  | trigger (payload : Datum)
  | count
  | destroy
  | isDestroyed
  | name

namespace ChannelAction

variable {S ι κ σ : Type}

def map (f : ι → κ) : ChannelAction ι → ChannelAction κ
  | on callback => .on (callback.map f)
  | off callback => .off (callback.map f)
  | trigger payload => .trigger payload
  | count => .count
  | destroy => .destroy
  | isDestroyed => .isDestroyed
  | name => .name

def perform [DecidableEq κ] (p : Part S (Channel κ)) (r : Responder S κ σ κ) :
    ChannelAction κ → Run S κ σ Datum
  | on callback => do Channel.on p callback; return .none
  | off callback => do Channel.off p callback; return .none
  | trigger payload => do Channel.trigger p r payload; return .none
  | count => return .number (.int (← Channel.count p))
  | destroy => do Channel.destroy p; return .none
  | isDestroyed => return .flag (← Run.read p).subscribers.isNone
  | name => return .text (← Run.read p).name

end ChannelAction

end FormulaEntry
