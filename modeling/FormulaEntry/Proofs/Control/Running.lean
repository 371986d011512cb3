import FormulaEntry.Proofs.Control.Session

/-! The dispatches under way. A trace nests whatever a subscriber does within the dispatch that
called the subscriber. Read one event after the other, it is a run of a machine with a stack: a
dispatch that is opened is put on the stack with the subscribers there are by then, who are
called in their order before it is closed. -/

namespace FormulaEntry

variable {κ σ : Type}

/-- A dispatch under way. -/
structure Dispatch (κ : Type) where
  channel : String
  payload : Datum
  /-- The subscribers it has still to call. -/
  rest : List κ

structure Call (κ : Type) where
  channel : String
  subscriber : κ
  payload : Datum

namespace Dispatch

def calls (d : Dispatch κ) : List (Call κ) := d.rest.map fun k => ⟨d.channel, k, d.payload⟩

end Dispatch

namespace Event

def call? {S : Type} : Event S κ → Option (Call κ)
  | called channel k payload _ => some ⟨channel, k, payload⟩
  | _ => none

end Event

/-- A control, and the dispatches under way, the innermost one first. -/
structure Moment (κ : Type) where
  control : Control κ
  running : List (Dispatch κ)

theorem Control.channelName_create_injective (name : String) (d : Derivation)
    (subscribers : Field → List κ) :
    Function.Injective (create name d subscribers).channelName := by
  have apart {a b : String} (hne : a ≠ b) : name ++ a ≠ name ++ b :=
    mt (String.append_right_inj name).mp hne
  intro f g h
  cases f <;> cases g
  case value.value | text.text | isValid.isValid => rfl
  all_goals exact absurd h (apart (by decide))

namespace Moment

def pending (m : Moment κ) : List (Call κ) := m.running.flatMap Dispatch.calls

variable [DecidableEq κ]

/-- What an event makes of a moment. -/
inductive Next : Moment κ → Event (Control κ) κ → Moment κ → Prop
  | stored {c ds edit content} : c.alive = true →
      Next ⟨c, ds⟩ (.stored c.name edit c.content content) ⟨c.withContent content, ds⟩
  | destroyed {c ds} : c.alive = true → (∀ f, c.subscribers f = none) →
      Next ⟨c, ds⟩ (.destroyed c.name) ⟨c.destroyed, ds⟩
  | altered {c ds} (f a) : Next ⟨c, ds⟩ (.altered (c.channelName f) a)
      ⟨c.withSubscribers f (a.apply (c.subscribers f)), ds⟩
  | opened {c ds f ks} (payload) : c.subscribers f = some ks →
      Next ⟨c, ds⟩ (.opened (c.channelName f) payload) ⟨c, ⟨c.channelName f, payload, ks⟩ :: ds⟩
  | called {c ds channel payload k ks} :
      Next ⟨c, ⟨channel, payload, k :: ks⟩ :: ds⟩ (.called channel k payload c)
        ⟨c, ⟨channel, payload, ks⟩ :: ds⟩
  | closed {c ds channel payload} :
      Next ⟨c, ⟨channel, payload, []⟩ :: ds⟩ (.closed channel) ⟨c, ds⟩
  | logged {m} (record) : Next m (.logged record) m
  | noted {c ds} : Next ⟨c, ds⟩ (.noted c) ⟨c, ds⟩

theorem Next.channelName {m m₁ : Moment κ} {e : Event (Control κ) κ} (h : Next m e m₁) (f : Field) :
    m₁.control.channelName f = m.control.channelName f := by
  rcases h with _ | _ | ⟨g, a⟩ | _ | _ | _ | _ | _
  · exact Control.channelName_withContent _ f _
  · exact Control.channelName_destroyed _ f
  · exact Control.channelName_withSubscribers _ g f _
  all_goals rfl

theorem Next.unique {m m₁ m₂ : Moment κ} {e : Event (Control κ) κ}
    (hd : Function.Injective m.control.channelName) (h₁ : Next m e m₁) (h₂ : Next m e m₂) :
    m₁ = m₂ := by
  cases h₁ with
  | stored | destroyed | called | closed | logged | noted => cases h₂; rfl
  | @altered c ds f a =>
    generalize hn : c.channelName f = name at h₂
    cases h₂ with
    | altered g _ => rw [hd hn]
  | @opened c ds f ks payload hs =>
    generalize hn : c.channelName f = name at h₂
    cases h₂ with
    | opened _ hs' =>
      obtain rfl := hd hn
      rw [Option.some.inj (hs.symm.trans hs')]

/-- What the events, oldest first, make of a moment. -/
inductive Passes : Moment κ → List (Event (Control κ) κ) → Moment κ → Prop
  | nil (m) : Passes m [] m
  | cons {m m₁ m₂ e es} : Next m e m₁ → Passes m₁ es m₂ → Passes m (e :: es) m₂

namespace Passes

variable {m m₁ m₂ : Moment κ} {e : Event (Control κ) κ} {es es₁ es₂ : List (Event (Control κ) κ)}

theorem single (h : Next m e m₁) : Passes m [e] m₁ := .cons h (.nil m₁)

theorem append (h₁ : Passes m es₁ m₁) (h₂ : Passes m₁ es₂ m₂) : Passes m (es₁ ++ es₂) m₂ := by
  induction h₁ with
  | nil => exact h₂
  | cons h _ ih => exact .cons h (ih h₂)

theorem split (h : Passes m (es₁ ++ es₂) m₂) : ∃ m₁, Passes m es₁ m₁ ∧ Passes m₁ es₂ m₂ := by
  induction es₁ generalizing m with
  | nil => exact ⟨m, .nil m, h⟩
  | cons e es₁ ih =>
    rcases h with _ | ⟨hn, h⟩
    obtain ⟨m₁, h₁, h₂⟩ := ih h
    exact ⟨m₁, .cons hn h₁, h₂⟩

theorem unique (hd : Function.Injective m.control.channelName) (h₁ : Passes m es m₁)
    (h₂ : Passes m es m₂) : m₁ = m₂ := by
  induction h₁ with
  | nil => cases h₂; rfl
  | @cons m m' m₁ e es hn _ ih =>
    rcases h₂ with _ | ⟨hn', h₂⟩
    obtain rfl := hn.unique hd hn'
    have hnames : m'.control.channelName = m.control.channelName := funext hn.channelName
    exact ih (hnames ▸ hd) h₂

end Passes

end Moment

/-- The dispatches under way when a phase begins within others. -/
def Phase.before (c : Control κ) (ds : List (Dispatch κ)) : Phase κ → List (Dispatch κ)
  | .deliver f payload ks => ⟨c.channelName f, payload, ks⟩ :: ds
  | _ => ds

def Phase.after (c : Control κ) (ds : List (Dispatch κ)) : Phase κ → List (Dispatch κ)
  | .deliver f payload _ => ⟨c.channelName f, payload, []⟩ :: ds
  | _ => ds

variable [DecidableEq κ]

theorem Moment.passes_destroyed {c : Control κ} (ha : c.alive = true) (ds : List (Dispatch κ)) :
    Passes ⟨c, ds⟩
      [.altered (c.channelName .value) .ended, .altered (c.channelName .text) .ended,
        .altered (c.channelName .isValid) .ended, .destroyed c.name] ⟨c.destroyed, ds⟩ := by
  have hended : ∀ f, (((c.withSubscribers .value none).withSubscribers .text none).withSubscribers
      .isValid none).subscribers f = none := by
    intro f
    cases f <;> rfl
  exact .cons (.altered .value .ended) <| .cons (.altered .text .ended) <|
    .cons (.altered .isValid .ended) (.single (.destroyed ha hended))

theorem Trace.passes {alone byHand : Prop} {ph : Phase κ} {c c' : Control κ}
    {es : List (Event (Control κ) κ)} (t : Trace alone byHand ph c c' es) (ds : List (Dispatch κ)) :
    Moment.Passes ⟨c, ph.before c ds⟩ es ⟨c', ph.after c ds⟩ := by
  induction t generalizing ds with
  | idle | announced | dropped | broken | delivered => exact .nil _
  | seq _ _ ih₁ ih₂ => exact (ih₁ ds).append (ih₂ ds)
  | logged c record => exact .single (.logged record)
  | noted c => exact .single .noted
  | @altered c f a _ => exact .single (.altered f a)
  | destroyed ha => exact Moment.passes_destroyed ha ds
  | triggered _ _ ih => exact ih ds
  | commit ha _ _ ih => exact .cons (.stored ha) (ih ds)
  | announce _ _ _ ih₁ ih₂ => exact (ih₁ ds).append (ih₂ ds)
  | dispatched hs _ ih => exact .cons (.opened _ hs) ((ih ds).append (.single .closed))
  | @call c c₁ c₂ f payload k ks es₁ es₂ t₁ _ ih₁ ih₂ =>
    have hrest := ih₂ ds
    rw [Phase.before, Phase.after, t₁.keeps.channelName f] at hrest
    exact .cons .called ((ih₁ (⟨c.channelName f, payload, ks⟩ :: ds)).append hrest)

theorem Session.passes (s : Session κ σ) (d : Derivation) :
    Moment.Passes ⟨(s.start d).state, []⟩ (s.world d).history.reverse ⟨(s.world d).state, []⟩ :=
  (s.trace d).passes []

end FormulaEntry
