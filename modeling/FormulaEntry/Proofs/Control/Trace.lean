import FormulaEntry.Proofs.Channel.Basic
import FormulaEntry.Proofs.Content

/-! The shape of what happens to a control. The events of a run are put together from
the blocks below, each nested whole within the one that provoked it: a commit is the
storing of a new content followed by the announcement of the fields it changed, the
announcement of a field is one dispatch, and a dispatch is the calls of the subscribers
there were when it was opened, each followed by all that this subscriber did.

The events of a trace stand in the order in which they happened. -/

namespace FormulaEntry

variable {κ : Type}

namespace Control

def channelName (c : Control κ) (f : Field) : String := ((channel f).get c).name

def subscribers (c : Control κ) (f : Field) : Option (List κ) := ((channel f).get c).subscribers

def Subscribed (c : Control κ) (f : Field) (k : κ) : Prop :=
  ∃ ks, c.subscribers f = some ks ∧ k ∈ ks

def withSubscribers (c : Control κ) (f : Field) (ks : Option (List κ)) : Control κ :=
  (channel f).set { (channel f).get c with subscribers := ks } c

def withContent (c : Control κ) (content : Content) : Control κ := { c with content }

def destroyed (c : Control κ) : Control κ where
  name := c.name
  derivation := c.derivation
  alive := false
  content := { c.content with value := .empty, text := "" }
  valueChanged := { c.valueChanged with subscribers := none }
  textChanged := { c.textChanged with subscribers := none }
  isValidChanged := { c.isValidChanged with subscribers := none }

variable (c : Control κ) (f g : Field) (ks : Option (List κ)) (content : Content)

@[simp] theorem channelName_withSubscribers :
    (c.withSubscribers f ks).channelName g = c.channelName g := by
  cases f <;> cases g <;> rfl

@[simp] theorem channelName_withContent :
    (c.withContent content).channelName g = c.channelName g := by
  cases g <;> rfl

@[simp] theorem channelName_destroyed : c.destroyed.channelName g = c.channelName g := by
  cases g <;> rfl

theorem subscribers_withSubscribers :
    (c.withSubscribers f ks).subscribers g = if g = f then ks else c.subscribers g := by
  cases f <;> cases g <;> rfl

@[simp] theorem subscribers_withContent :
    (c.withContent content).subscribers g = c.subscribers g := by
  cases g <;> rfl

@[simp] theorem subscribers_destroyed : c.destroyed.subscribers g = none := by
  cases g <;> rfl

@[simp] theorem alive_withSubscribers : (c.withSubscribers f ks).alive = c.alive := by
  cases f <;> rfl

@[simp] theorem alive_withContent : (c.withContent content).alive = c.alive := rfl

@[simp] theorem alive_destroyed : c.destroyed.alive = false := rfl

@[simp] theorem content_withSubscribers : (c.withSubscribers f ks).content = c.content := by
  cases f <;> rfl

@[simp] theorem content_withContent : (c.withContent content).content = content := rfl

@[simp] theorem derivation_withSubscribers :
    (c.withSubscribers f ks).derivation = c.derivation := by
  cases f <;> rfl

@[simp] theorem derivation_withContent : (c.withContent content).derivation = c.derivation := rfl

@[simp] theorem derivation_destroyed : c.destroyed.derivation = c.derivation := rfl

end Control

/-- The control's values are finite numbers as long as it lives. -/
structure Control.Sound (c : Control κ) : Prop where
  derivation : c.derivation.GivesFinite
  content : c.alive = true → c.content.Coherent

/-- What the events `es` cannot take from a control: its channels keep their names, it
keeps its derivation, nothing brings it or a channel back, and who subscribed to a channel
stays so until it is removed or the channel ends. -/
structure Keeps (c c' : Control κ) (es : List (Event (Control κ) κ)) : Prop where
  channelName : ∀ f, c'.channelName f = c.channelName f
  derivation : c'.derivation = c.derivation
  alive : c'.alive = true → c.alive = true
  standing : ∀ f, c'.subscribers f ≠ none → c.subscribers f ≠ none
  subscribed : ∀ f k, c.Subscribed f k → c'.subscribers f ≠ none →
    .altered (c.channelName f) (.removed k) ∉ es → c'.Subscribed f k
  sound : c.Sound → c'.Sound

namespace Keeps

variable {c c₁ c₂ : Control κ} {es es₁ es₂ : List (Event (Control κ) κ)}

theorem refl (c : Control κ) (es : List (Event (Control κ) κ)) : Keeps c c es where
  channelName _ := rfl
  derivation := rfl
  alive := id
  standing _ := id
  subscribed _ _ hk _ _ := hk
  sound := id

theorem append (h₁ : Keeps c c₁ es₁) (h₂ : Keeps c₁ c₂ es₂) : Keeps c c₂ (es₁ ++ es₂) where
  channelName f := (h₂.channelName f).trans (h₁.channelName f)
  derivation := h₂.derivation.trans h₁.derivation
  alive ha := h₁.alive (h₂.alive ha)
  standing f hf := h₁.standing f (h₂.standing f hf)
  subscribed f k hk hf hr := by
    rw [List.mem_append, not_or] at hr
    have hk₁ := h₁.subscribed f k hk (h₂.standing f hf) hr.1
    exact h₂.subscribed f k hk₁ hf (h₁.channelName f ▸ hr.2)
  sound hc := h₂.sound (h₁.sound hc)

theorem mono (h : Keeps c c₁ es₁) (hes : es₁ ⊆ es₂) : Keeps c c₁ es₂ where
  channelName := h.channelName
  derivation := h.derivation
  alive := h.alive
  standing := h.standing
  subscribed f k hk hf hr := h.subscribed f k hk hf fun he => hr (hes he)
  sound := h.sound

theorem commit {c : Control κ} {edit : Edit} {content : Content} {remark : Option Remark}
    (hd : Content.ofEdit c.derivation edit = .ok (content, remark)) :
    Keeps c (c.withContent content) [] where
  channelName f := c.channelName_withContent f content
  derivation := rfl
  alive := id
  standing f hf := by rwa [Control.subscribers_withContent] at hf
  subscribed f k hk _ _ := by rwa [Control.Subscribed, Control.subscribers_withContent]
  sound hc := ⟨hc.derivation, fun _ => Content.coherent_ofEdit hc.derivation hd⟩

theorem destroyed {c : Control κ} (ha : c.alive = true) (es : List (Event (Control κ) κ)) :
    Keeps c c.destroyed es where
  channelName f := c.channelName_destroyed f
  derivation := rfl
  alive _ := ha
  standing f hf := absurd (c.subscribers_destroyed f) hf
  subscribed f _ _ hf _ := absurd (c.subscribers_destroyed f) hf
  sound hc := ⟨hc.derivation, fun h => absurd h (by simp)⟩

end Keeps

variable [DecidableEq κ]

/-- What a stretch of a run is there to do. -/
inductive Phase (κ : Type) where
  /-- Whatever its users like. -/
  | free
  /-- To announce fields of a stored content. -/
  | announce (content : Content) (fields : List Field)
  /-- To send a payload through a channel. -/
  | dispatch (field : Field) (payload : Datum)
  /-- To call subscribers with the payload of a dispatch. -/
  | deliver (field : Field) (payload : Datum) (subscribers : List κ)

/-- `Trace alone byHand phase c c' es`: the control `c` becomes `c'` while `es` happens.
Channels are ended on their own only if `alone`, and triggered without a commit only if
`byHand`. -/
inductive Trace (alone byHand : Prop) :
    Phase κ → Control κ → Control κ → List (Event (Control κ) κ) → Prop where
  | idle (c) : Trace alone byHand .free c c []
  | seq {c c₁ c₂ es₁ es₂} :
      Trace alone byHand .free c c₁ es₁ → Trace alone byHand .free c₁ c₂ es₂ →
      Trace alone byHand .free c c₂ (es₁ ++ es₂)
  | logged (c record) : Trace alone byHand .free c c [.logged record]
  | noted (c) : Trace alone byHand .free c c [.noted c]
  | altered {c f a} : a.Admits alone (c.subscribers f) →
      Trace alone byHand .free c (c.withSubscribers f (a.apply (c.subscribers f)))
        [.altered (c.channelName f) a]
  | destroyed {c} : c.alive = true →
      Trace alone byHand .free c c.destroyed
        [.altered (c.channelName .value) .ended, .altered (c.channelName .text) .ended,
          .altered (c.channelName .isValid) .ended, .destroyed c.name]
  /-- A dispatch that no commit asked for. -/
  | triggered {c c' f payload es} : byHand →
      Trace alone byHand (.dispatch f payload) c c' es → Trace alone byHand .free c c' es
  | commit {c c' edit content remark es} :
      c.alive = true → Content.ofEdit c.derivation edit = .ok (content, remark) →
      Trace alone byHand (.announce content (c.content.changes content)) (c.withContent content)
        c' es →
      Trace alone byHand .free c c' (.stored c.name edit c.content content :: es)
  | announced (c content) : Trace alone byHand (.announce content []) c c []
  | announce {c c₁ c₂ content f fs es₁ es₂} :
      c.alive = true → Trace alone byHand (.dispatch f (content.get f)) c c₁ es₁ →
      Trace alone byHand (.announce content fs) c₁ c₂ es₂ →
      Trace alone byHand (.announce content (f :: fs)) c c₂ (es₁ ++ es₂)
  /-- A destroyed control announces nothing more. -/
  | dropped {c content fields} :
      c.alive = false → Trace alone byHand (.announce content fields) c c []
  /-- A channel ended on its own stops the announcements. -/
  | broken {c content f fs} : alone → c.alive = true → c.subscribers f = none →
      Trace alone byHand (.announce content (f :: fs)) c c []
  | dispatched {c c' f payload ks es} :
      c.subscribers f = some ks → Trace alone byHand (.deliver f payload ks) c c' es →
      Trace alone byHand (.dispatch f payload) c c'
        (.opened (c.channelName f) payload :: es ++ [.closed (c.channelName f)])
  | delivered (c f payload) : Trace alone byHand (.deliver f payload []) c c []
  | call {c c₁ c₂ f payload k ks es₁ es₂} :
      Trace alone byHand .free c c₁ es₁ → Trace alone byHand (.deliver f payload ks) c₁ c₂ es₂ →
      Trace alone byHand (.deliver f payload (k :: ks)) c c₂
        (.called (c.channelName f) k payload c :: es₁ ++ es₂)

theorem Keeps.altered (c : Control κ) (f : Field) (a : Alteration κ) :
    Keeps c (c.withSubscribers f (a.apply (c.subscribers f))) [.altered (c.channelName f) a] where
  channelName g := c.channelName_withSubscribers f g _
  derivation := c.derivation_withSubscribers f _
  alive ha := by rwa [Control.alive_withSubscribers] at ha
  standing g hg hn := by
    refine hg ?_
    rw [Control.subscribers_withSubscribers]
    split
    · next h => subst h; rw [hn]; cases a <;> rfl
    · exact hn
  subscribed g k hk hg hr := by
    obtain ⟨ks, hs, hm⟩ := hk
    rw [Control.subscribers_withSubscribers] at hg
    rw [Control.Subscribed, Control.subscribers_withSubscribers]
    split
    · next h =>
      subst h
      rw [if_pos rfl] at hg
      cases a with
      | added k' => exact ⟨_, by rw [hs]; rfl, List.mem_append_left _ hm⟩
      | removed k' =>
        have hne : k ≠ k' := by
          rintro rfl
          exact hr (List.mem_singleton_self _)
        exact ⟨_, by rw [hs]; rfl, List.mem_filter.2 ⟨hm, by simpa using hne⟩⟩
      | ended => exact absurd rfl hg
    · exact ⟨ks, hs, hm⟩
  sound hc := ⟨by simpa using hc.derivation, by simpa using hc.content⟩

theorem Trace.keeps {alone byHand : Prop} {ph : Phase κ} {c c' : Control κ}
    {es : List (Event (Control κ) κ)} (t : Trace alone byHand ph c c' es) : Keeps c c' es := by
  induction t with
  | idle | logged | noted | announced | dropped | broken | delivered => exact .refl _ _
  | seq _ _ ih₁ ih₂ => exact ih₁.append ih₂
  | altered _ => exact .altered _ _ _
  | destroyed ha => exact .destroyed ha _
  | triggered _ _ ih => exact ih
  | commit _ hd _ ih => exact ((Keeps.commit hd).append ih).mono (List.subset_cons_self _ _)
  | announce _ _ _ ih₁ ih₂ => exact ih₁.append ih₂
  | dispatched _ _ ih => exact ih.mono fun e he => by simp [he]
  | call _ _ ih₁ ih₂ => exact (ih₁.append ih₂).mono (List.subset_cons_self _ _)

end FormulaEntry
