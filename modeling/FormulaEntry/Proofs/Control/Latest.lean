import FormulaEntry.Proofs.Content
import FormulaEntry.Proofs.Control.Session

/-! A live control's content is always that of the latest edit that was stored, however
the edits of its subscribers are nested in one another. -/

namespace FormulaEntry

variable {κ σ : Type}

namespace Event

def edit? {S : Type} : Event S κ → Option Edit
  | stored _ edit _ _ => some edit
  | _ => none

/-- The content that a live control had when the event happened, to be replaced or seen. -/
def content? : Event (Control κ) κ → Option Content
  | stored _ _ before _ => some before
  | called _ _ _ c | noted c => if c.alive then some c.content else none
  | _ => none

end Event

def latest {S : Type} (history : List (Event S κ)) : Option Edit := history.findSome? Event.edit?

namespace Content

/-- The content that an edit makes; without an edit, the initial one. -/
def Stems (d : Derivation) (c : Content) : Option Edit → Prop
  | none => c = .initial
  | some edit => ∃ remark, ofEdit d edit = .ok (c, remark)

theorem Stems.coherent {d : Derivation} (hd : d.GivesFinite) {c : Content} {e : Option Edit}
    (h : c.Stems d e) : c.Coherent := by
  cases e with
  | none => rw [h]; exact coherent_initial
  | some edit =>
    obtain ⟨remark, h⟩ := h
    exact coherent_ofEdit hd h

end Content

/-- A control, and whatever was seen of it on the way, hold what was stored last. -/
structure Faithful (d : Derivation) (history : List (Event (Control κ) κ)) (c : Control κ) :
    Prop where
  now : c.alive = true → c.content.Stems d (latest history)
  seen : ∀ e older content, e :: older <:+ history → e.content? = some content →
    content.Stems d (latest older)
  made : ∀ name edit before after, .stored name edit before after ∈ history →
    after.Stems d (some edit)

namespace Faithful

variable {d : Derivation} {history : List (Event (Control κ) κ)} {c c' : Control κ}

theorem cons (h : Faithful d history c) (e : Event (Control κ) κ)
    (hs : ∀ content, e.content? = some content → c.alive = true ∧ c.content = content)
    (hm : ∀ name edit before after, e = .stored name edit before after → after.Stems d (some edit))
    (hn : c'.alive = true → c'.content.Stems d (latest (e :: history))) :
    Faithful d (e :: history) c' where
  now := hn
  seen e' older content hsuf he := by
    rcases List.suffix_cons_iff.1 hsuf with heq | hsuf
    · obtain ⟨rfl, rfl⟩ := List.cons.inj heq
      obtain ⟨ha, rfl⟩ := hs content he
      exact h.now ha
    · exact h.seen e' older content hsuf he
  made name edit before after he := by
    rcases List.mem_cons.1 he with heq | he
    · exact hm name edit before after heq.symm
    · exact h.made name edit before after he

/-- Nothing but an edit changes what a live control holds. -/
theorem quiet (h : Faithful d history c) (e : Event (Control κ) κ) (he : e.edit? = none)
    (hs : ∀ content, e.content? = some content → c.alive = true ∧ c.content = content)
    (hc : c'.alive = true → c.alive = true ∧ c'.content = c.content) :
    Faithful d (e :: history) c' := by
  refine h.cons e hs (fun _ _ _ _ heq => absurd he (by simp [heq, Event.edit?])) fun ha => ?_
  obtain ⟨ha, hcc⟩ := hc ha
  rw [hcc, latest, List.findSome?_cons, he]
  exact h.now ha

theorem unseen (h : Faithful d history c) (e : Event (Control κ) κ) (he : e.edit? = none)
    (hs : e.content? = none) : Faithful d (e :: history) c :=
  h.quiet e he (by simp [hs]) fun ha => ⟨ha, rfl⟩

theorem trace [DecidableEq κ] {alone byHand : Prop} {ph : Phase κ} {es : List (Event (Control κ) κ)}
    (t : Trace alone byHand ph c c' es) (hd : c.derivation = d) (h : Faithful d history c) :
    Faithful d (es.reverse ++ history) c' := by
  induction t generalizing history with
  | idle | announced | dropped | broken | delivered => exact h
  | seq t₁ _ ih₁ ih₂ =>
    rw [List.reverse_append, List.append_assoc]
    exact ih₂ (t₁.keeps.derivation.trans hd) (ih₁ hd h)
  | logged c record => exact h.unseen (.logged record) rfl rfl
  | noted c => exact h.quiet (.noted c) rfl (by simp [Event.content?]) fun ha => ⟨ha, rfl⟩
  | @altered c f a _ =>
    exact h.quiet (.altered (c.channelName f) a) rfl (by simp [Event.content?]) (by simp)
  | @destroyed c _ =>
    have h₁ := h.unseen (.altered (c.channelName .value) .ended) rfl rfl
    have h₂ := h₁.unseen (.altered (c.channelName .text) .ended) rfl rfl
    have h₃ := h₂.unseen (.altered (c.channelName .isValid) .ended) rfl rfl
    exact h₃.quiet (.destroyed c.name) rfl (by simp [Event.content?]) (by simp)
  | triggered _ _ ih => exact ih hd h
  | @commit c _ edit content remark _ ha ho _ ih =>
    rw [List.reverse_cons, List.append_assoc]
    have hm : content.Stems d (some edit) := ⟨remark, hd ▸ ho⟩
    refine ih hd (h.cons _ ?_ ?_ fun _ => hm)
    · simp [Event.content?, ha]
    · rintro _ _ _ _ ⟨⟩
      exact hm
  | announce _ t₁ _ ih₁ ih₂ =>
    rw [List.reverse_append, List.append_assoc]
    exact ih₂ (t₁.keeps.derivation.trans hd) (ih₁ hd h)
  | @dispatched c _ f payload _ _ _ _ ih =>
    have h₁ := h.unseen (.opened (c.channelName f) payload) rfl rfl
    have h₂ := (ih hd h₁).unseen (.closed (c.channelName f)) rfl rfl
    simpa using h₂
  | @call c _ _ f payload k _ _ _ t₁ _ ih₁ ih₂ =>
    have h₁ := h.quiet (.called (c.channelName f) k payload c) rfl (by simp [Event.content?])
      fun ha => ⟨ha, rfl⟩
    have h₂ := ih₂ (t₁.keeps.derivation.trans hd) (ih₁ hd h₁)
    simpa using h₂

end Faithful

variable [DecidableEq κ]

theorem Session.faithful (s : Session κ σ) (d : Derivation) :
    Faithful d (s.world d).history (s.world d).state := by
  have h : Faithful d [] (s.start d).state :=
    ⟨fun _ => rfl, fun _ _ _ hs => absurd hs (by simp), fun _ _ _ _ he => absurd he (by simp)⟩
  have ht := h.trace (s.trace d) rfl
  rwa [List.reverse_reverse, List.append_nil] at ht

/-- Exactly what the latest edit of the history makes, with value, text and validity in
agreement. -/
def Content.Reflects (d : Derivation) (history : List (Event (Control κ) κ)) (c : Content) : Prop :=
  c.Stems d (latest history) ∧ c.Coherent

/-- Between the steps of its user, whenever a subscriber is called and whenever an edit is
about to be stored. And what is stored are the edits, no matter who makes them. -/
theorem content_reflects_latest_edit (kind : ControlKind) (s : Session κ σ) :
    let w := s.world kind.derivation
    (w.state.alive = true → w.state.content.Reflects kind.derivation w.history) ∧
      (∀ e older content, e :: older <:+ w.history → e.content? = some content →
        content.Reflects kind.derivation older) ∧
      ∀ depth, Control.CommitsEdits (Control.step s.audience depth) := by
  intro w
  have h := s.faithful kind.derivation
  refine ⟨fun ha => ⟨h.now ha, ?_⟩, fun e older content hs he => ⟨h.seen e older content hs he, ?_⟩,
    fun depth => Control.step_commitsEdits s.audience depth⟩
  · exact (h.now ha).coherent kind.givesFinite
  · exact (h.seen e older content hs he).coherent kind.givesFinite

end FormulaEntry
