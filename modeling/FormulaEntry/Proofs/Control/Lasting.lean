import FormulaEntry.Proofs.Control.Announcement

/-! What lasts of a control, wherever in the state it is and whatever is done to it. Unless a
channel is ended on its own, a live control has all its channels, and then no edit fails to be
announced, whatever the subscribers do meanwhile. -/

namespace FormulaEntry

variable {S κ σ : Type}

/-- What has become of a control of which no channel was ended on its own. -/
structure Control.Lasts (c c' : Control κ) : Prop where
  name : c'.name = c.name
  derivation : c'.derivation = c.derivation
  intact : c.Intact → c'.Intact

namespace Control.Lasts

variable {c c' c'' : Control κ}

theorem refl (c : Control κ) : c.Lasts c := ⟨rfl, rfl, id⟩

theorem trans (h : c.Lasts c') (h' : c'.Lasts c'') : c.Lasts c'' :=
  ⟨h'.name.trans h.name, h'.derivation.trans h.derivation, fun hc => h'.intact (h.intact hc)⟩

theorem withContent (c : Control κ) (content : Content) : c.Lasts (c.withContent content) where
  name := rfl
  derivation := rfl
  intact hc ha f := by
    rw [subscribers_withContent]
    exact hc ha f

theorem withSubscribers {f : Field} {ks : Option (List κ)}
    (h : c.subscribers f ≠ none → ks ≠ none) : c.Lasts (c.withSubscribers f ks) where
  name := by cases f <;> rfl
  derivation := c.derivation_withSubscribers f ks
  intact hc := hc.altered h

theorem destroyed (c : Control κ) : c.Lasts c.destroyed where
  name := rfl
  derivation := rfl
  intact _ ha := by cases ha

end Control.Lasts

def World.Lasts (p : Part S (Control κ)) {ι : Type} (w w' : World S ι σ) : Prop :=
  (p.get w.state).Lasts (p.get w'.state)

instance (p : Part S (Control κ)) {ι : Type} : IsPreorder (World S ι σ) (World.Lasts p) where
  refl w := .refl (p.get w.state)
  trans _ _ _ := .trans

/-- The relation allows for whatever a control lasts through, and for anything in the history. -/
structure Control.Allows (p : Part S (Control κ)) (R : World S κ σ → World S κ σ → Prop) :
    Prop where
  record : ∀ e, (Run.record e : Run S κ σ PUnit).Respects R
  set : ∀ c (w : World S κ σ), (p.get w.state).Lasts c → R w (w.set p c)

theorem Control.allows_lasts (p : Part S (Control κ)) :
    Control.Allows p (World.Lasts p : World S κ σ → World S κ σ → Prop) where
  record _ _ := Lasts.refl _
  set c w h := by
    unfold World.Lasts
    rwa [World.get_set]

namespace Control.Allows

variable {R : World S κ σ → World S κ σ → Prop} [IsPreorder (World S κ σ) R]
variable {p : Part S (Control κ)} {r : Responder S κ σ κ}

theorem history (h : Allows p R) (w : World S κ σ) (es : List (Event S κ)) :
    R w { w with history := es ++ w.history } := by
  induction es with
  | nil => exact refl_of R w
  | cons e es ih => exact trans_of R ih (h.record e _)

theorem trigger (h : Allows p R) (hr : r.Respects R) (f : Field) (payload : Datum) :
    (Channel.trigger (p.andThen (channel f)) r payload).Respects R :=
  Channel.trigger_respects h.record hr payload

/-- Only the end of a channel is not allowed for. -/
theorem altered [DecidableEq κ] (h : Allows p R) {w : World S κ σ} {f : Field} {a : Alteration κ}
    (ha : a.Admits False ((p.get w.state).subscribers f)) :
    R w (w.altered (p.andThen (channel f)) a) := by
  have hlasts : (p.get w.state).Lasts
      ((p.get w.state).withSubscribers f (a.apply ((p.get w.state).subscribers f))) :=
    .withSubscribers fun hs => by
      obtain ⟨ks, hks⟩ := Option.ne_none_iff_exists'.mp hs
      rw [hks]
      cases a with
      | added k => exact Option.some_ne_none _
      | removed k => exact Option.some_ne_none _
      | ended => exact ha.elim
  exact trans_of R (h.set _ w hlasts) (h.record (.altered ((p.get w.state).channelName f) a) _)

theorem update (h : Allows p R) (hr : r.Respects R) (edit : Edit) :
    (update p r edit).Respects R := by
  refine live_respects.bind fun c => (Run.Respects.ofExcept _).bind fun (content, remark) => ?_
  have hemit := emitAll_respects (h.trigger hr) content (c.content.changes content)
  have hstore : (store p edit content : Run S κ σ PUnit).Respects R := fun w =>
    trans_of R (h.set _ w (.withContent _ content)) (h.record _ _)
  cases remark with
  | none => exact hstore.bind fun _ => hemit
  | some remark => exact (h.record _).bind fun _ => hstore.bind fun _ => hemit

theorem destroy (h : Allows p R) : (destroy p : Run S κ σ PUnit).Respects R := by
  intro w
  cases ha : (p.get w.state).alive with
  | false =>
    rw [Run.final_of_error (destroy_of_not_alive ha)]
    exact refl_of R w
  | true =>
    obtain ⟨record, hd⟩ := destroy_of_alive (q := p) ha
    rw [Run.final_of_ok hd]
    exact trans_of R (h.set _ w (.destroyed _)) (h.history (w.set p _) [_, _, _, _, _])

theorem perform [DecidableEq κ] (h : Allows p R) (hr : r.Respects R) {a : ControlAction κ}
    (hend : ∀ f, a = .channel f .destroy →
      (Channel.destroy (p.andThen (channel f)) : Run S κ σ PUnit).Respects R) :
    (a.perform p r).Respects R := by
  refine ControlAction.perform_respects (fun f b hb => ?_) (fun e _ => h.update hr e) h.destroy
    fun _ _ _ => h.record _
  refine ChannelAction.perform_respects (fun w alteration hal hadmits => ?_) fun payload _ =>
    h.trigger hr f payload
  cases alteration with
  | added k => exact h.altered hadmits
  | removed k => exact h.altered hadmits
  | ended =>
    unfold ChannelAction.alteration? at hal
    split at hal <;> cases hal
    exact hend f hb w

end Control.Allows

namespace Control

variable {p : Part S (Control κ)} {r : Responder S κ σ κ} {w : World S κ σ}

/-- Fields of a control that has all its channels are announced, or dropped once it is dead. -/
theorem exists_emitAll (hr : r.Respects (World.Lasts p)) (content : Content) (fs : List Field)
    (hi : (p.get w.state).Intact) : ∃ w', emitAll p r content fs w = .ok ⟨⟩ w' := by
  induction fs generalizing w with
  | nil => exact ⟨w, rfl⟩
  | cons f fs ih =>
    cases ha : (p.get w.state).alive with
    | false => exact ⟨w, emitAll_of_not_alive ha content (f :: fs)⟩
    | true =>
      obtain ⟨ks, hs⟩ := Option.ne_none_iff_exists'.mp (hi ha f)
      obtain ⟨v, ht, -⟩ :=
        Channel.trigger_calls (p := p.andThen (channel f)) (r := r) hs (content.get f)
      have hlasts := (allows_lasts p).trigger hr f (content.get f) w
      rw [Run.final_of_ok ht] at hlasts
      obtain ⟨w', h⟩ := ih (hlasts.intact hi)
      exact ⟨w', (Run.bind_of_ok ((emit_of_alive ha f _).trans ht)).trans h⟩

theorem exists_update (hr : r.Respects (World.Lasts p)) (hi : (p.get w.state).Intact)
    (ha : (p.get w.state).alive = true) {edit : Edit} {content : Content} {remark : Option Remark}
    (hd : Content.ofEdit (p.get w.state).derivation edit = .ok (content, remark)) :
    ∃ w', update p r edit w = .ok ⟨⟩ w' ∧ w.Lasts p w' := by
  have hstored : w.Lasts p ((w.remarked p remark).stored p edit content) := by
    cases remark <;> exact (allows_lasts p).set _ w (.withContent _ content)
  obtain ⟨w', h⟩ :=
    exists_emitAll hr content ((p.get w.state).content.changes content) (hstored.intact hi)
  have hup := update_of_ok (r := r) ha hd
  rw [h] at hup
  have hlasts := (allows_lasts p).update hr edit w
  rw [Run.final_of_ok hup] at hlasts
  exact ⟨w', hup, hlasts⟩

end Control

end FormulaEntry
