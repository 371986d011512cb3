import FormulaEntry.Proofs.Box.Run
import FormulaEntry.Proofs.Control.Lasting

/-! What lasts of a box's control, whatever is done to the box. The box writes to its entry, its
border and its readout, and passes on to the control what is typed; nothing of that ends a
channel. -/

namespace FormulaEntry

variable {S κ σ : Type}

theorem ControlAction.eq_of_map_eq_destroy {ι : Type} {g : ι → κ} {a : ControlAction ι} {f : Field}
    (h : a.map g = .channel f .destroy) : a = .channel f .destroy := by
  cases a with
  | channel f' b =>
    obtain ⟨rfl, hb⟩ := ControlAction.channel.inj h
    cases b <;> cases hb
    rfl
  | edit | retype | read | focus | destroy => cases h

namespace Box

/-- The relation allows for whatever the box's control lasts through, and for anything in the
history. -/
structure Allows (p : Part S (Box κ))
    (R : World S (BoxSubscriber κ) σ → World S (BoxSubscriber κ) σ → Prop) : Prop where
  record : ∀ e, (Run.record e : BoxRun S κ σ PUnit).Respects R
  set : ∀ b (w : World S (BoxSubscriber κ) σ), (p.get w.state).control.Lasts b.control →
    R w (w.set p b)

theorem ended_lasts (b : Box κ) : b.control.Lasts b.ended.control := by
  unfold ended
  split
  · exact .destroyed _
  · exact .refl _

namespace Allows

variable {R : World S (BoxSubscriber κ) σ → World S (BoxSubscriber κ) σ → Prop}
variable [IsPreorder (World S (BoxSubscriber κ) σ) R] {p : Part S (Box κ)}
    {r : BoxResponder S κ σ κ}
variable {st : String → BoxRun S κ σ PUnit}

omit [IsPreorder (World S (BoxSubscriber κ) σ) R] in
theorem control (h : Allows p R) : Control.Allows (p.andThen controlPart) R where
  record := h.record
  set c w hc := h.set { p.get w.state with control := c } w hc

omit [IsPreorder (World S (BoxSubscriber κ) σ) R] in
theorem change (h : Allows p R) {f : Box κ → Box κ} (hf : ∀ b, (f b).control = b.control) :
    (Run.change p f : BoxRun S κ σ PUnit).Respects R := fun w =>
  h.set (f (p.get w.state)) w (by rw [hf]; exact .refl _)

theorem refreshResult (h : Allows p R) : (refreshResult p : BoxRun S κ σ PUnit).Respects R := by
  refine (Run.Respects.read p).bind fun b => .ite ?_ (.pure _)
  refine (Control.live_respects.bind fun _ => .ofExcept _).bind fun text => ?_
  exact (Run.Respects.read p).bind fun _ => h.change fun _ => by rfl

theorem showValidity (h : Allows p R) (isValid : Bool) :
    (showValidity p isValid : BoxRun S κ σ PUnit).Respects R :=
  (h.change fun _ => by rfl).bind fun _ => (h.change fun _ => by rfl).bind fun _ => h.refreshResult

theorem writeEntry (h : Allows p R) (hst : ∀ s, (st s).Respects R) (s : String) :
    (writeEntry p st s).Respects R := by
  refine (h.change fun _ => by rfl).bind fun _ => (Run.Respects.read p).bind fun b =>
    .ite ?_ (.pure _)
  refine (h.change fun _ => by rfl).bind fun _ => .ensuring ?_ (h.change fun _ => by rfl)
  exact .ite (.pure _) (hst _)

theorem showText (h : Allows p R) (hst : ∀ s, (st s).Respects R) (text : Datum) :
    (showText p st text).Respects R := by
  refine (Run.Respects.read p).bind fun b => .ite (.pure _) ?_
  refine (h.change fun _ => by rfl).bind fun _ => .ensuring ?_ (h.change fun _ => by rfl)
  exact (Run.Respects.ofExcept _).bind fun s => h.writeEntry hst s

theorem responderVia (h : Allows p R) (hst : ∀ s, (st s).Respects R)
    (hr : ∀ k payload, (r.call k payload).Respects R) : (responderVia p st r).Respects R := by
  intro k payload
  cases k with
  | result => exact h.refreshResult.bind fun _ => .pure _
  | entry => exact (h.showText hst payload).bind fun _ => .pure _
  | validity => exact (h.showValidity _).bind fun _ => .pure _
  | other k => exact hr k payload

theorem responder (h : Allows p R) (hr : r.Respects R) : (responder p r).Respects R :=
  h.responderVia (fun _ => h.control.update (h.responderVia (fun _ => .pure _) hr) _) hr

theorem type (h : Allows p R) (hr : r.Respects R) (s : String) : (type p r s).Respects R := by
  refine (Run.Respects.read p).bind fun b => .ite ?_ (.pure _)
  exact h.writeEntry (fun _ => h.control.update (h.responder hr) _) s

theorem setActive (h : Allows p R) (active : Bool) :
    (setActive p active : BoxRun S κ σ PUnit).Respects R := by
  refine (Run.Respects.read p).bind fun b => .ite ?_ (.pure _)
  refine (h.change fun _ => by rfl).bind fun _ => (h.change fun _ => by rfl).bind fun _ => ?_
  exact (Run.Respects.read p).bind fun b =>
    .ite (Control.live_respects.bind fun _ => h.record _) (.pure _)

theorem destroy (h : Allows p R) : (destroy p : BoxRun S κ σ PUnit).Respects R := by
  intro w
  obtain ⟨es, -, hd⟩ := destroy_apply p w
  rw [Run.final_of_ok hd]
  exact trans_of R (h.set _ w (ended_lasts _)) (h.control.history (w.set p _) es)

/-- All that can be asked of the box, but for the end of a channel, which is asked of that. -/
theorem perform [DecidableEq κ] (h : Allows p R) (hr : r.Respects R) {a : BoxAction κ}
    (hend : ∀ f, a = .control (.channel f .destroy) →
      (Channel.destroy ((p.andThen controlPart).andThen (Control.channel f)) :
        BoxRun S κ σ PUnit).Respects R) :
    (a.perform p r).Respects R := by
  cases a with
  | control a =>
    refine h.control.perform (h.responder hr) fun f ha => hend f ?_
    rw [ControlAction.eq_of_map_eq_destroy ha]
  | type s => exact (h.type hr s).bind fun _ => .pure _
  | focus focused => exact (h.setActive focused).bind fun _ => .pure _
  | destroy => exact h.destroy.bind fun _ => .pure _
  | unwatch => exact (h.change fun _ => by rfl).bind fun _ => .pure _

end Allows

end Box

end FormulaEntry
