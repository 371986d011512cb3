import FormulaEntry.Control
import FormulaEntry.Proofs.Channel.Basic

/-! What becomes of the steps of a control, wherever in the state it is. Whatever is asked
of it is asked of one of its channels, or is an edit, its end or no more than a log record. -/

namespace FormulaEntry

variable {S κ σ : Type} {p : Part S (Control κ)} {r : Responder S κ σ κ} {w : World S κ σ}

def World.stored (p : Part S (Control κ)) (edit : Edit) (content : Content) (w : World S κ σ) :
    World S κ σ :=
  let c := p.get w.state
  { w with
    state := p.set { c with content } w.state
    history := .stored c.name edit c.content content :: w.history }

/-- The world with a remark about a control in its log, if there is any. -/
def World.remarked (p : Part S (Control κ)) (w : World S κ σ) : Option Remark → World S κ σ
  | none => w
  | some remark =>
    let record : LogRecord := ⟨.debug, (p.get w.state).name ++ ": " ++ remark.message, none⟩
    { w with history := .logged record :: w.history }

@[simp] theorem World.state_remarked (p : Part S (Control κ)) (w : World S κ σ)
    (remark : Option Remark) : (w.remarked p remark).state = w.state := by
  cases remark <;> rfl

namespace Control

theorem live_of_alive (ha : (p.get w.state).alive = true) : live p w = .ok (p.get w.state) w := by
  unfold live
  rw [Run.bind_of_ok (Run.read_apply _ _)]
  exact if_pos ha ▸ rfl

theorem live_of_not_alive (ha : (p.get w.state).alive = false) :
    live p w = .error (.controlDestroyed (p.get w.state).name) w := by
  unfold live
  rw [Run.bind_of_ok (Run.read_apply _ _), ha]
  rfl

theorem destroy_of_not_alive (ha : (p.get w.state).alive = false) :
    destroy p w = .error (.controlDestroyed (p.get w.state).name) w :=
  Run.bind_of_error (live_of_not_alive ha)

theorem text_of_alive (ha : (p.get w.state).alive = true) :
    text p w = .ok (p.get w.state).content.text w :=
  Run.bind_of_ok (live_of_alive ha)

theorem notifyFocus_of_alive (ha : (p.get w.state).alive = true) (focused : Bool) :
    notifyFocus p focused w =
      Run.log .debug ((p.get w.state).name ++ " focus=" ++
        (if focused then "True" else "False")) none w :=
  Run.bind_of_ok (live_of_alive ha)

theorem emit_of_alive (ha : (p.get w.state).alive = true) (f : Field) (payload : Datum) :
    emit p r f payload w = Channel.trigger (p.andThen (channel f)) r payload w := by
  unfold emit
  rw [Run.bind_of_ok (Run.read_apply _ _)]
  exact if_pos ha ▸ rfl

theorem emit_of_not_alive (ha : (p.get w.state).alive = false) (f : Field) (payload : Datum) :
    emit p r f payload w = .ok ⟨⟩ w := by
  unfold emit
  rw [Run.bind_of_ok (Run.read_apply _ _), ha]
  rfl

theorem emitAll_of_not_alive (ha : (p.get w.state).alive = false) (content : Content)
    (fs : List Field) : emitAll p r content fs w = .ok ⟨⟩ w := by
  induction fs with
  | nil => rfl
  | cons f fs ih =>
    unfold emitAll
    rw [Run.bind_of_ok (emit_of_not_alive ha _ _)]
    exact ih

variable {edit : Edit} {content : Content} {remark : Option Remark}

theorem update_of_not_alive (ha : (p.get w.state).alive = false) :
    update p r edit w = .error (.controlDestroyed (p.get w.state).name) w :=
  Run.bind_of_error (live_of_not_alive ha)

theorem update_of_error {e : Fault} (ha : (p.get w.state).alive = true)
    (hd : Content.ofEdit (p.get w.state).derivation edit = .error e) :
    update p r edit w = .error e w := by
  refine (Run.bind_of_ok (live_of_alive ha)).trans (Run.bind_of_error ?_)
  rw [hd]
  rfl

theorem update_of_ok (ha : (p.get w.state).alive = true)
    (hd : Content.ofEdit (p.get w.state).derivation edit = .ok (content, remark)) :
    update p r edit w =
      emitAll p r content ((p.get w.state).content.changes content)
        ((w.remarked p remark).stored p edit content) := by
  refine (Run.bind_of_ok (live_of_alive ha)).trans ?_
  have hderived : (Run.ofExcept (Content.ofEdit (p.get w.state).derivation edit) : Run S κ σ _) w =
      .ok (content, remark) w := by
    rw [hd]
    rfl
  refine (Run.bind_of_ok hderived).trans ?_
  cases remark <;> rfl

end Control

section

variable {R : World S κ σ → World S κ σ → Prop} [IsPreorder (World S κ σ) R]

namespace Control

theorem live_respects : (live p).Respects R := by
  refine (Run.Respects.read p).bind fun c => ?_
  split
  · exact .pure c
  · exact .throw _

theorem emitAll_respects
    (ht : ∀ f payload, (Channel.trigger (p.andThen (channel f)) r payload).Respects R)
    (content : Content) (fs : List Field) : (emitAll p r content fs).Respects R := by
  induction fs with
  | nil => exact .pure _
  | cons f fs ih =>
    refine ((Run.Respects.read p).bind fun c => ?_).bind fun _ => ih
    split
    · exact ht f _
    · exact .pure _

end Control

namespace ControlAction

theorem readAttribute_respects (a : Attribute) :
    (readAttribute p a : Run S κ σ Datum).Respects R := by
  cases a with
  | field f => exact Control.live_respects.bind fun _ => .pure _
  | host => exact Control.live_respects.bind fun _ => .pure _
  | derivation => exact Control.live_respects.bind fun _ => .pure _
  | resultText => exact (Control.live_respects.bind fun _ => .ofExcept _).bind fun _ => .pure _
  | name => exact (Run.Respects.read p).bind fun _ => .pure _
  | destroyed => exact (Run.Respects.read p).bind fun _ => .pure _

variable [DecidableEq κ] {a : ControlAction κ}

/-- What the channels, the edits, the destruction and the log respect, all that can be
asked of a control respects. -/
theorem perform_respects
    (hchannel : ∀ f b, a = .channel f b → (b.perform (p.andThen (Control.channel f)) r).Respects R)
    (hupdate : ∀ e, a = .edit e ∨ a = .retype → (Control.update p r e).Respects R)
    (hdestroy : (Control.destroy p : Run S κ σ PUnit).Respects R)
    (hlog : ∀ level message cause, (Run.log level message cause : Run S κ σ PUnit).Respects R) :
    (a.perform p r).Respects R := by
  cases a with
  | channel f b => exact hchannel f b rfl
  | edit e => exact (hupdate e (.inl rfl)).bind fun _ => .pure _
  | retype =>
    refine (Control.live_respects.bind fun _ => .pure _).bind fun _ => ?_
    exact (hupdate _ (.inr rfl)).bind fun _ => .pure _
  | read a => exact readAttribute_respects a
  | focus focused =>
    exact (Control.live_respects.bind fun _ => hlog _ _ _).bind fun _ => .pure _
  | destroy => exact hdestroy.bind fun _ => .pure _

end ControlAction

end

end FormulaEntry
