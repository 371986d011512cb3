import FormulaEntry.Box.Binding
import FormulaEntry.Proofs.Control.Basic
import FormulaEntry.Proofs.Control.Trace

/-! What a box makes of the changes of its control. Each of its own subscribers shows the
field it is told about, and putting the control's text into the entry is never taken for
typing. -/

namespace FormulaEntry

variable {S κ σ : Type}

namespace Box

def own : Field → BoxSubscriber κ
  | .value => .result
  | .text => .entry
  | .isValid => .validity

def entryColourOf (isValid : Bool) : String := if isValid then Colour.entry else Colour.errorEntry

def resultColourOf (isValid : Bool) : String :=
  if isValid then Colour.result else Colour.errorResult

def borderColourOf (isValid focused : Bool) : String :=
  if !isValid then Colour.errorBorder else if focused then Colour.activeBorder else Colour.border

/-- The box with the result of its control in the readout, if it has one. -/
def refreshed (b : Box κ) : Box κ :=
  let c := b.control.content
  { b with readout := b.readout.map fun _ => ⟨c.resultText?.getD "", resultColourOf c.isValid⟩ }

def painted (b : Box κ) : Box κ :=
  let colour := borderColourOf b.control.content.isValid b.active
  { b with border := ⟨colour, some colour⟩ }

def heard (b : Box κ) : Field → Box κ
  | .value => b.refreshed
  | .text => { b with entry := b.control.content.text }
  | .isValid => { b with entryColour := entryColourOf b.control.content.isValid }.painted.refreshed

/-- The box is bound to a live control, to which the box itself subscribes and then the others. -/
structure Bound (others : Field → List κ) (b : Box κ) : Prop where
  alive : b.alive = true
  controlAlive : b.control.alive = true
  watched : b.watched = true
  writingBack : b.writingBack = false
  subscribed : ∀ f, b.control.subscribers f = some (own f :: (others f).map .other)
  made : b.control.content.Made

variable {others : Field → List κ}

theorem Bound.congr {b b' : Box κ} (hb : b.Bound others) (hc : b'.control = b.control)
    (ha : b'.alive = b.alive) (hw : b'.watched = b.watched) (hwb : b'.writingBack = b.writingBack) :
    b'.Bound others where
  alive := ha.trans hb.alive
  controlAlive := hc ▸ hb.controlAlive
  watched := hw.trans hb.watched
  writingBack := hwb.trans hb.writingBack
  subscribed := hc ▸ hb.subscribed
  made := hc ▸ hb.made

theorem Bound.heard {b : Box κ} (hb : b.Bound others) (f : Field) : (b.heard f).Bound others := by
  cases f <;> exact hb.congr rfl rfl rfl rfl

theorem refreshed_of_none {b : Box κ} (h : b.readout = none) : b.refreshed = b := by
  cases b
  subst h
  rfl

theorem refreshed_of_some {b : Box κ} {readout : Readout} {text : String}
    (h : b.readout = some readout) (ht : b.control.content.resultText? = some text) :
    b.refreshed = { b with readout := some ⟨text, resultColourOf b.control.content.isValid⟩ } := by
  rw [refreshed, h, ht]
  rfl

section

variable {p : Part S (Box κ)} {w : World S (BoxSubscriber κ) σ}

theorem refreshResult_apply (hb : (p.get w.state).Bound others) :
    refreshResult p w = .ok ⟨⟩ (w.set p (p.get w.state).refreshed) := by
  obtain ⟨text, ht⟩ := Option.isSome_iff_exists.1 hb.made.hasResult
  have hresult : Control.resultText (p.andThen controlPart) w = .ok text w := by
    refine
      (Run.bind_of_ok (Control.live_of_alive (p := p.andThen controlPart) hb.controlAlive)).trans ?_
    change Run.ofExcept (orTooLong (p.get w.state).control.content.resultText?) w = _
    rw [ht]
    rfl
  unfold refreshResult
  rw [Run.bind_of_ok (Run.read_apply _ _)]
  cases hr : (p.get w.state).readout with
  | none =>
    rw [refreshed_of_none hr, World.set_get]
    rfl
  | some readout =>
    rw [refreshed_of_some hr ht]
    exact Run.bind_of_ok hresult

theorem paintBorder_apply (hb : (p.get w.state).control.alive = true) :
    paintBorder p w = .ok ⟨⟩ (w.set p (p.get w.state).painted) := by
  unfold paintBorder painted borderColourOf
  rw [Run.change_apply]
  simp only [hb, Bool.true_and]

theorem showValidity_apply (hb : (p.get w.state).Bound others) :
    showValidity p (p.get w.state).control.content.isValid w =
      .ok ⟨⟩ (w.set p ((p.get w.state).heard .isValid)) := by
  let b := p.get w.state
  let b₁ := { b with entryColour := entryColourOf b.control.content.isValid }
  have hb₁ : b₁.painted.Bound others := hb.congr rfl rfl rfl rfl
  have hpaint : paintBorder p (w.set p b₁) = .ok ⟨⟩ (w.set p b₁.painted) := by
    rw [paintBorder_apply (by rw [World.get_set]; exact hb.controlAlive), World.get_set,
      World.set_set]
  have hrefresh : refreshResult p (w.set p b₁.painted) = .ok ⟨⟩ (w.set p b₁.painted.refreshed) := by
    rw [refreshResult_apply (by rwa [World.get_set]), World.get_set, World.set_set]
  exact (Run.bind_of_ok (Run.change_apply _ _ _)).trans ((Run.bind_of_ok hpaint).trans hrefresh)

theorem writeEntry_of_writingBack (st : String → BoxRun S κ σ PUnit) (s : String)
    (hb : (p.get w.state).writingBack = true) :
    writeEntry p st s w = .ok ⟨⟩ (w.set p { p.get w.state with entry := s }) := by
  let b := p.get w.state
  unfold writeEntry
  rw [Run.bind_of_ok (Run.change_apply _ _ _), Run.bind_of_ok (Run.read_apply _ _), World.get_set]
  by_cases hw : (b.watched && !b.handling) = true
  · -- the write is noticed, but taken for the control's own
    have hh : b.handling = false := by simpa using (Bool.and_eq_true_iff.1 hw).2
    refine (congrFun (if_pos hw) _).trans ((Run.bind_of_ok (Run.change_apply _ _ _)).trans ?_)
    refine Run.ensuring_of_ok (congrFun (if_pos ?_) _) ?_
    · rw [hb, Bool.true_or]
    · rw [Run.change_apply]
      simp only [World.get_set, World.set_set, ← hh]
      rfl
  · exact congrFun (if_neg hw) _

theorem writeEntry_of_typed (st : String → BoxRun S κ σ PUnit) (s : String)
    (hb : (p.get w.state).Bound others) (hh : (p.get w.state).handling = false) :
    writeEntry p st s w =
      Run.ensuring (st s) (Run.change p fun b => { b with handling := false })
        (w.set p { p.get w.state with entry := s, handling := true }) := by
  let b := { p.get w.state with entry := s }
  have hwatched : (b.watched && !b.handling) = true := by
    rw [hb.watched, hh]
    rfl
  have hpassed : ¬ (b.writingBack || !b.control.alive) = true := by
    rw [hb.writingBack, hb.controlAlive]
    exact Bool.false_ne_true
  unfold writeEntry
  rw [Run.bind_of_ok (Run.change_apply _ _ _), Run.bind_of_ok (Run.read_apply _ _), World.get_set]
  refine (congrFun (if_pos hwatched) _).trans ((Run.bind_of_ok (Run.change_apply _ _ _)).trans ?_)
  rw [World.get_set, World.set_set, if_neg hpassed]

theorem showText_apply (st : String → BoxRun S κ σ PUnit) (hb : (p.get w.state).Bound others) :
    showText p st (.text (p.get w.state).control.content.text) w =
      .ok ⟨⟩ (w.set p ((p.get w.state).heard .text)) := by
  let b := p.get w.state
  unfold showText
  rw [Run.bind_of_ok (Run.read_apply _ _)]
  by_cases hs : (b.entry == b.control.content.text) = true
  · have hsame : b.heard .text = b := by
      rw [heard, ← beq_iff_eq.1 hs]
    refine (congrFun (if_pos hs) w).trans ?_
    rw [show (p.get w.state).heard .text = p.get w.state from hsame, World.set_get]
    rfl
  · let b₁ := { b with writingBack := true }
    have hwrite : writeEntry p st b.control.content.text (w.set p b₁) =
        .ok ⟨⟩ (w.set p { b₁ with entry := b.control.content.text }) := by
      rw [writeEntry_of_writingBack st _ (by rw [World.get_set]), World.get_set, World.set_set]
    refine (congrFun (if_neg hs) w).trans ((Run.bind_of_ok (Run.change_apply _ _ _)).trans ?_)
    refine Run.ensuring_of_ok hwrite ?_
    rw [Run.change_apply, World.get_set, World.set_set]
    have hback :
        b.heard .text = { b₁ with entry := b.control.content.text, writingBack := false } := by
      rw [heard, ← hb.writingBack]
    rw [show (p.get w.state).heard .text = _ from hback]

/-- Whatever assigning texts may do, the box's own subscribers never come to it. -/
theorem call_own (st : String → BoxRun S κ σ PUnit) (r : BoxResponder S κ σ κ)
    (hb : (p.get w.state).Bound others) (f : Field) :
    (responderVia p st r).call (own f) ((p.get w.state).control.content.get f) w =
      .ok false (w.set p ((p.get w.state).heard f)) := by
  cases f with
  | value => exact Run.bind_of_ok (refreshResult_apply hb)
  | text => exact Run.bind_of_ok (showText_apply st hb)
  | isValid => exact Run.bind_of_ok (showValidity_apply hb)

end

end Box

end FormulaEntry
