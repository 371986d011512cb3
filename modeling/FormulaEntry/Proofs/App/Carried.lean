import FormulaEntry.Proofs.App.Slot

/-! What a user can do with one slot of the window, in a window that nobody from outside listens
to: type into the box, focus it, destroy it, send off the rows of its panel. Nothing of it fails. It
leaves the window fit, and changes nothing where the control is dead. -/

namespace FormulaEntry

variable {κ σ : Type}

namespace App

/-- There is nothing left to be destroyed: the button has been pressed or the window is gone. -/
def Over (a : App κ) : Prop := a.destroyEnabled = false ∨ a.alive = false

/-- A window between two gestures. -/
structure Fit (a : App κ) : Prop where
  cells : ∀ slot, (a.cell slot).Fit slot
  dead_of_over : a.Over → ∀ slot, (a.cell slot).box.control.alive = false

theorem fit_create : (create : App κ).Fit where
  cells := Cell.fit_create
  dead_of_over h := by rcases h with h | h <;> cases h

theorem Fit.widget_gone {a : App κ} (h : a.Fit) {slot : BoxSlot}
    (hd : (a.cell slot).box.control.alive = false) : ((box slot).get a).alive = false := by
  rw [← box_cell, (h.cells slot).together, hd]

/-- What no gesture can undo. -/
structure Ages (a a' : App κ) : Prop where
  dead : ∀ slot, (a.cell slot).box.control.alive = false → (a'.cell slot).box.control.alive = false
  of_over : a.Over → a'.Over ∧ a'.cell = a.cell ∧ a'.status = a.status

theorem Ages.refl (a : App κ) : Ages a a := ⟨fun _ => id, fun h => ⟨h, rfl, rfl⟩⟩

theorem Ages.trans {a a' a'' : App κ} (h : Ages a a') (h' : Ages a' a'') : Ages a a'' where
  dead slot hd := h'.dead slot (h.dead slot hd)
  of_over ho := by
    obtain ⟨ho₁, hc₁, hs₁⟩ := h.of_over ho
    obtain ⟨ho₂, hc₂, hs₂⟩ := h'.of_over ho₁
    exact ⟨ho₂, hc₂.trans hc₁, hs₂.trans hs₁⟩

/-- Something has been done to one slot, and nothing if its control is dead. -/
structure Carried (slot : BoxSlot) (a a' : App κ) : Prop where
  cell : ∀ other ≠ slot, a'.cell other = a.cell other
  destroyEnabled : a'.destroyEnabled = a.destroyEnabled
  alive : a'.alive = a.alive
  fit : (a'.cell slot).Fit slot
  dead : (a.cell slot).box.control.alive = false → a'.cell slot = a.cell slot ∧ a'.status = a.status

namespace Carried

variable {slot : BoxSlot} {c : Cell κ} {a a' a'' : App κ}

theorem refl (h : a.Fit) (slot : BoxSlot) : Carried slot a a :=
  ⟨fun _ _ => rfl, rfl, rfl, h.cells slot, fun _ => ⟨rfl, rfl⟩⟩

theorem trans (h : Carried slot a a') (h' : Carried slot a' a'') : Carried slot a a'' where
  cell other ho := (h'.cell other ho).trans (h.cell other ho)
  destroyEnabled := h'.destroyEnabled.trans h.destroyEnabled
  alive := h'.alive.trans h.alive
  fit := h'.fit
  dead hd := by
    obtain ⟨hc, hs⟩ := h.dead hd
    obtain ⟨hc', hs'⟩ := h'.dead (by rwa [hc])
    exact ⟨hc'.trans hc, hs'.trans hs⟩

theorem of_recast (h : Recast slot c a a') (hc : c.Fit slot)
    (hd : (a.cell slot).box.control.alive = false → c = a.cell slot) : Carried slot a a' where
  cell _ ho := h.of_ne ho
  destroyEnabled := h.destroyEnabled
  alive := h.alive
  fit := by rwa [h.get]
  dead ha := ⟨by rw [h.get, hd ha], h.status⟩

theorem of_alive (ha : (a.cell slot).box.control.alive = true) (h : Recast slot c a a')
    (hc : c.Fit slot) : Carried slot a a' :=
  of_recast h hc fun hd => absurd (ha.symm.trans hd) (by simp)

theorem withStatus (h : Carried slot a a') (ha : (a.cell slot).box.control.alive = true)
    (status : String) : Carried slot a { a' with status } := by
  have hcell : App.cell { a' with status } = a'.cell := cell_congr rfl rfl rfl rfl
  refine ⟨?_, h.destroyEnabled, h.alive, ?_, fun hd => absurd (ha.symm.trans hd) (by simp)⟩
  · rw [hcell]
    exact h.cell
  · rw [hcell]
    exact h.fit

theorem over_iff (h : Carried slot a a') : a'.Over ↔ a.Over := by
  rw [Over, Over, h.destroyEnabled, h.alive]

theorem cell_eq (h : Carried slot a a') (hd : (a.cell slot).box.control.alive = false) :
    a'.cell = a.cell := by
  funext other
  by_cases ho : other = slot
  · rw [ho, (h.dead hd).1]
  · exact h.cell other ho

theorem app_fit (h : Carried slot a a') (ha : a.Fit) : a'.Fit where
  cells other := by
    by_cases ho : other = slot
    · rw [ho]
      exact h.fit
    · rw [h.cell other ho]
      exact ha.cells other
  dead_of_over ho := by
    have hdead := ha.dead_of_over (h.over_iff.mp ho)
    rw [h.cell_eq (hdead slot)]
    exact hdead

theorem ages (h : Carried slot a a') (ha : a.Fit) : Ages a a' where
  dead other hd := by
    by_cases ho : other = slot
    · subst ho
      rwa [(h.dead hd).1]
    · rwa [h.cell other ho]
  of_over ho := by
    have hd := ha.dead_of_over ho slot
    exact ⟨h.over_iff.mpr ho, h.cell_eq hd, (h.dead hd).2⟩

theorem step {α : Type} {x : AppRun κ σ α} {d : α} {w : World (App κ) (AppSubscriber κ) σ}
    (h : w.state.Fit) (hx : ∃ w', x w = .ok d w' ∧ Carried slot w.state w'.state) :
    ∃ d w', x w = .ok d w' ∧ w'.state.Fit ∧ Ages w.state w'.state := by
  obtain ⟨w', hw, hcarried⟩ := hx
  exact ⟨d, w', hw, hcarried.app_fit h, hcarried.ages h⟩

end Carried

section

variable {slot : BoxSlot} {w : World (App κ) (AppSubscriber κ) σ}

theorem type_carried (h : w.state.Fit) (slot : BoxSlot) (r : AppResponder κ σ κ) (s : String) :
    ∃ w', Box.type (box slot) (responder r slot) s w = .ok ⟨⟩ w' ∧
      Carried slot w.state w'.state := by
  cases ha : (w.state.cell slot).box.control.alive with
  | false => exact ⟨w, Box.type_of_not_alive (h.widget_gone ha) s, .refl h slot⟩
  | true =>
    have hlive := (h.cells slot).live ha
    obtain ⟨content, remark, htext, hm, hv⟩ := hlive.exists_ofText s
    obtain ⟨w', hw, hcast⟩ := type_typed slot r hlive.bound (h.cells slot).idle htext hm
    exact ⟨w', hw, .of_alive ha hcast (hlive.typed hm hv)⟩

theorem focus_carried (h : w.state.Fit) (slot : BoxSlot) (focused : Bool) :
    ∃ w', Box.setActive (box slot) focused w = .ok ⟨⟩ w' ∧ Carried slot w.state w'.state := by
  cases ha : (w.state.cell slot).box.control.alive with
  | false => exact ⟨w, Box.setActive_of_not_alive (h.widget_gone ha) focused, .refl h slot⟩
  | true =>
    have hlive := (h.cells slot).live ha
    obtain ⟨w', hw, hcast⟩ := setActive_painted slot hlive.bound focused
    exact ⟨w', hw, .of_alive ha hcast (hlive.focused (h.cells slot).idle focused)⟩

theorem destroyBox_carried (h : w.state.Fit) (slot : BoxSlot) :
    ∃ w', destroyBox slot w = .ok ⟨⟩ w' ∧ Carried slot w.state w'.state := by
  obtain ⟨w', hw, hcast⟩ := destroyBox_ended slot w
  exact ⟨w', hw, .of_recast hcast (h.cells slot).ended (h.cells slot).ended_of_not_alive⟩

variable {s : PanelSlot} {r : AppResponder κ σ κ}

theorem setValue_of_not_alive (ha : ((panel s).get w.state).box.control.alive = false) :
    setValue s r w = .ok ⟨⟩ w := by
  unfold setValue
  rw [Run.bind_of_ok (Run.read_apply _ _), ha]
  rfl

theorem setValue_of_error (ha : ((panel s).get w.state).box.control.alive = true) {e : Fault}
    (hp : parseValueEntry ((panel s).get w.state).valueField = .error e) :
    setValue s r w = setStatus ("Cannot assign value: " ++
      Text.quoted ((panel s).get w.state).valueField ++ " is not a number.") w := by
  unfold setValue
  rw [Run.bind_of_ok (Run.read_apply _ _)]
  refine (congrFun (if_pos ha) w).trans ?_
  rw [hp]

theorem setValue_of_ok (ha : ((panel s).get w.state).box.control.alive = true) {v : Option Double}
    (hp : parseValueEntry ((panel s).get w.state).valueField = .ok v) :
    setValue s r w = (do
      edit s r (.value (.ofEntry v))
      let shown ← Run.ofExcept (orTooLong (Display.value? (.ofEntry v)))
      setStatus ("Value of " ++ (BoxSlot.panel s).title ++ " set to " ++ shown ++ ".") :
        AppRun κ σ PUnit) w := by
  unfold setValue
  rw [Run.bind_of_ok (Run.read_apply _ _)]
  refine (congrFun (if_pos ha) w).trans ?_
  rw [hp]
  rfl

theorem setText_of_not_alive (ha : ((panel s).get w.state).box.control.alive = false) :
    setText s r w = .ok ⟨⟩ w := by
  unfold setText
  rw [Run.bind_of_ok (Run.read_apply _ _), ha]
  rfl

theorem setText_of_alive (ha : ((panel s).get w.state).box.control.alive = true) :
    setText s r w = (do
      edit s r (.text (.text ((panel s).get w.state).textField))
      let text ← Control.text (control s)
      setStatus ("Text of " ++ (BoxSlot.panel s).title ++ " set to " ++ Display.text text ++ ".") :
        AppRun κ σ PUnit) w := by
  unfold setText
  rw [Run.bind_of_ok (Run.read_apply _ _)]
  exact congrFun (if_pos ha) w

/-- An edit from a row does to the panel what the content derived from it does. -/
theorem edit_carried (h : w.state.Fit) (ha : ((panel s).get w.state).box.control.alive = true)
    {e : Edit} {content : Content} {remark : Option Remark}
    (hd : Content.ofEdit ((panel s).get w.state).box.control.derivation e = .ok (content, remark))
    (hm : content.Made) (hv : content.HoldsDouble) :
    ∃ w', edit s r e w = .ok ⟨⟩ w' ∧ Carried (.panel s) w.state w'.state ∧
      ((panel s).get w'.state).box.control.alive = true := by
  have hlive := (h.cells (.panel s)).live ha
  have htold := hlive.told hm hv
  have hidle : ((w.state.cell (.panel s)).told content).box.handling = false := by
    rw [Cell.box_told, Box.handling_told]
    exact (h.cells (.panel s)).idle
  obtain ⟨w', hw, hcast⟩ := update_told (.panel s)
    (Box.setText (box (.panel s))
      (Box.responderVia (box (.panel s)) (fun _ => pure ()) (panelResponder s r)))
    r hlive.bound hd hm
  refine ⟨w', hw, .of_alive ha hcast (htold.fit hidle), ?_⟩
  have hcontrol := htold.bound.controlAlive
  rwa [← hcast.get] at hcontrol

theorem setValue_carried (h : w.state.Fit) (s : PanelSlot) (r : AppResponder κ σ κ) :
    ∃ w', setValue s r w = .ok ⟨⟩ w' ∧ Carried (.panel s) w.state w'.state := by
  cases ha : ((panel s).get w.state).box.control.alive with
  | false => exact ⟨w, setValue_of_not_alive ha, .refl h _⟩
  | true =>
    cases hp : parseValueEntry ((panel s).get w.state).valueField with
    | error e =>
      exact ⟨_, setValue_of_error ha hp, (Carried.refl h (.panel s)).withStatus ha _⟩
    | ok v =>
      obtain ⟨content, hd, hm, hv, hvalue⟩ :=
        Content.exists_ofEntry ((panel s).get w.state).box.control.derivation hp
      obtain ⟨shown, hs⟩ := Option.isSome_iff_exists.mp (Display.value?_of_made hm)
      rw [hvalue] at hs
      obtain ⟨w', hw, hcarried, -⟩ := edit_carried (r := r) h ha hd hm hv
      obtain ⟨status, hset⟩ : ∃ status, setValue s r w = setStatus status w' := by
        rw [setValue_of_ok ha hp, Run.bind_of_ok hw, hs]
        exact ⟨_, rfl⟩
      exact ⟨_, hset, hcarried.withStatus ha status⟩

theorem setText_carried (h : w.state.Fit) (s : PanelSlot) (r : AppResponder κ σ κ) :
    ∃ w', setText s r w = .ok ⟨⟩ w' ∧ Carried (.panel s) w.state w'.state := by
  cases ha : ((panel s).get w.state).box.control.alive with
  | false => exact ⟨w, setText_of_not_alive ha, .refl h _⟩
  | true =>
    obtain ⟨content, remark, htext, hm, hv⟩ :=
      ((h.cells (.panel s)).live ha).exists_ofText ((panel s).get w.state).textField
    obtain ⟨w', hw, hcarried, ha'⟩ := edit_carried (r := r) (e := .text (.text _)) h ha htext hm hv
    obtain ⟨status, hset⟩ : ∃ status, setText s r w = setStatus status w' := by
      rw [setText_of_alive ha, Run.bind_of_ok hw]
      exact ⟨_, Run.bind_of_ok (Control.text_of_alive (p := control s) ha')⟩
    exact ⟨_, hset, hcarried.withStatus ha status⟩

end

end App

end FormulaEntry
