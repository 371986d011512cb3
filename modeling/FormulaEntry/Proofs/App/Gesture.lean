import FormulaEntry.Proofs.App.Carried

/-! Gestures. Whatever a user does in a window that nobody from outside listens to, it does not
fail. The cells stay fit, and what is dead or over stays so: a step lemma for each gesture, and by
induction the same of all that a user may do one after the other. -/

namespace FormulaEntry

variable {κ σ : Type}

/-- What a user does in the window. -/
inductive Gesture where
  | type (slot : BoxSlot) (s : String)
  | focus (slot : BoxSlot) (focused : Bool)
  | destroyBox (slot : BoxSlot)
  | setValue (s : PanelSlot) (text : Option String) (press : Press)
  | setText (s : PanelSlot) (text : Option String) (press : Press)
  | destroyAll
  | escape

def Gesture.action : Gesture → AppAction κ
  | type slot s => .box slot (.type s)
  | focus slot focused => .box slot (.focus focused)
  | destroyBox slot => .box slot .destroy
  | setValue s text press => .setValue s text press
  | setText s text press => .setText s text press
  | destroyAll => .destroyAll
  | escape => .escape

namespace App

/-- Certain cells have been destroyed. The others are what they were, and so is what does not belong
to any cell. -/
structure EndedAt (slots : List BoxSlot) (a a' : App κ) : Prop where
  cell : ∀ slot, a'.cell slot = if slot ∈ slots then (a.cell slot).ended else a.cell slot
  status : a'.status = a.status
  destroyEnabled : a'.destroyEnabled = a.destroyEnabled
  alive : a'.alive = a.alive

namespace EndedAt

variable {slot : BoxSlot} {slots : List BoxSlot} {a a' a'' : App κ}

theorem refl (a : App κ) : EndedAt [] a a := ⟨fun _ => rfl, rfl, rfl, rfl⟩

theorem of_recast (h : EndedAt slots a a') (hs : slot ∉ slots)
    (h' : Recast slot (a'.cell slot).ended a' a'') : EndedAt (slot :: slots) a a'' where
  cell other := by
    by_cases ho : other = slot
    · rw [ho, h'.get, h.cell, if_neg hs, if_pos List.mem_cons_self]
    · rw [h'.of_ne ho, h.cell]
      simp only [List.mem_cons, ho, false_or]
  status := h'.status.trans h.status
  destroyEnabled := h'.destroyEnabled.trans h.destroyEnabled
  alive := h'.alive.trans h.alive

theorem of_same (h : EndedAt slots a a') (h' : Recast slot (a'.cell slot) a' a'') :
    EndedAt slots a a'' where
  cell other := by rw [h'.cell, Function.update_eq_self, h.cell other]
  status := h'.status.trans h.status
  destroyEnabled := h'.destroyEnabled.trans h.destroyEnabled
  alive := h'.alive.trans h.alive

end EndedAt

def AllEnded (a a' : App κ) : Prop := a'.cell = fun slot => (a.cell slot).ended

theorem AllEnded.congr {a a' a'' : App κ} (h : AllEnded a a') (hc : a''.cell = a'.cell) :
    AllEnded a a'' := hc.trans h

theorem AllEnded.fit {a a' : App κ} (h : AllEnded a a') (ha : a.Fit) : a'.Fit where
  cells slot := by
    rw [h]
    exact (ha.cells slot).ended
  dead_of_over _ slot := by
    rw [h]
    exact Cell.alive_ended _

theorem AllEnded.ages {a a' : App κ} (h : AllEnded a a') (ha : a.Fit)
    (ho : a.Over → a'.Over ∧ a'.status = a.status) : Ages a a' where
  dead slot _ := by
    rw [h]
    exact Cell.alive_ended _
  of_over hover := by
    refine ⟨(ho hover).1, funext fun slot => ?_, (ho hover).2⟩
    rw [h]
    exact (ha.cells slot).ended_of_not_alive (ha.dead_of_over hover slot)

theorem EndedAt.all {a a' : App κ}
    (h : EndedAt [.customCalculator, .customNumeric, .panel .calculator, .panel .numeric] a a') :
    AllEnded a a' := by
  funext slot
  rw [h.cell, if_pos]
  rcases slot with (_ | _) | _ | _ <;> decide

section

variable {a : App κ} {slots : List BoxSlot} {w : World (App κ) (AppSubscriber κ) σ}

theorem destroyBox_endedAt (h : EndedAt slots a w.state) (slot : BoxSlot) (hs : slot ∉ slots) :
    ∃ w', destroyBox slot w = .ok ⟨⟩ w' ∧ EndedAt (slot :: slots) a w'.state := by
  obtain ⟨w', hw, hcast⟩ := destroyBox_ended slot w
  exact ⟨w', hw, h.of_recast hs hcast⟩

theorem disableSetters_endedAt (h : EndedAt slots a w.state) (s : PanelSlot) :
    ∃ w', disableSetters s w = .ok ⟨⟩ w' ∧ EndedAt slots a w'.state :=
  ⟨_, Run.change_apply _ _ _, h.of_same (recast_fill rfl rfl)⟩

theorem destroyAll_allEnded (w : World (App κ) (AppSubscriber κ) σ) :
    ∃ w', destroyAll w = .ok ⟨⟩ w' ∧ AllEnded w.state w'.state ∧
      w'.state.destroyEnabled = false := by
  obtain ⟨w₁, hw₁, h₁⟩ := destroyBox_endedAt (.refl w.state) (.panel .numeric) (by decide)
  obtain ⟨w₂, hw₂, h₂⟩ := disableSetters_endedAt h₁ .numeric
  obtain ⟨w₃, hw₃, h₃⟩ := destroyBox_endedAt h₂ (.panel .calculator) (by decide)
  obtain ⟨w₄, hw₄, h₄⟩ := disableSetters_endedAt h₃ .calculator
  obtain ⟨w₅, hw₅, h₅⟩ := destroyBox_endedAt h₄ .customNumeric (by decide)
  obtain ⟨w₆, hw₆, h₆⟩ := destroyBox_endedAt h₅ .customCalculator (by decide)
  obtain ⟨es, hrun⟩ : ∃ es, destroyAll w = .ok ⟨⟩ ⟨{ w₆.state with
      destroyEnabled := false, status := "All controls destroyed." }, w₆.memory, es⟩ := by
    unfold destroyAll
    rw [Run.bind_of_ok hw₁, Run.bind_of_ok hw₂, Run.bind_of_ok hw₃, Run.bind_of_ok hw₄,
      Run.bind_of_ok hw₅, Run.bind_of_ok hw₆]
    exact ⟨_, rfl⟩
  refine ⟨_, hrun, ?_, rfl⟩
  exact h₆.all.congr (cell_congr rfl rfl rfl rfl)

theorem quit_allEnded (w : World (App κ) (AppSubscriber κ) σ) :
    ∃ w', quit w = .ok ⟨⟩ w' ∧ AllEnded w.state w'.state ∧ w'.state.alive = false ∧
      w'.state.status = w.state.status := by
  let w₀ : World (App κ) (AppSubscriber κ) σ :=
    { w with state := { w.state with quits := w.state.quits + 1 } }
  have h₀ : EndedAt [] w.state w₀.state := ⟨congrFun (cell_congr rfl rfl rfl rfl), rfl, rfl, rfl⟩
  obtain ⟨w₁, hw₁, h₁⟩ := destroyBox_endedAt h₀ (.panel .numeric) (by decide)
  obtain ⟨w₂, hw₂, h₂⟩ := destroyBox_endedAt h₁ (.panel .calculator) (by decide)
  obtain ⟨w₃, hw₃, h₃⟩ := destroyBox_endedAt h₂ .customNumeric (by decide)
  obtain ⟨w₄, hw₄, h₄⟩ := destroyBox_endedAt h₃ .customCalculator (by decide)
  have hrun : quit w = .ok ⟨⟩ { w₄ with state := { w₄.state with alive := false } } := by
    unfold quit
    rw [Run.bind_of_ok (show Run.change _ _ w = .ok ⟨⟩ w₀ from rfl), Run.bind_of_ok hw₁,
      Run.bind_of_ok hw₂, Run.bind_of_ok hw₃, Run.bind_of_ok hw₄]
    rfl
  refine ⟨_, hrun, ?_, rfl, h₄.status⟩
  exact h₄.all.congr (cell_congr rfl rfl rfl rfl)

def sendOff (s : PanelSlot) (press : Press) (row : AppRun κ σ PUnit) : AppRun κ σ Datum := do
  if AppAction.canPress (← Run.read .whole) s press then row
  return .none

theorem sendOff_of_pressed {s : PanelSlot} {press : Press} {row : AppRun κ σ PUnit}
    {w' : World (App κ) (AppSubscriber κ) σ} (hp : AppAction.canPress w.state s press = true)
    (h : row w = .ok ⟨⟩ w') : sendOff s press row w = .ok .none w' :=
  (Run.bind_of_ok (Run.read_apply .whole w)).trans
    ((congrFun (if_pos hp) w).trans (Run.bind_of_ok h))

theorem sendOff_of_not_pressed {s : PanelSlot} {press : Press} (row : AppRun κ σ PUnit)
    (hp : AppAction.canPress w.state s press = false) : sendOff s press row w = .ok .none w :=
  (Run.bind_of_ok (Run.read_apply .whole w)).trans (congrFun (if_neg (Bool.eq_false_iff.mp hp)) w)

theorem sendOff_carried {s : PanelSlot} {p : Panel κ} {row : AppRun κ σ PUnit} (h : w.state.Fit)
    (hb : p.box = ((panel s).get w.state).box) (hr : p.readouts = ((panel s).get w.state).readouts)
    (hrow : ∀ {v : World (App κ) (AppSubscriber κ) σ}, v.state.Fit →
      ∃ w', row v = .ok ⟨⟩ w' ∧ Carried (.panel s) v.state w'.state) (press : Press) :
    ∃ w', sendOff s press row (w.set (panel s) p) = .ok .none w' ∧
      Carried (.panel s) w.state w'.state := by
  have hfill : Carried (.panel s) w.state (w.set (panel s) p).state :=
    .of_recast (recast_fill hb hr) (h.cells _) fun _ => rfl
  cases hp : AppAction.canPress (w.set (panel s) p).state s press with
  | false => exact ⟨_, sendOff_of_not_pressed row hp, hfill⟩
  | true =>
    obtain ⟨w', hw, hcarried⟩ := hrow (hfill.app_fit h)
    exact ⟨w', sendOff_of_pressed hp hw, hfill.trans hcarried⟩

variable [DecidableEq κ] (r : AppResponder κ σ κ)

theorem perform_setValue (s : PanelSlot) (text : Option String) (press : Press)
    (w : World (App κ) (AppSubscriber κ) σ) :
    (AppAction.setValue s text press).perform r w = sendOff s press (setValue s r) (w.set (panel s)
      { (panel s).get w.state with
        valueField := text.getD ((panel s).get w.state).valueField }) := by
  cases text with
  | none =>
    -- what the field holds already is put in it again
    exact congrArg _ (World.set_get (panel s) w).symm
  | some text => rfl

theorem perform_setText (s : PanelSlot) (text : Option String) (press : Press)
    (w : World (App κ) (AppSubscriber κ) σ) :
    (AppAction.setText s text press).perform r w = sendOff s press (setText s r) (w.set (panel s)
      { (panel s).get w.state with textField := text.getD ((panel s).get w.state).textField }) := by
  cases text with
  | none => exact congrArg _ (World.set_get (panel s) w).symm
  | some text => rfl

theorem setValue_step (h : w.state.Fit) (s : PanelSlot) (text : Option String) (press : Press) :
    ∃ w', (AppAction.setValue s text press).perform r w = .ok .none w' ∧
      Carried (.panel s) w.state w'.state := by
  rw [perform_setValue]
  refine sendOff_carried h ?_ ?_ (fun hv => setValue_carried hv s r) press <;> rfl

theorem setText_step (h : w.state.Fit) (s : PanelSlot) (text : Option String) (press : Press) :
    ∃ w', (AppAction.setText s text press).perform r w = .ok .none w' ∧
      Carried (.panel s) w.state w'.state := by
  rw [perform_setText]
  refine sendOff_carried h ?_ ?_ (fun hv => setText_carried hv s r) press <;> rfl

theorem destroyAll_step (h : w.state.Fit) :
    ∃ w', AppAction.destroyAll.perform r w = .ok .none w' ∧ w'.state.Fit ∧ Ages w.state w'.state ∧
      w'.state.Over := by
  by_cases hp : (w.state.alive && w.state.destroyEnabled) = true
  · have hnot : ¬ w.state.Over := by
      rw [Bool.and_eq_true] at hp
      simp [Over, hp]
    obtain ⟨w', hw, hended, hdone⟩ := destroyAll_allEnded w
    have hrun : AppAction.destroyAll.perform r w = .ok .none w' := by
      refine (Run.bind_of_ok (Run.read_apply .whole w)).trans ?_
      exact (congrFun (if_pos hp) w).trans (Run.bind_of_ok hw)
    exact ⟨w', hrun, hended.fit h, hended.ages h fun ho => absurd ho hnot, .inl hdone⟩
  · have hrun : AppAction.destroyAll.perform r w = .ok .none w := by
      refine (Run.bind_of_ok (Run.read_apply .whole w)).trans ?_
      exact congrFun (if_neg hp) w
    have hover : w.state.Over := by
      rw [Bool.and_eq_true, not_and_or, Bool.not_eq_true, Bool.not_eq_true] at hp
      exact hp.symm
    exact ⟨w, hrun, h, .refl _, hover⟩

theorem escape_step (h : w.state.Fit) :
    ∃ d w', AppAction.escape.perform r w = .ok d w' ∧ w'.state.Fit ∧ Ages w.state w'.state ∧
      w'.state.Over := by
  by_cases hp : w.state.alive = true
  · obtain ⟨w', hw, hended, hdone, hstatus⟩ := quit_allEnded w
    have hrun : AppAction.escape.perform r w = .ok (.list [.text "break"]) w' := by
      refine (Run.bind_of_ok (Run.read_apply .whole w)).trans ?_
      exact (congrFun (if_pos hp) w).trans (Run.bind_of_ok hw)
    exact ⟨_, w', hrun, hended.fit h, hended.ages h fun _ => ⟨.inr hdone, hstatus⟩, .inr hdone⟩
  · have hrun : AppAction.escape.perform r w = .ok (.list []) w := by
      refine (Run.bind_of_ok (Run.read_apply .whole w)).trans ?_
      exact congrFun (if_neg hp) w
    exact ⟨_, w, hrun, h, .refl _, .inr (Bool.eq_false_iff.mpr hp)⟩

end

end App

namespace Gesture

variable [DecidableEq κ] {r : AppResponder κ σ κ} {w : World (App κ) (AppSubscriber κ) σ}

/-- No gesture fails in a window that is fit, or leaves it unfit. -/
theorem perform_ok (h : w.state.Fit) (r : AppResponder κ σ κ) (g : Gesture) :
    ∃ d w', g.action.perform r w = .ok d w' ∧ w'.state.Fit ∧ App.Ages w.state w'.state := by
  cases g with
  | type slot s =>
    obtain ⟨w', hw, hcarried⟩ := App.type_carried h slot r s
    exact App.Carried.step h ⟨w', Run.bind_of_ok hw, hcarried⟩
  | focus slot focused =>
    obtain ⟨w', hw, hcarried⟩ := App.focus_carried h slot focused
    exact App.Carried.step h ⟨w', Run.bind_of_ok hw, hcarried⟩
  | destroyBox slot =>
    obtain ⟨w', hw, hcarried⟩ := App.destroyBox_carried h slot
    exact App.Carried.step h ⟨w', Run.bind_of_ok hw, hcarried⟩
  | setValue s text press => exact App.Carried.step h (App.setValue_step r h s text press)
  | setText s text press => exact App.Carried.step h (App.setText_step r h s text press)
  | destroyAll =>
    obtain ⟨w', hw, hfit, hages, -⟩ := App.destroyAll_step r h
    exact ⟨_, w', hw, hfit, hages⟩
  | escape =>
    obtain ⟨d, w', hw, hfit, hages, -⟩ := App.escape_step r h
    exact ⟨d, w', hw, hfit, hages⟩

end Gesture

def World.opened (m : σ) : World (App κ) (AppSubscriber κ) σ := ⟨App.create, m, []⟩

variable [DecidableEq κ]

def World.gestured (r : AppResponder κ σ κ) (gs : List Gesture)
    (w : World (App κ) (AppSubscriber κ) σ) : World (App κ) (AppSubscriber κ) σ :=
  gs.foldl (fun w g => (g.action.perform r).final w) w

namespace World

variable {w : World (App κ) (AppSubscriber κ) σ}

theorem gestured_cons (r : AppResponder κ σ κ) (g : Gesture) (gs : List Gesture)
    (w : World (App κ) (AppSubscriber κ) σ) :
    w.gestured r (g :: gs) = ((g.action.perform r).final w).gestured r gs := rfl

theorem gestured_append (r : AppResponder κ σ κ) (gs gs' : List Gesture)
    (w : World (App κ) (AppSubscriber κ) σ) :
    w.gestured r (gs ++ gs') = (w.gestured r gs).gestured r gs' :=
  List.foldl_append

theorem gestured_fit (h : w.state.Fit) (r : AppResponder κ σ κ) (gs : List Gesture) :
    (w.gestured r gs).state.Fit ∧ App.Ages w.state (w.gestured r gs).state := by
  induction gs generalizing w with
  | nil => exact ⟨h, .refl _⟩
  | cons g gs ih =>
    obtain ⟨d, w', hw, hfit, hages⟩ := g.perform_ok h r
    obtain ⟨hfit', hages'⟩ := ih hfit
    rw [gestured_cons, Run.final_of_ok hw]
    exact ⟨hfit', hages.trans hages'⟩

/-- Once everything has been destroyed, it stays so. -/
theorem gestured_over (h : w.state.Fit) (r : AppResponder κ σ κ) {gs : List Gesture}
    (hg : .destroyAll ∈ gs ∨ .escape ∈ gs) : (w.gestured r gs).state.Over := by
  obtain ⟨g, hmem, hover⟩ : ∃ g ∈ gs, ∀ v : World (App κ) (AppSubscriber κ) σ, v.state.Fit →
      ((g.action.perform r).final v).state.Over := by
    rcases hg with hg | hg
    · refine ⟨_, hg, fun v hv => ?_⟩
      obtain ⟨w', hw, -, -, hover⟩ := App.destroyAll_step r hv
      rwa [show (Gesture.destroyAll.action.perform r).final v = w' from Run.final_of_ok hw]
    · refine ⟨_, hg, fun v hv => ?_⟩
      obtain ⟨d, w', hw, -, -, hover⟩ := App.escape_step r hv
      rwa [show (Gesture.escape.action.perform r).final v = w' from Run.final_of_ok hw]
  -- up to that gesture the window is fit, and after it what is over stays so
  obtain ⟨before, after, rfl⟩ := List.append_of_mem hmem
  obtain ⟨hfit, -⟩ := gestured_fit h r before
  obtain ⟨d, w', hw, hfit', -⟩ := g.perform_ok hfit r
  have hclosed := hover _ hfit
  rw [gestured_append, gestured_cons]
  rw [Run.final_of_ok hw] at hclosed ⊢
  exact ((gestured_fit hfit' r after).2.of_over hclosed).1

end World

end FormulaEntry
