import FormulaEntry.Proofs.App.Gesture

/-! How long things last in the window. Controls are destroyed one by one, all together or with the
window, in any order and as often as one likes; none of it fails or is ever undone, and when all is
over the window shows what it showed last. -/

namespace FormulaEntry

variable {κ σ : Type}

namespace App

/-- Nothing of it can be seen in the window. -/
structure Still (a a' : App κ) : Prop where
  entry : ∀ slot, ((box slot).get a').entry = ((box slot).get a).entry
  readouts : ∀ s, ((panel s).get a').readouts = ((panel s).get a).readouts
  status : a'.status = a.status

theorem Ages.still {a a' : App κ} (h : Ages a a') (ho : a.Over) : Still a a' := by
  obtain ⟨-, hcell, hstatus⟩ := h.of_over ho
  refine ⟨fun slot => ?_, fun s => ?_, hstatus⟩
  · rw [← box_cell, ← box_cell, hcell]
  · exact Option.some.inj (congrArg Cell.readouts (congrFun hcell (.panel s)))

end App

section

variable [DecidableEq κ]

/-- Whatever has been done in the window, nothing that is done next fails, no control comes back to
life, and from the moment they are all destroyed nothing changes any more. -/
theorem gestures_never_fail_or_revive (r : AppResponder κ σ κ) (m : σ) (gs : List Gesture) :
    let w := (World.opened m).gestured r gs
    (∀ g : Gesture, ∃ d w', g.action.perform r w = .ok d w') ∧
    (∀ slot later, ((App.box slot).get w.state).control.alive = false →
      ((App.box slot).get (w.gestured r later).state).control.alive = false) ∧
    (.destroyAll ∈ gs ∨ .escape ∈ gs →
      (∀ slot, ((App.box slot).get w.state).control.alive = false) ∧
      ∀ later, App.Still w.state (w.gestured r later).state) := by
  intro w
  have hopened : (World.opened m : World (App κ) (AppSubscriber κ) σ).state.Fit := App.fit_create
  obtain ⟨hfit, -⟩ := World.gestured_fit hopened r gs
  refine ⟨fun g => ?_, fun slot later hd => ?_, fun hg => ?_⟩
  · obtain ⟨d, w', hw, -⟩ := g.perform_ok hfit r
    exact ⟨d, w', hw⟩
  · obtain ⟨-, hages⟩ := World.gestured_fit hfit r later
    rw [← App.box_cell] at hd ⊢
    exact hages.dead slot hd
  · have hover := World.gestured_over hopened r hg
    refine ⟨fun slot => ?_, fun later => ?_⟩
    · rw [← App.box_cell]
      exact hfit.dead_of_over hover slot
    · obtain ⟨-, hages⟩ := World.gestured_fit hfit r later
      exact hages.still hover

end

/-- A box that is destroyed twice, once by itself and once with the others, and is typed into
afterwards. -/
theorem destroyed_twice_and_typed_into :
    let nobody : AppResponder Empty Unit Empty := ⟨nofun, nofun⟩
    let w := (World.opened ()).gestured nobody
      [.type .customNumeric "1", .destroyBox .customNumeric, .destroyAll]
    let w' := w.gestured nobody [.type .customNumeric "2", .focus .customNumeric true, .escape]
    ((App.box .customNumeric).get w.state).control.alive = false ∧
      ((App.box .customNumeric).get w'.state).control.alive = false ∧
        App.Still w.state w'.state := by
  obtain ⟨-, hdead, hover⟩ :=
    gestures_never_fail_or_revive (⟨nofun, nofun⟩ : AppResponder Empty Unit Empty) ()
    [.type .customNumeric "1", .destroyBox .customNumeric, .destroyAll]
  obtain ⟨hall, hstill⟩ := hover (.inl (by simp))
  dsimp only
  exact ⟨hall .customNumeric, hdead .customNumeric _ (hall .customNumeric), hstill _⟩

end FormulaEntry
