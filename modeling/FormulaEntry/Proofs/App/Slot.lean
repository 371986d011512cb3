import FormulaEntry.Proofs.App.Shown

/-! What is done to a single box of the window, as seen from its cell. An edit is told to the box
and then to the readouts, and nothing that a user can do with a live box fails. -/

namespace FormulaEntry

variable {κ σ : Type}

namespace App

variable {slot : BoxSlot} {w : World (App κ) (AppSubscriber κ) σ}

/-- The readouts follow any content that an edit can make. -/
theorem showReadout_apply (s : PanelSlot) (f : Field) {content : Content}
    (hc : ((panel s).get w.state).box.control.content = content) (hm : content.Made) :
    showReadout s f (content.get f) w =
      .ok ⟨⟩ { w with state := readOut (.panel s) w.state f } := by
  subst hc
  cases f with
  | value =>
    obtain ⟨shown, hs⟩ := Option.isSome_iff_exists.mp (Display.value?_of_made hm)
    simp only [showReadout, Content.get, readOut, Readouts.heard, hs]
    rfl
  | text =>
    simp only [showReadout, Content.get, Display.textOf?_text]
    rfl
  | isValid => rfl

theorem hears (slot : BoxSlot) (st : String → AppRun κ σ PUnit) (r : AppResponder κ σ κ) :
    Box.Hears (box slot) (Box.responderVia (box slot) st (responder r slot)) slot.readers
      (readOut slot) := by
  cases slot with
  | customNumeric => exact Box.hears_nobody _ _
  | customCalculator => exact Box.hears_nobody _ _
  | panel s =>
    refine ⟨fun w f hb => ?_, fun a f => by cases s <;> rfl⟩
    let content := ((panel s).get w.state).box.control.content
    let name := ((panel s).get w.state).box.control.channelName f
    let call : Event (App κ) (AppSubscriber κ) :=
      .called name (.other (.readout f)) (content.get f) w.state
    have hshow := showReadout_apply (w := { w with history := call :: w.history }) s f rfl hb.made
    refine ⟨[call], rfl, Run.bind_of_ok (Channel.deliver_of_ok ?_)⟩
    exact Run.bind_of_ok hshow

theorem recast_heard (slot : BoxSlot) (a : App κ) (f : Field) :
    Recast slot ((a.cell slot).heard f) a
      (readOut slot ((box slot).set (((box slot).get a).heard f) a) f) := by
  have hbox := recast_box slot (((box slot).get a).heard f) a
  have hread := recast_readOut slot ((box slot).set (((box slot).get a).heard f) a) f
  rw [hbox.get, ← box_cell] at hread
  rw [← box_cell] at hbox ⊢
  exact hbox.trans hread

theorem recast_foldl_heard (slot : BoxSlot) (fs : List Field) (a : App κ) :
    Recast slot (fs.foldl Cell.heard (a.cell slot)) a
      (fs.foldl (fun a f => readOut slot ((box slot).set (((box slot).get a).heard f) a) f) a) := by
  induction fs generalizing a with
  | nil => exact .refl slot a
  | cons f fs ih =>
    have hf := recast_heard slot a f
    have hfs := ih (readOut slot ((box slot).set (((box slot).get a).heard f) a) f)
    rw [hf.get] at hfs
    exact hf.trans hfs

/-- An edit that is derived is stored and told. -/
theorem update_told (slot : BoxSlot) (st : String → AppRun κ σ PUnit) (r : AppResponder κ σ κ)
    {edit : Edit} {content : Content} {remark : Option Remark}
    (hb : (w.state.cell slot).box.Bound slot.readers)
    (hd : Content.ofEdit (w.state.cell slot).box.control.derivation edit = .ok (content, remark))
    (hm : content.Made) : ∃ w', Control.update ((box slot).andThen Box.controlPart)
        (Box.responderVia (box slot) st (responder r slot)) edit w = .ok ⟨⟩ w' ∧
      Recast slot ((w.state.cell slot).told content) w.state w'.state := by
  let b := (box slot).get w.state
  let stored := { b with control := b.control.withContent content }
  have hstored := recast_box slot stored w.state
  rw [box_cell] at hb hd
  have hbound : ((box slot).get ((box slot).set stored w.state)).Bound slot.readers := by
    rw [(box slot).get_set]
    exact hb.withContent hm
  obtain ⟨es, -, h⟩ := (hears slot st r).tells.update (w := w) hb.controlAlive hd hbound
  refine ⟨_, h, ?_⟩
  have htold :=
    recast_foldl_heard slot (b.control.content.changes content) ((box slot).set stored w.state)
  rw [hstored.get] at htold
  rw [Cell.told, box_cell]
  exact hstored.trans htold

theorem type_typed (slot : BoxSlot) (r : AppResponder κ σ κ) {s : String} {content : Content}
    {remark : Option Remark} (hb : (w.state.cell slot).box.Bound slot.readers)
    (hh : (w.state.cell slot).box.handling = false)
    (hd : Content.ofText (w.state.cell slot).box.control.derivation s = .ok (content, remark))
    (hm : content.Made) :
    ∃ w', Box.type (box slot) (responder r slot) s w = .ok ⟨⟩ w' ∧
      Recast slot ((w.state.cell slot).typed s content) w.state w'.state := by
  rw [box_cell] at hb hh hd
  let typing := { (box slot).get w.state with entry := s, handling := true }
  have htyping := recast_box slot typing w.state
  have hbound : ((w.set (box slot) typing).state.cell slot).box.Bound slot.readers := by
    rw [box_cell, World.get_set]
    exact hb.congr rfl rfl rfl rfl
  have hedit : Content.ofEdit ((w.set (box slot) typing).state.cell slot).box.control.derivation
      (.text (.text s)) = .ok (content, remark) := by
    rw [box_cell, World.get_set]
    exact hd
  obtain ⟨w', hw, hcast⟩ := update_told slot
    (Box.setText (box slot) (Box.responderVia (box slot) (fun _ => pure ()) (responder r slot))) r
    hbound hedit hm
  refine ⟨_, Box.type_of_ok hb hh hw, ?_⟩
  rw [show (w.set (box slot) typing).state.cell slot = _ from htyping.get] at hcast
  have hdone := recast_box slot { (box slot).get w'.state with handling := false } w'.state
  have htyped : (w'.state.cell slot).withBox { (box slot).get w'.state with handling := false } =
      (w.state.cell slot).typed s content := by
    rw [← box_cell, hcast.get, Cell.typed, box_cell]
  exact (htyping.trans hcast).trans (htyped ▸ hdone)

theorem setActive_painted (slot : BoxSlot) (hb : (w.state.cell slot).box.Bound slot.readers)
    (focused : Bool) : ∃ w', Box.setActive (box slot) focused w = .ok ⟨⟩ w' ∧
      Recast slot ((w.state.cell slot).focused focused) w.state w'.state := by
  rw [box_cell] at hb
  obtain ⟨es, -, h⟩ := Box.setActive_of_alive hb focused
  refine ⟨_, h, ?_⟩
  rw [Cell.focused, box_cell]
  exact recast_box slot _ w.state

theorem destroyBox_ended (slot : BoxSlot) (w : World (App κ) (AppSubscriber κ) σ) :
    ∃ w', destroyBox slot w = .ok ⟨⟩ w' ∧
      Recast slot (w.state.cell slot).ended w.state w'.state := by
  obtain ⟨es, -, h⟩ := Box.destroy_apply (box slot) w
  refine ⟨_, h, ?_⟩
  rw [Cell.ended, box_cell]
  exact recast_box slot _ w.state

end App

end FormulaEntry
