import FormulaEntry.App.Actions
import FormulaEntry.Proofs.Box.Run
import Mathlib.Logic.Function.Basic

/-! The window, taken apart into its boxes and what is shown next to them. What is done to one box
is done to its cell and to nothing else: `Recast` says so, and the laws of the window come down
to laws of single cells. -/

namespace FormulaEntry

variable {κ σ : Type}

/-- A box of the window, with the readouts next to it if it sits in a panel. -/
structure Cell (κ : Type) where
  box : Box (PanelSubscriber κ)
  readouts : Option Readouts

def Readouts.heard (content : Content) (o : Readouts) : Field → Readouts
  | .value => { o with value := (Display.value? content.value.toDatum).getD "" }
  | .text => { o with text := Display.text content.text }
  | .isValid => { o with isValid := Display.validity content.isValid }

/-- Who subscribes to the control of the box besides the box itself. -/
def BoxSlot.readers : BoxSlot → Field → List (PanelSubscriber κ)
  | panel _, f => [.readout f]
  | customNumeric, _ | customCalculator, _ => []

namespace Cell

def withBox (c : Cell κ) (b : Box (PanelSubscriber κ)) : Cell κ := ⟨b, c.readouts⟩

def readOut (c : Cell κ) (f : Field) : Cell κ :=
  ⟨c.box, c.readouts.map fun o => o.heard c.box.control.content f⟩

/-- The box is told first. -/
def heard (c : Cell κ) (f : Field) : Cell κ := (c.withBox (c.box.heard f)).readOut f

def told (c : Cell κ) (content : Content) : Cell κ :=
  (c.box.control.content.changes content).foldl heard
    (c.withBox { c.box with control := c.box.control.withContent content })

def typed (c : Cell κ) (s : String) (content : Content) : Cell κ :=
  let after := (c.withBox { c.box with entry := s, handling := true }).told content
  after.withBox { after.box with handling := false }

def focused (c : Cell κ) (focused : Bool) : Cell κ :=
  c.withBox ({ c.box with active := focused } : Box (PanelSubscriber κ)).painted

def ended (c : Cell κ) : Cell κ := c.withBox c.box.ended

theorem box_told (c : Cell κ) (content : Content) : (c.told content).box = c.box.told content :=
  (List.foldl_hom box fun _ _ => rfl).symm

theorem readouts_foldl_heard (fs : List Field) (c : Cell κ) :
    (fs.foldl heard c).readouts = c.readouts.map fun o =>
      fs.foldl (Readouts.heard c.box.control.content) o := by
  induction fs generalizing c with
  | nil => simp
  | cons f fs ih =>
    have hcontrol : (c.heard f).box.control = c.box.control := Box.control_heard c.box f
    rw [List.foldl_cons, ih, hcontrol]
    simp [heard, readOut, withBox, Box.control_heard, Function.comp_def]

theorem readouts_told (c : Cell κ) (content : Content) :
    (c.told content).readouts = c.readouts.map fun o =>
      (c.box.control.content.changes content).foldl (Readouts.heard content) o :=
  readouts_foldl_heard _ _

end Cell

namespace App

def cell (a : App κ) : BoxSlot → Cell κ
  | .panel s => ⟨((panel s).get a).box, some ((panel s).get a).readouts⟩
  | .customNumeric => ⟨a.customNumeric, none⟩
  | .customCalculator => ⟨a.customCalculator, none⟩

theorem cell_congr {a a' : App κ} (hn : a'.numeric = a.numeric) (hc : a'.calculator = a.calculator)
    (hcn : a'.customNumeric = a.customNumeric) (hcc : a'.customCalculator = a.customCalculator) :
    a'.cell = a.cell := by
  funext slot
  rcases slot with (_ | _) | _ | _ <;> simp only [cell, panel, hn, hc, hcn, hcc]

theorem box_cell (a : App κ) (slot : BoxSlot) : (a.cell slot).box = (box slot).get a := by
  cases slot <;> rfl

/-- One cell has become `c`. The other cells are what they were, and so is what does not belong to
any cell. -/
structure Recast (slot : BoxSlot) (c : Cell κ) (a a' : App κ) : Prop where
  cell : a'.cell = Function.update a.cell slot c
  status : a'.status = a.status
  destroyEnabled : a'.destroyEnabled = a.destroyEnabled
  alive : a'.alive = a.alive

namespace Recast

variable {slot : BoxSlot} {c c' : Cell κ} {a a' a'' : App κ}

theorem refl (slot : BoxSlot) (a : App κ) : Recast slot (a.cell slot) a a :=
  ⟨(Function.update_eq_self slot a.cell).symm, rfl, rfl, rfl⟩

theorem trans (h : Recast slot c a a') (h' : Recast slot c' a' a'') : Recast slot c' a a'' where
  cell := by rw [h'.cell, h.cell, Function.update_idem]
  status := h'.status.trans h.status
  destroyEnabled := h'.destroyEnabled.trans h.destroyEnabled
  alive := h'.alive.trans h.alive

theorem get (h : Recast slot c a a') : a'.cell slot = c := by rw [h.cell, Function.update_self]

theorem of_ne (h : Recast slot c a a') {other : BoxSlot} (ho : other ≠ slot) :
    a'.cell other = a.cell other := by
  rw [h.cell, Function.update_of_ne ho]

end Recast

theorem recast_panel (s : PanelSlot) (p : Panel κ) (a : App κ) :
    Recast (.panel s) ⟨p.box, some p.readouts⟩ a ((panel s).set p a) where
  cell := by
    refine Function.eq_update_iff.mpr ⟨by cases s <;> rfl, fun other ho => ?_⟩
    cases s <;> rcases other with (_ | _) | _ | _ <;> first | exact absurd rfl ho | rfl
  status := by cases s <;> rfl
  destroyEnabled := by cases s <;> rfl
  alive := by cases s <;> rfl

theorem recast_fill {s : PanelSlot} {p : Panel κ} {a : App κ} (hb : p.box = ((panel s).get a).box)
    (hr : p.readouts = ((panel s).get a).readouts) :
    Recast (.panel s) (a.cell (.panel s)) a ((panel s).set p a) := by
  have h := recast_panel s p a
  rwa [hb, hr] at h

theorem recast_box (slot : BoxSlot) (b : Box (PanelSubscriber κ)) (a : App κ) :
    Recast slot ((a.cell slot).withBox b) a ((box slot).set b a) := by
  cases slot with
  | panel s => exact recast_panel s { (panel s).get a with box := b } a
  | customNumeric | customCalculator =>
    refine ⟨Function.eq_update_iff.mpr ⟨rfl, fun other ho => ?_⟩, rfl, rfl, rfl⟩
    rcases other with (_ | _) | _ | _ <;> first | exact absurd rfl ho | rfl

def readOut : BoxSlot → App κ → Field → App κ
  | .panel s, a, f =>
    let p := (panel s).get a
    (panel s).set { p with readouts := p.readouts.heard p.box.control.content f } a
  | .customNumeric, a, _ | .customCalculator, a, _ => a

theorem recast_readOut (slot : BoxSlot) (a : App κ) (f : Field) :
    Recast slot ((a.cell slot).readOut f) a (readOut slot a f) := by
  cases slot with
  | panel s =>
    let p := (panel s).get a
    exact recast_panel s { p with readouts := p.readouts.heard p.box.control.content f } a
  | customNumeric | customCalculator => exact .refl _ a

end App

end FormulaEntry
