import FormulaEntry.Proofs.App.Basic
import FormulaEntry.Proofs.Box.Binding
import FormulaEntry.Proofs.Number.Rounding

/-! What is shown next to a box. The readouts are told of a change only if the values differ as
numbers, so that of a zero they may show the sign it had when it was last announced; all else they
show as it is. This and the binding of the box is what a cell keeps through everything that is
done to it. -/

namespace FormulaEntry

variable {κ : Type}

namespace Content

/-- The control holds a finite double, if it holds a number. -/
def HoldsDouble (c : Content) : Prop :=
  ∀ n, c.value = .number n → ∃ x : Double, n = .double x ∧ x.isFinite = true

theorem holdsDouble_ofText {d : Derivation} {c : Content} {remark : Option Remark}
    (hd : d.GivesFinite) {text : String} (h : ofText d text = .ok (c, remark)) : c.HoldsDouble := by
  intro n hn
  unfold ofText at h
  split at h
  · obtain ⟨rfl, -⟩ := Prod.mk.inj (Except.ok.inj h)
    cases hn
  · split at h
    · next v hv =>
      obtain ⟨x, hx, rfl⟩ := hd _ _ hv
      obtain ⟨rfl, -⟩ := Prod.mk.inj (Except.ok.inj h)
      exact ⟨x, (Value.number.inj hn).symm, hx⟩
    · split at h
      · obtain ⟨rfl, -⟩ := Prod.mk.inj (Except.ok.inj h)
        cases hn
      · cases h

end Content

namespace Display

theorem value?_of_made {c : Content} (hc : c.Made) : (value? c.value.toDatum).isSome = true := by
  cases hc with
  | empty => rfl
  | invalid => rfl
  | number _ _ ht => exact ht

theorem textOf?_text (s : String) : textOf? (.text s) = some (text s) := by
  change (if !s.isEmpty then some s else some (text "")) = some (if s.isEmpty then "\"\"" else s)
  cases s.isEmpty <;> rfl

end Display

def Datum.ofEntry (v : Option Double) : Datum := v.elim .none fun x => .number (.double x)

theorem parseValueEntry_finite {text : String} {x : Double}
    (h : parseValueEntry text = .ok (some x)) : x.isFinite = true := by
  unfold parseValueEntry at h
  split at h
  · cases h
  · cases hp : parseNumber text with
    | error e => simp [hp, Except.map] at h
    | ok y =>
      rw [hp] at h
      obtain rfl := Option.some.inj (Except.ok.inj h)
      exact parseNumber_finite hp

/-- A value from a row is always taken. -/
theorem Content.exists_ofEntry (d : Derivation) {text : String} {v : Option Double}
    (h : parseValueEntry text = .ok v) :
    ∃ c, ofEdit d (.value (.ofEntry v)) = .ok (c, none) ∧ c.Made ∧ c.HoldsDouble ∧
      c.value.toDatum = .ofEntry v := by
  cases v with
  | none => exact ⟨_, rfl, .empty, fun _ hn => (by cases hn), rfl⟩
  | some x =>
    have hx := parseValueEntry_finite h
    refine ⟨⟨.number (.double x), x.text, true⟩, ?_, .number x.text_ne_empty hx rfl, ?_, rfl⟩
    · change ofNumber (.double x) = _
      simp [ofNumber, Number.text?, orTooLong, bind, Except.bind, pure, Except.pure, hx]
    · intro n hn
      exact ⟨x, (Value.number.inj hn).symm, hx⟩

namespace Value

/-- The same, or both zero with and without its sign. -/
def SameUpToZero (v w : Value) : Prop :=
  v = w ∨ ∃ x y : Double, v = .number (.double x) ∧ w = .number (.double y) ∧ x.isZero = true ∧
    y.isZero = true

theorem SameUpToZero.trans {u v w : Value} (h : u.SameUpToZero v) (h' : v.SameUpToZero w) :
    u.SameUpToZero w := by
  rcases h with rfl | ⟨x, y, rfl, rfl, hx, hy⟩
  · exact h'
  · rcases h' with rfl | ⟨y', z, -, rfl, -, hz⟩
    · exact .inr ⟨x, y, rfl, rfl, hx, hy⟩
    · exact .inr ⟨x, z, rfl, rfl, hx, hz⟩

end Value

theorem Content.HoldsDouble.sameUpToZero {old new : Content} (ho : old.HoldsDouble)
    (hn : new.HoldsDouble) (h : old.value.differs new.value = false) :
    old.value.SameUpToZero new.value := by
  cases hv : old.value with
  | number m =>
    cases hw : new.value with
    | number n =>
      obtain ⟨x, rfl, hx⟩ := ho m hv
      obtain ⟨y, rfl, hy⟩ := hn n hw
      rw [hv, hw, Value.differs] at h
      have hq : (Number.double x).rational? = (Number.double y).rational? := by
        by_contra hne
        rw [(Number.differs_iff (m := .double x) (n := .double y) hx hy).mpr hne] at h
        cases h
      rw [Number.rational?, Number.rational?, Double.rational?_of_isFinite hx,
        Double.rational?_of_isFinite hy, Option.some_inj, div_left_inj' Double.unitsPerOne_ne_zero,
        Int.cast_inj] at hq
      rcases Double.eq_or_isZero_of_signedUnits hx hy hq with rfl | ⟨hzx, hzy⟩
      · exact .inl rfl
      · exact .inr ⟨x, y, rfl, rfl, hzx, hzy⟩
    | _ => simp [hv, hw, Value.differs] at h
  | _ => exact .inl (by cases hw : new.value <;> simp_all [Value.differs])

namespace Readouts

/-- The readouts show the text and the validity of a content, and its value up to the sign of a
zero. -/
structure Shows (content : Content) (o : Readouts) : Prop where
  text : o.text = Display.text content.text
  isValid : o.isValid = Display.validity content.isValid
  value : ∃ v : Value, v.SameUpToZero content.value ∧ Display.value? v.toDatum = some o.value

section

variable (old new : Content) (o : Readouts)

theorem text_foldl_heard : ((old.changes new).foldl (heard new) o).text =
    if old.text != new.text then Display.text new.text else o.text := by
  refine (Box.foldl_heard (d := fun _ => Display.text new.text) (P := (· == .text))
    (fun _ f => rfl) (fun _ f => by cases f <;> rfl) _ _).trans ?_
  rw [Content.any_changes]
  simp [Content.differsAt]

theorem isValid_foldl_heard : ((old.changes new).foldl (heard new) o).isValid =
    if old.isValid != new.isValid then Display.validity new.isValid else o.isValid := by
  refine (Box.foldl_heard (d := fun _ => Display.validity new.isValid) (P := (· == .isValid))
    (fun _ f => rfl) (fun _ f => by cases f <;> rfl) _ _).trans ?_
  rw [Content.any_changes]
  simp [Content.differsAt]

theorem value_foldl_heard : ((old.changes new).foldl (heard new) o).value =
    if old.value.differs new.value then
      (Display.value? new.value.toDatum).getD "" else o.value := by
  refine (Box.foldl_heard (d := fun _ => (Display.value? new.value.toDatum).getD "")
    (P := (· == .value)) (fun _ f => rfl) (fun _ f => by cases f <;> rfl) _ _).trans ?_
  rw [Content.any_changes]
  simp [Content.differsAt]

end

theorem Shows.told {old new : Content} {o : Readouts} (h : o.Shows old) (ho : old.HoldsDouble)
    (hn : new.HoldsDouble) (hm : new.Made) : ((old.changes new).foldl (heard new) o).Shows new where
  text := by
    rw [text_foldl_heard]
    exact Box.ite_bne_eq h.text
  isValid := by
    rw [isValid_foldl_heard]
    exact Box.ite_bne_eq h.isValid
  value := by
    rw [value_foldl_heard]
    cases hd : old.value.differs new.value with
    | true =>
      obtain ⟨shown, hs⟩ := Option.isSome_iff_exists.mp (Display.value?_of_made hm)
      exact ⟨new.value, .inl rfl, by rw [hs]; rfl⟩
    | false =>
      -- nobody is told, and the readout keeps what it shows
      obtain ⟨v, hv, hs⟩ := h.value
      exact ⟨v, hv.trans (ho.sameUpToZero hn hd), hs⟩

end Readouts

namespace Cell

structure Live (slot : BoxSlot) (c : Cell κ) : Prop where
  bound : c.box.Bound slot.readers
  derivation : c.box.control.derivation = slot.kind.derivation
  double : c.box.control.content.HoldsDouble
  shown : ∀ o ∈ c.readouts, o.Shows c.box.control.content

/-- A cell between two gestures. The box goes when its control goes. -/
structure Fit (slot : BoxSlot) (c : Cell κ) : Prop where
  idle : c.box.handling = false
  together : c.box.alive = c.box.control.alive
  live : c.box.control.alive = true → c.Live slot

variable {slot : BoxSlot} {c : Cell κ}

theorem Live.exists_ofText (h : c.Live slot) (s : String) :
    ∃ content remark, Content.ofText c.box.control.derivation s = .ok (content, remark) ∧
      content.Made ∧ content.HoldsDouble := by
  obtain ⟨content, remark, htext, -⟩ := Content.exists_ofText slot.kind.faultsContent s
  have hm := Content.made_ofText slot.kind.givesFinite htext
  have hv := Content.holdsDouble_ofText slot.kind.givesFinite htext
  exact ⟨content, remark, h.derivation ▸ htext, hm, hv⟩

theorem Live.withBox (h : c.Live slot) {b : Box (PanelSubscriber κ)} (hb : b.Bound slot.readers)
    (hc : b.control = c.box.control) : (c.withBox b).Live slot where
  bound := hb
  derivation := (congrArg Control.derivation hc).trans h.derivation
  double := by
    change b.control.content.HoldsDouble
    rw [hc]
    exact h.double
  shown := by
    change ∀ o ∈ c.readouts, o.Shows b.control.content
    rw [hc]
    exact h.shown

theorem Live.told (h : c.Live slot) {content : Content} (hm : content.Made)
    (hv : content.HoldsDouble) : (c.told content).Live slot where
  bound := by
    rw [box_told]
    exact (h.bound.withContent hm).foldl_heard _
  derivation := by
    rw [box_told, Box.control_told]
    exact h.derivation
  double := by
    rw [box_told, Box.control_told]
    exact hv
  shown := by
    rw [box_told, Box.control_told, Control.content_withContent, readouts_told]
    intro o ho
    obtain ⟨o', ho', rfl⟩ := Option.map_eq_some_iff.mp ho
    exact (h.shown o' ho').told h.double hv hm

theorem Live.fit (h : c.Live slot) (hh : c.box.handling = false) : c.Fit slot where
  idle := hh
  together := h.bound.alive.trans h.bound.controlAlive.symm
  live _ := h

theorem Live.typed (h : c.Live slot) {s : String} {content : Content} (hm : content.Made)
    (hv : content.HoldsDouble) : (c.typed s content).Fit slot := by
  have htyping : (c.withBox { c.box with entry := s, handling := true }).Live slot :=
    h.withBox (h.bound.congr rfl rfl rfl rfl) rfl
  have htold := htyping.told hm hv
  have htyped : (c.typed s content).Live slot :=
    htold.withBox (htold.bound.congr rfl rfl rfl rfl) rfl
  exact htyped.fit rfl

theorem Live.focused (h : c.Live slot) (hh : c.box.handling = false) (focused : Bool) :
    (c.focused focused).Fit slot := by
  have hfocused : (c.focused focused).Live slot := h.withBox (h.bound.congr rfl rfl rfl rfl) rfl
  exact hfocused.fit hh

theorem alive_ended (c : Cell κ) : c.ended.box.control.alive = false := by
  unfold ended withBox Box.ended
  split
  · rfl
  · next ha => exact Bool.eq_false_iff.mpr ha

theorem Fit.ended (h : c.Fit slot) : c.ended.Fit slot where
  idle := by
    unfold Cell.ended Cell.withBox Box.ended
    split <;> exact h.idle
  together := by
    rw [alive_ended]
    unfold Cell.ended Cell.withBox Box.ended
    split <;> rfl
  live ha := absurd (ha.symm.trans (alive_ended c)) (by simp)

theorem Fit.ended_of_not_alive (h : c.Fit slot) (ha : c.box.control.alive = false) :
    c.ended = c := by
  have hbox : c.box.alive = false := h.together.trans ha
  unfold Cell.ended Cell.withBox Box.ended
  rw [ha, if_neg Bool.false_ne_true, ← hbox]

theorem fit_create (slot : BoxSlot) : ((App.create : App κ).cell slot).Fit slot := by
  refine Live.fit ⟨?_, ?_, ?_, ?_⟩ ?_
  · rcases slot with (_ | _) | _ | _
    all_goals exact ⟨rfl, rfl, rfl, rfl, fun f => by cases f <;> rfl, .empty⟩
  · rcases slot with (_ | _) | _ | _ <;> rfl
  · rcases slot with (_ | _) | _ | _ <;> exact fun _ hn => by cases hn
  · rcases slot with (_ | _) | _ | _
    all_goals
      intro o ho
      cases ho
    all_goals exact ⟨rfl, rfl, .empty, .inl rfl, rfl⟩
  · rcases slot with (_ | _) | _ | _ <;> rfl

end Cell

end FormulaEntry
