import FormulaEntry.Proofs.Box.Run

/-! The binding of a box and its control. However edits through the entry and edits of the
control alternate, the box shows the control, and the control is what the edits alone would
have made of it. -/

namespace FormulaEntry

variable {κ σ : Type}

theorem Content.any_changes (old new : Content) (P : Field → Bool) :
    (old.changes new).any P =
      (old.differsAt new .value && P .value || old.differsAt new .text && P .text ||
        old.differsAt new .isValid && P .isValid) := by
  simp [changes, Field.all, List.any_filter, Bool.or_assoc]

namespace Box

theorem foldl_heard_same {α : Type} {g : Box κ → α} (hg : ∀ b f, g (b.heard f) = g b)
    (fs : List Field) (b : Box κ) : g (fs.foldl heard b) = g b :=
  (foldl_heard (P := fun _ => true) hg hg fs b).trans (ite_self _)

section

variable (b : Box κ) (content : Content)

@[simp] theorem control_told : (b.told content).control = b.control.withContent content :=
  foldl_heard_same (fun _ f => by cases f <;> rfl) _ _

@[simp] theorem active_told : (b.told content).active = b.active :=
  foldl_heard_same (fun _ f => by cases f <;> rfl) _ _

@[simp] theorem handling_told : (b.told content).handling = b.handling :=
  foldl_heard_same (fun _ f => by cases f <;> rfl) _ _

theorem entry_told :
    (b.told content).entry =
      if b.control.content.text != content.text then content.text else b.entry := by
  refine (foldl_heard (d := fun b => b.control.content.text) (P := (· == .text))
    (fun _ f => by cases f <;> rfl) (fun _ f => by cases f <;> rfl) _ _).trans ?_
  rw [Content.any_changes]
  simp [Content.differsAt]

theorem entryColour_told :
    (b.told content).entryColour =
      if b.control.content.isValid != content.isValid then entryColourOf content.isValid
      else b.entryColour := by
  refine (foldl_heard (d := fun b => entryColourOf b.control.content.isValid) (P := (· == .isValid))
    (fun _ f => by cases f <;> rfl) (fun _ f => by cases f <;> rfl) _ _).trans ?_
  rw [Content.any_changes]
  simp [Content.differsAt]

theorem border_told :
    (b.told content).border.resting =
      if b.control.content.isValid != content.isValid then borderColourOf content.isValid b.active
      else b.border.resting := by
  refine (foldl_heard (g := fun b : Box κ => b.border.resting)
    (d := fun b => borderColourOf b.control.content.isValid b.active) (P := (· == .isValid))
    (fun _ f => by cases f <;> rfl) (fun _ f => by cases f <;> rfl) _ _).trans ?_
  rw [Content.any_changes]
  simp [Content.differsAt]

end

/-- Bringing `x` up to date only if `b` is not `a` is enough if it was so with `a`. -/
theorem ite_bne_eq {α β : Type} [BEq α] [LawfulBEq α] {a b : α} {g : α → β} {x : β} (h : x = g a) :
    (if a != b then g b else x) = g b := by
  split
  · rfl
  · next hab =>
    obtain rfl : a = b := by simpa using hab
    exact h

/-- The box shows the text and the validity of its control, and whether it has the focus. -/
structure Shows (focused : Bool) (b : Box κ) : Prop where
  entry : b.entry = b.control.content.text
  entryColour : b.entryColour = entryColourOf b.control.content.isValid
  active : b.active = focused
  border : b.border.resting = borderColourOf b.control.content.isValid focused

/-- A content that is told about is shown, if the entry has its text already or had the one
before. -/
theorem shows_told {b : Box κ} {focused : Bool} {content : Content}
    (hentry : b.entry = b.control.content.text ∨ b.entry = content.text)
    (hcolour : b.entryColour = entryColourOf b.control.content.isValid)
    (hactive : b.active = focused)
    (hborder : b.border.resting = borderColourOf b.control.content.isValid focused) :
    (b.told content).Shows focused where
  entry := by
    rw [entry_told, control_told, Control.content_withContent]
    rcases hentry with h | h
    · exact ite_bne_eq (g := fun text => text) h
    · rw [h]
      exact ite_self _
  entryColour := by
    rw [entryColour_told, control_told, Control.content_withContent]
    exact ite_bne_eq hcolour
  active := by rw [active_told, hactive]
  border := by
    rw [border_told, control_told, Control.content_withContent, hactive]
    exact ite_bne_eq (g := fun isValid => borderColourOf isValid focused) hborder

/-- A box between two uses. -/
structure Settled (kind : ControlKind) (focused : Bool) (b : Box κ) : Prop where
  bound : b.Bound fun _ => []
  derivation : b.control.derivation = kind.derivation
  shows : b.Shows focused

theorem settled_create (kind : ControlKind) (name host : Option String) (showResult : Option Bool) :
    (create kind name host showResult fun _ => [] : Box κ).Settled kind false where
  bound := ⟨rfl, rfl, rfl, rfl, fun f => by cases f <;> rfl, .empty⟩
  derivation := rfl
  shows := ⟨rfl, rfl, rfl, rfl⟩

variable {kind : ControlKind} {focused : Bool} {b : Box κ}

theorem settled_told {content : Content} (hb : b.Bound fun _ => [])
    (hd : b.control.derivation = kind.derivation) (hc : content.Made)
    (hs : (b.told content).Shows focused) : (b.told content).Settled kind focused where
  bound := (hb.withContent hc).foldl_heard _
  derivation := by rw [control_told, Control.derivation_withContent, hd]
  shows := hs

theorem edited_of_ok {edit : Edit} {content : Content} {remark : Option Remark}
    (h : Content.ofEdit b.control.derivation edit = .ok (content, remark)) :
    b.edited edit = b.told content := by
  unfold Box.edited
  rw [h]

theorem Settled.givesFinite (h : b.Settled kind focused) : b.control.derivation.GivesFinite :=
  h.derivation ▸ kind.givesFinite

theorem Settled.edited (h : b.Settled kind focused) (edit : Edit) :
    (b.edited edit).Settled kind focused := by
  unfold Box.edited
  split
  · next content _ hd =>
    exact settled_told h.bound h.derivation (Content.made_ofEdit h.givesFinite hd)
      (shows_told (.inl h.shows.entry) h.shows.entryColour h.shows.active h.shows.border)
  · exact h

theorem Settled.typed (h : b.Settled kind focused) (s : String) :
    ((Use.type s).apply b).Settled kind focused := by
  let b₁ := { b with entry := s, handling := true }
  obtain ⟨content, remark, hd, ht⟩ := Content.exists_ofText (h.derivation ▸ kind.faultsContent) s
  have htold : b₁.edited (.text (.text s)) = b₁.told content := edited_of_ok hd
  have hb₁ : (b₁.told content).Settled kind focused :=
    settled_told (h.bound.congr rfl rfl rfl rfl) h.derivation (Content.made_ofText h.givesFinite hd)
      (shows_told (.inr ht.symm) h.shows.entryColour h.shows.active h.shows.border)
  rw [Use.apply, htold]
  exact ⟨hb₁.bound.congr rfl rfl rfl rfl, hb₁.derivation,
    ⟨hb₁.shows.entry, hb₁.shows.entryColour, hb₁.shows.active, hb₁.shows.border⟩⟩

theorem Settled.apply (h : b.Settled kind focused) (u : Use) :
    (u.apply b).Settled kind (u.focused focused) := by
  cases u with
  | type s => exact h.typed s
  | edit e => exact h.edited e
  | focus f =>
    exact ⟨h.bound.congr rfl rfl rfl rfl, h.derivation,
      ⟨h.shows.entry, h.shows.entryColour, rfl, rfl⟩⟩

theorem handling_edited (b : Box κ) (edit : Edit) : (b.edited edit).handling = b.handling := by
  unfold Box.edited
  split
  · exact handling_told _ _
  · rfl

theorem handling_apply (hb : b.handling = false) (u : Use) : (u.apply b).handling = false := by
  cases u with
  | type s => rfl
  | edit e => exact (handling_edited b e).trans hb
  | focus f => exact hb

theorem control_edited (b : Box κ) (edit : Edit) :
    (b.edited edit).control = b.control.edited edit := by
  unfold Box.edited Control.edited
  cases Content.ofEdit b.control.derivation edit with
  | ok made => exact control_told _ _
  | error e => rfl

theorem control_apply (b : Box κ) (u : Use) :
    (u.apply b).control = u.edit?.elim b.control b.control.edited := by
  cases u with
  | type s => exact control_edited _ _
  | edit e => exact control_edited b e
  | focus f => rfl

end Box

namespace Control

variable {κ' : Type}

/-- Controls that differ by their subscribers at most. -/
structure Alike (c : Control κ) (c' : Control κ') : Prop where
  name : c.name = c'.name
  derivation : c.derivation = c'.derivation
  content : c.content = c'.content

variable {c : Control κ} {c' : Control κ'}

theorem Alike.commitsOf (h : c.Alike c') (edit : Edit) : c.commitsOf edit = c'.commitsOf edit := by
  unfold Control.commitsOf
  rw [h.name, h.derivation, h.content]

theorem Alike.edited (h : c.Alike c') (edit : Edit) : (c.edited edit).Alike (c'.edited edit) := by
  unfold Control.edited
  rw [h.derivation]
  split
  · exact ⟨h.name, h.derivation, rfl⟩
  · exact h

end Control

variable {κ' σ' : Type} [DecidableEq κ]

def World.used (r : BoxResponder (Box κ) κ σ κ) (uses : List Use)
    (w : World (Box κ) (BoxSubscriber κ) σ) : World (Box κ) (BoxSubscriber κ) σ :=
  uses.foldl (fun w u => (u.action.perform .whole r).final w) w

def World.edited (r : Responder (Control κ') κ' σ' κ') (edits : List Edit)
    (w : World (Control κ') κ' σ') : World (Control κ') κ' σ' :=
  edits.foldl (fun w e => (Control.update .whole r e).final w) w

theorem World.used_cons (r : BoxResponder (Box κ) κ σ κ) (u : Use) (uses : List Use)
    (w : World (Box κ) (BoxSubscriber κ) σ) :
    w.used r (u :: uses) = ((u.action.perform .whole r).final w).used r uses := rfl

omit [DecidableEq κ] in
theorem World.edited_cons (r : Responder (Control κ) κ σ κ) (e : Edit) (edits : List Edit)
    (w : World (Control κ) κ σ) :
    w.edited r (e :: edits) = ((Control.update .whole r e).final w).edited r edits := rfl

namespace Box

variable {kind : ControlKind} {focused : Bool} {w : World (Box κ) (BoxSubscriber κ) σ}
variable {v : World (Control κ') κ' σ'}

theorem used_settled (r : BoxResponder (Box κ) κ σ κ) (uses : List Use)
    (h : w.state.Settled kind focused) (hh : w.state.handling = false) :
    (w.used r uses).state.Settled kind (uses.foldl (fun before u => u.focused before) focused) := by
  induction uses generalizing w focused with
  | nil => exact h
  | cons u uses ih =>
    obtain ⟨es, -, hu⟩ := perform_use r h.bound hh h.givesFinite u
    rw [World.used_cons, hu]
    exact ih (w := ⟨u.apply w.state, w.memory, es ++ w.history⟩) (h.apply u) (handling_apply hh u)

/-- Whoever only makes the edits of the uses, to a control that nobody subscribes to, has
that control go the way of the box's. -/
theorem used_alike (r : BoxResponder (Box κ) κ σ κ) (r' : Responder (Control κ') κ' σ' κ')
    (uses : List Use) (h : w.state.Settled kind focused) (hh : w.state.handling = false)
    (hbare : v.state.Bare) (ha : w.state.control.Alike v.state)
    (hc : commits w.history = commits v.history) :
    (w.used r uses).state.control.Alike (v.edited r' (uses.filterMap Use.edit?)).state ∧
      commits (w.used r uses).history =
        commits (v.edited r' (uses.filterMap Use.edit?)).history := by
  induction uses generalizing w v focused with
  | nil => exact ⟨ha, hc⟩
  | cons u uses ih =>
    obtain ⟨es, hes, hu⟩ := perform_use r h.bound hh h.givesFinite u
    have hcontrol := control_apply w.state u
    rw [World.used_cons, hu]
    cases hedit : u.edit? with
    | none =>
      -- a change of focus, which the bare control takes no part in
      rw [hedit] at hes hcontrol
      rw [List.filterMap_cons_none hedit]
      refine ih (w := ⟨u.apply w.state, w.memory, es ++ w.history⟩) (h.apply u)
        (handling_apply hh u) hbare ?_ ?_
      · exact hcontrol ▸ ha
      · rw [commits_append, hes, ← hc]
        rfl
    | some e =>
      rw [hedit] at hes hcontrol
      obtain ⟨es', hes', he⟩ := Control.update_bare r' hbare e
      rw [List.filterMap_cons_some hedit, World.edited_cons, he]
      refine ih (w := ⟨u.apply w.state, w.memory, es ++ w.history⟩) (h.apply u)
        (handling_apply hh u)
        (v := ⟨v.state.edited e, v.memory, es' ++ v.history⟩) (hbare.edited e) ?_ ?_
      · exact hcontrol ▸ ha.edited e
      · rw [commits_append, commits_append, hes, hes', hc]
        exact congrArg (· ++ _) (ha.commitsOf e)

/-- However a box is used, its control lives and is shown by it. The control holds what it
would hold without the box, and the edits that were stored are the same, one for one. -/
theorem box_shows_edited_control (kind : ControlKind) (name host : Option String)
    (showResult : Option Bool) (r : BoxResponder (Box κ) κ σ κ)
    (r' : Responder (Control κ') κ' σ' κ') (m : σ) (m' : σ') (uses : List Use) :
    let w := World.used r uses ⟨create kind name host showResult fun _ => [], m, []⟩
    let bare := World.edited r' (uses.filterMap Use.edit?)
      ⟨.create (Control.nameOr kind.defaultName name) kind.derivation fun _ => [], m', []⟩
    w.state.control.alive = true ∧
      w.state.Shows (uses.foldl (fun before u => u.focused before) false) ∧
      w.state.control.content = bare.state.content ∧ commits w.history = commits bare.history := by
  have hcreated := settled_create (κ := κ) kind name host showResult
  have hs :=
    used_settled r uses (w := ⟨create kind name host showResult fun _ => [], m, []⟩) hcreated rfl
  obtain ⟨ha, hc⟩ :=
    used_alike r r' uses (w := ⟨create kind name host showResult fun _ => [], m, []⟩) hcreated rfl
    (v := ⟨.create (Control.nameOr kind.defaultName name) kind.derivation fun _ => [], m', []⟩)
    (Control.bare_create _ _) ⟨rfl, rfl, rfl⟩ rfl
  exact ⟨hs.bound.controlAlive, hs.shows, ha.content, hc⟩

end Box

end FormulaEntry
