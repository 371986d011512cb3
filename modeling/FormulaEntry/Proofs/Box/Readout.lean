import FormulaEntry.Proofs.Box.Binding
import FormulaEntry.Proofs.Number.RoundTrip

/-! The readout of a box. It shows the result of the value that was announced last. The
control's value is that one as a number, but it need not be written like it. -/

namespace FormulaEntry

variable {κ σ : Type}

namespace Value

def result? : Value → Option String
  | empty => some ""
  | undetermined => some "?"
  | number n => n.text?

theorem eq_or_numbers {v w : Value} (h : v.toDatum.Same w.toDatum) :
    v = w ∨ ∃ m n, v = .number m ∧ w = .number n ∧ (Datum.number m).Same (.number n) := by
  cases v with
  | number m =>
    cases w with
    | number n => exact .inr ⟨m, n, rfl, rfl, h⟩
    | _ => exact absurd h (by simp [toDatum, Datum.Same])
  | _ => cases w <;> first | exact .inl rfl | exact absurd h (by simp [toDatum, Datum.Same])

end Value

namespace Content.Coherent

variable {a c : Content}

theorem resultText?_eq (hc : c.Coherent) : c.resultText? = c.value.result? := by
  unfold resultText?
  cases hv : c.value with
  | undetermined => rw [hc.undetermined_iff.1 hv]; rfl
  | _ =>
    have hvalid : c.isValid = true := by
      rw [← Bool.not_eq_false, ← hc.undetermined_iff, hv]
      exact Value.noConfusion
    rw [if_pos hvalid]
    rfl

theorem isValid_eq (ha : a.Coherent) (hc : c.Coherent) (h : a.value.toDatum.Same c.value.toDatum) :
    a.isValid = c.isValid := by
  have hiff : a.value = .undetermined ↔ c.value = .undetermined := by
    rcases Value.eq_or_numbers h with h | ⟨m, n, hm, hn, -⟩
    · rw [h]
    · simp [hm, hn]
  rw [ha.undetermined_iff, hc.undetermined_iff] at hiff
  simpa using hiff

/-- Values that are equal as numbers have the same result only if they are the same. -/
theorem resultText?_eq_iff (ha : a.Coherent) (hc : c.Coherent)
    (h : a.value.toDatum.Same c.value.toDatum) :
    a.resultText? = c.resultText? ↔ a.value = c.value := by
  rw [ha.resultText?_eq, hc.resultText?_eq]
  refine ⟨fun ht => ?_, congrArg _⟩
  rcases Value.eq_or_numbers h with h | ⟨m, n, hm, hn, hs⟩
  · exact h
  · have hfm := ha.finite m hm
    rw [hm, hn] at ht ⊢
    exact congrArg _ (Number.eq_of_text? hfm (hc.finite n hn) ((Datum.same_number_iff hfm).1 hs) ht)

end Content.Coherent

/-- The content of the latest edit that had its value announced, or `a` if there was none. -/
def lastAnnounced (a : Content) (cs : List Commit) : Content :=
  (cs.find? fun c => c.before.differsAt c.after .value).elim a Commit.after

theorem lastAnnounced_append (a : Content) (cs cs' : List Commit) :
    lastAnnounced a (cs ++ cs') = lastAnnounced (lastAnnounced a cs') cs := by
  unfold lastAnnounced
  rw [List.find?_append]
  cases cs.find? fun c => c.before.differsAt c.after .value <;> rfl

theorem lastAnnounced_singleton (a : Content) (c : Commit) :
    lastAnnounced a [c] = if c.before.differsAt c.after .value then c.after else a := by
  unfold lastAnnounced
  rw [List.find?_singleton]
  split <;> rfl

namespace Box

theorem readout_told (b : Box κ) (content : Content) :
    (b.told content).readout =
      if b.control.content.differsAt content .value ||
          b.control.content.differsAt content .isValid then
        b.readout.map fun _ => ⟨content.resultText?.getD "", resultColourOf content.isValid⟩
      else b.readout := by
  refine (foldl_heard (g := readout) (d := fun b => b.refreshed.readout) (P := (· != .text))
    (fun b f => ?_) (fun b f => ?_) _ _).trans ?_
  · cases f <;> simp [heard, refreshed, painted, Option.map_map, Function.comp_def]
  · cases f <;> rfl
  · rw [Content.any_changes]
    simp [refreshed]

/-- The readout shows the result of `announced`, whose value is that of the control as a number. -/
structure Reads (announced : Content) (b : Box κ) : Prop where
  coherent : announced.Coherent
  same : announced.value.toDatum.Same b.control.content.value.toDatum
  readout : ∃ text, announced.resultText? = some text ∧
    b.readout = some ⟨text, resultColourOf b.control.content.isValid⟩

variable {a : Content} {b : Box κ}

theorem Reads.told (h : b.Reads a) (hb : b.control.content.Coherent) {content : Content}
    (hc : content.Made) :
    (b.told content).Reads (if b.control.content.differsAt content .value then content else a) := by
  obtain ⟨text, ht, hr⟩ := h.readout
  by_cases hv : b.control.content.differsAt content .value = true
  · -- the value is announced, and the readout refreshed with it
    obtain ⟨text', ht'⟩ := Option.isSome_iff_exists.1 hc.hasResult
    rw [if_pos hv]
    refine ⟨hc.coherent, ?_, text', ht', ?_⟩
    · rw [control_told]
      exact hc.coherent.same_self .value
    · rw [readout_told, hv, Bool.true_or, if_pos rfl, hr, ht', control_told]
      rfl
  · -- neither the value nor the validity is announced, and the readout stays
    have hsame : b.control.content.value.toDatum.Same content.value.toDatum := by
      rwa [Content.differsAt_iff hb hc.coherent, Classical.not_not] at hv
    have hvalid := hb.isValid_eq hc.coherent hsame
    have hkept : b.control.content.differsAt content .isValid = false := by
      simp [Content.differsAt, hvalid]
    rw [if_neg hv]
    refine ⟨h.coherent, ?_, text, ht, ?_⟩
    · rw [control_told]
      exact h.same.trans hsame
    · rw [readout_told, Bool.eq_false_iff.2 hv, hkept, control_told, Control.content_withContent,
        ← hvalid]
      exact hr

theorem Reads.edited (h : b.Reads a) (hb : b.control.content.Coherent)
    (hd : b.control.derivation.GivesFinite) (edit : Edit) :
    (b.edited edit).Reads (lastAnnounced a (b.control.commitsOf edit)) := by
  unfold Box.edited Control.commitsOf
  cases he : Content.ofEdit b.control.derivation edit with
  | error e => exact h
  | ok made =>
    have htold := h.told hb (Content.made_ofEdit hd he)
    exact (lastAnnounced_singleton a _).symm ▸ htold

theorem Reads.congr (h : b.Reads a) {b' : Box κ} (hc : b'.control = b.control)
    (hr : b'.readout = b.readout) : b'.Reads a :=
  ⟨h.coherent, hc ▸ h.same, by rw [hc, hr]; exact h.readout⟩

theorem Reads.apply (h : b.Reads a) (hb : b.control.content.Coherent)
    (hd : b.control.derivation.GivesFinite) (u : Use) :
    (u.apply b).Reads (lastAnnounced a (u.edit?.elim [] b.control.commitsOf)) := by
  cases u with
  | type s =>
    have htyped : ({ b with entry := s, handling := true } : Box κ).Reads a := h.congr rfl rfl
    exact (htyped.edited hb hd (.text (.text s))).congr rfl rfl
  | edit e => exact h.edited hb hd e
  | focus f => exact h.congr rfl rfl

variable [DecidableEq κ] {kind : ControlKind} {focused : Bool}
    {w : World (Box κ) (BoxSubscriber κ) σ}

theorem used_reads (r : BoxResponder (Box κ) κ σ κ) (uses : List Use)
    (hs : w.state.Settled kind focused) (hh : w.state.handling = false)
    (hr : w.state.Reads (lastAnnounced a (commits w.history))) :
    (w.used r uses).state.Reads (lastAnnounced a (commits (w.used r uses).history)) := by
  induction uses generalizing w focused with
  | nil => exact hr
  | cons u uses ih =>
    obtain ⟨es, hes, hu⟩ := perform_use r hs.bound hh hs.givesFinite u
    rw [World.used_cons, hu]
    refine ih (w := ⟨u.apply w.state, w.memory, es ++ w.history⟩) (hs.apply u)
      (handling_apply hh u) ?_
    rw [commits_append, hes, lastAnnounced_append]
    exact hr.apply hs.bound.made.coherent hs.givesFinite u

/-- The readout is in the colour of the control's validity. Its text is the result of the
value announced last, and that is the control's result if and only if the value has not
since become another one of the same number. -/
theorem readout_current_iff (kind : ControlKind) (name host : Option String)
    (showResult : Option Bool) (hresult : showResult.getD (kind == .calculator) = true)
    (r : BoxResponder (Box κ) κ σ κ) (m : σ) (uses : List Use) :
    let w := World.used r uses ⟨create kind name host showResult fun _ => [], m, []⟩
    let announced := lastAnnounced .initial (commits w.history)
    ∃ text, w.state.readout = some ⟨text, resultColourOf w.state.control.content.isValid⟩ ∧
      announced.resultText? = some text ∧
      announced.value.toDatum.Same w.state.control.content.value.toDatum ∧
      (w.state.control.content.resultText? = some text ↔
        announced.value = w.state.control.content.value) := by
  let created : World (Box κ) (BoxSubscriber κ) σ :=
    ⟨create kind name host showResult fun _ => [], m, []⟩
  have hcreated : created.state.Reads .initial :=
    ⟨Content.coherent_initial, rfl, "", rfl, if_pos hresult⟩
  have hsettled := settled_create (κ := κ) kind name host showResult
  have hs := used_settled r uses (w := created) hsettled rfl
  have hreads := used_reads r uses (w := created) hsettled rfl hcreated
  obtain ⟨text, ht, hr⟩ := hreads.readout
  refine ⟨text, hr, ht, hreads.same, ?_⟩
  rw [← ht, eq_comm]
  exact hreads.coherent.resultText?_eq_iff hs.bound.made.coherent hreads.same

/-- Nobody besides the box subscribes, so that nobody has to answer. -/
def unattended : BoxResponder (Box Unit) Unit Unit Unit := ⟨fun _ => "", fun _ _ => pure false⟩

def calculator : World (Box Unit) (BoxSubscriber Unit) Unit :=
  ⟨create .calculator none none none fun _ => [], (), []⟩

theorem negative_zero_read_out :
    let w := calculator.used unattended [.type "-0"]
    ∃ text, w.state.readout = some ⟨text, Colour.result⟩ ∧
      w.state.control.content.resultText? = some text := by
  obtain ⟨text, hr, -, -, hiff⟩ :=
    readout_current_iff .calculator none none none rfl unattended () [.type "-0"]
  exact ⟨text, hr, hiff.2 (by decide +kernel)⟩

/-- Zero is the same number without its sign, so that nothing is announced. -/
theorem zero_not_read_out :
    let w := calculator.used unattended [.type "-0", .type "0"]
    w.state.readout = some ⟨"-0.0", Colour.result⟩ ∧
      w.state.control.content.resultText? = some "0.0" := by
  decide +kernel

end Box

end FormulaEntry
