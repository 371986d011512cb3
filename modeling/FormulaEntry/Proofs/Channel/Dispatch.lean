import FormulaEntry.Proofs.Channel.Basic
import FormulaEntry.Proofs.Script

/-! Deliveries. Whatever the subscribers do to the channel while it delivers, and however
their own deliveries nest in one another, a payload goes to those who were subscribed when
its delivery began, each of whom is run with it once. The channel is left as all that was done
to it, one thing after the other, makes it. -/

namespace FormulaEntry

variable {κ σ : Type}

def Event.alteration? {S : Type} : Event S κ → Option (Alteration κ)
  | altered _ a => some a
  | _ => none

/-- The calls that a delivery makes, out of all that happens until it is over. While
deliveries within it go on, `inner` many, the calls are theirs. -/
def ownCalls {S : Type} : Nat → List (Event S κ) → List (κ × Datum)
  | _, [] => []
  | inner, .opened _ _ :: es => ownCalls (inner + 1) es
  | inner, .closed _ :: es => ownCalls (inner - 1) es
  | 0, .called _ k payload _ :: es => (k, payload) :: ownCalls 0 es
  | inner, _ :: es => ownCalls inner es

variable [DecidableEq κ]

namespace Channel

/-- The channel after the events, oldest first. -/
def altered {S : Type} (c : Channel κ) (es : List (Event S κ)) : Channel κ :=
  { c with
    subscribers := (es.filterMap Event.alteration?).foldl (fun ks a => a.apply ks) c.subscribers }

theorem altered_append {S : Type} (c : Channel κ) (es₁ es₂ : List (Event S κ)) :
    c.altered (es₁ ++ es₂) = (c.altered es₁).altered es₂ := by
  simp [altered, List.filterMap_append, List.foldl_append]

/-- From one world to a later one the channel went the way of the events between, and
these make `calls` of their own. -/
def Goes (calls : List (κ × Datum)) (w w' : World (Channel κ) κ σ) : Prop :=
  ∃ es, w'.history = es.reverse ++ w.history ∧ w'.state = w.state.altered es ∧
    (∀ rest, ownCalls 0 (es ++ rest) = calls ++ ownCalls 0 rest) ∧
    ∀ inner rest, ownCalls (inner + 1) (es ++ rest) = ownCalls (inner + 1) rest

namespace Goes

variable {w w₁ w₂ : World (Channel κ) κ σ} {calls calls₁ calls₂ : List (κ × Datum)}

theorem refl (w : World (Channel κ) κ σ) : Goes [] w w :=
  ⟨[], rfl, rfl, fun _ => rfl, fun _ _ => rfl⟩

theorem trans (h₁ : Goes calls₁ w w₁) (h₂ : Goes calls₂ w₁ w₂) : Goes (calls₁ ++ calls₂) w w₂ := by
  obtain ⟨es₁, hh₁, hs₁, hc₁, hi₁⟩ := h₁
  obtain ⟨es₂, hh₂, hs₂, hc₂, hi₂⟩ := h₂
  refine ⟨es₁ ++ es₂, ?_, ?_, fun rest => ?_, fun inner rest => ?_⟩
  · rw [hh₂, hh₁, List.reverse_append, List.append_assoc]
  · rw [hs₂, hs₁, altered_append]
  · rw [List.append_assoc, hc₁, hc₂, List.append_assoc]
  · rw [List.append_assoc, hi₁, hi₂]

theorem logged (w : World (Channel κ) κ σ) (record : LogRecord) :
    Goes [] w { w with history := .logged record :: w.history } :=
  ⟨[.logged record], rfl, rfl, fun _ => rfl, fun _ _ => rfl⟩

theorem called (w : World (Channel κ) κ σ) (name : String) (k : κ) (payload : Datum) :
    Goes [(k, payload)] w { w with history := .called name k payload w.state :: w.history } :=
  ⟨[.called name k payload w.state], rfl, rfl, fun _ => rfl, fun _ _ => rfl⟩

theorem altered (w : World (Channel κ) κ σ) (a : Alteration κ) : Goes [] w (w.altered .whole a) :=
  ⟨[.altered w.state.name a], rfl, rfl, fun _ => rfl, fun _ _ => rfl⟩

/-- A delivery within another one makes none of the other's calls. -/
theorem delivered {name : String} {payload : Datum}
    (h : Goes calls { w with history := .opened name payload :: w.history } w₁) :
    Goes [] w { w₁ with history := .closed name :: w₁.history } := by
  obtain ⟨es, hh, hs, -, hi⟩ := h
  refine ⟨.opened name payload :: (es ++ [.closed name]), by simp [hh], ?_, fun rest => ?_,
    fun inner rest => ?_⟩
  · change w₁.state = w.state.altered (es ++ [.closed name])
    rw [altered_append]
    exact hs
  · rw [List.cons_append, List.append_assoc]
    exact hi 0 _
  · rw [List.cons_append, List.append_assoc]
    exact hi _ _

end Goes

instance : IsPreorder (World (Channel κ) κ σ) (Goes []) where
  refl := Goes.refl
  trans _ _ _ := Goes.trans

section

variable {r : Responder (Channel κ) κ σ κ} {w w' : World (Channel κ) κ σ}

theorem Called.goes {name : String} {payload : Datum} {k : κ} (hr : r.Respects (Goes []))
    (h : Called name r payload k w w') : Goes [(k, payload)] w w' := by
  have hcall := (Goes.called w name k payload).trans (hr k payload _)
  rcases h.left with rfl | ⟨record, rfl⟩
  · exact hcall
  · exact hcall.trans (.logged _ record)

theorem Calls.goes {name : String} {payload : Datum} {ks : List κ} (hr : r.Respects (Goes []))
    (h : Calls name r payload ks w w') : Goes (ks.map (·, payload)) w w' := by
  induction h with
  | nil w => exact .refl w
  | cons h _ ih => exact (h.goes hr).trans ih

theorem trigger_goes (hr : r.Respects (Goes [])) (payload : Datum) :
    (trigger .whole r payload).Respects (Goes []) := by
  intro w
  cases hs : w.state.subscribers with
  | none => rw [Run.final_of_error (trigger_of_none (p := .whole) hs)]; exact .refl w
  | some ks =>
    obtain ⟨w', h, hc⟩ := trigger_calls (p := .whole) (r := r) hs payload
    rw [Run.final_of_ok h]
    exact (hc.goes hr).delivered

end

/-- A step taken with a channel by its user or by one of its subscribers, to whom the
`audience` lends their reactions. -/
abbrev step (audience : Audience κ σ (Step (ChannelAction κ))) (depth : Nat) :
    Step (ChannelAction κ) → Run (Channel κ) κ σ Datum :=
  Step.performWithin (fun r a => a.perform .whole r) audience depth

/-- The subscribers as they answer the calls of a session of the depth. -/
abbrev answering (audience : Audience κ σ (Step (ChannelAction κ))) (depth : Nat) :
    Responder (Channel κ) κ σ κ :=
  Step.responderWithin (fun r a => a.perform .whole r) audience depth

theorem answering_goes (audience : Audience κ σ (Step (ChannelAction κ))) (depth : Nat) :
    (answering audience depth).Respects (Goes []) :=
  Step.responderWithin_respects (p := fun _ => True)
    (fun _ _ => ⟨[], rfl, rfl, fun _ => rfl, fun _ _ => rfl⟩)
    (fun w => ⟨[.noted w.state], rfl, rfl, fun _ => rfl, fun _ _ => rfl⟩)
    (fun _ hr _ _ => ChannelAction.perform_respects (fun w a _ _ => .altered w a) fun payload _ =>
      trigger_goes hr payload)
    (fun _ _ => Script.all_of_forall (fun _ => trivial) _) depth

/-- A payload sent through a live channel is what those who are subscribed by then are run with, in
the order of their subscriptions and once for each, and sending it does not fail. When it is over,
the channel is what all the alterations by the subscribers have made of it, and each of these did to
the channel what it is meant to do, unless the channel had been destroyed by then. -/
theorem trigger_calls_subscribed (audience : Audience κ σ (Step (ChannelAction κ))) (depth : Nat)
    (name : String) (ks : List κ) (payload : Datum) (m : σ) (past : List (Event (Channel κ) κ)) :
    (∃ es m',
      let entered : World (Channel κ) κ σ := ⟨.create name ks, m, .opened name payload :: past⟩
      let left : World (Channel κ) κ σ :=
        ⟨(create name ks).altered es, m', es.reverse ++ entered.history⟩
      step audience depth (.act (.trigger payload)) ⟨.create name ks, m, past⟩ =
        .ok .none (left.recorded (.closed name)) ∧
      Calls name (answering audience depth) payload ks entered left ∧
      ownCalls 0 es = ks.map (·, payload)) ∧
    (∀ k payload, (answering audience (depth + 1)).call k payload =
      (audience.react k payload).run (step audience depth)) ∧
    ∀ (a : ChannelAction κ) (alteration : Alteration κ), a.alteration? = some alteration →
      ∀ w : World (Channel κ) κ σ,
        (alteration.Admits True w.state.subscribers →
          step audience depth (.act a) w = .ok .none (w.altered .whole alteration)) ∧
        (¬ alteration.Admits True w.state.subscribers →
          step audience depth (.act a) w = .error (.channelDestroyed w.state.name) w) := by
  have hstep : step audience depth =
      Step.perform (fun r a => a.perform .whole r) (answering audience depth) :=
    Step.performWithin_eq _ _ _
  refine ⟨?_, fun k payload => rfl, ?_⟩ <;> rw [hstep]
  · obtain ⟨⟨state, m', history⟩, h, hc⟩ := trigger_calls (p := .whole)
      (w := ⟨.create name ks, m, past⟩) (r := answering audience depth) rfl payload
    obtain ⟨es, hhistory, hstate, hown, -⟩ := hc.goes (answering_goes audience depth)
    obtain rfl : state = (create name ks).altered es := hstate
    obtain rfl : history = es.reverse ++ .opened name payload :: past := hhistory
    exact ⟨es, m', Run.bind_of_ok h, hc, by simpa [ownCalls] using hown []⟩
  · intro a alteration h w
    exact ⟨ChannelAction.perform_of_alteration (p := .whole) h,
      ChannelAction.perform_of_not_admits (p := .whole) h⟩

/-- Everybody writes down what text they are called with. The first removes the second and itself,
takes on another one and sends a text of its own; the second destroys the channel. -/
def turnover : Audience Nat (List (Nat × String)) (Step (ChannelAction Nat)) where
  label k := if k = 0 then "first" else if k = 1 then "second" else "third"
  react k payload := .consult fun m =>
    .remember (m ++ [(k, match payload with | .text s => s | _ => "")]) (.steps false (match k with
      | 0 => [.act (.off (.subscriber 1)), .act (.off (.subscriber 0)),
          .act (.on (.subscriber 2)), .act (.trigger (.text "again"))]
      | 1 => [.act .destroy]
      | _ => []))

/-- The second is called although it has been removed, and the first once more on a channel that is
destroyed by then, where it fails. -/
theorem turnover_delivered :
    ∃ es m', step turnover 2 (.act (.trigger (.text "x"))) ⟨.create "event" [0, 1, 0], [], []⟩ =
        .ok .none ⟨(create "event" [0, 1, 0]).altered es, m',
          .closed "event" :: (es.reverse ++ [.opened "event" (.text "x")])⟩ ∧
      ownCalls 0 es = [(0, .text "x"), (1, .text "x"), (0, .text "x")] ∧
      es.filterMap Event.alteration? = [.removed 1, .removed 0, .added 2, .ended] ∧
      m' = [(0, "x"), (2, "again"), (1, "x"), (0, "x")] := by
  obtain ⟨es, m', hstep, -, hown⟩ :=
    (trigger_calls_subscribed turnover 2 "event" [0, 1, 0] (.text "x") [] []).1
  have hmemory : ((step turnover 2 (.act (.trigger (.text "x")))).final
      ⟨.create "event" [0, 1, 0], [], []⟩).memory =
        [(0, "x"), (2, "again"), (1, "x"), (0, "x")] := by decide +kernel
  have halterations : ((step turnover 2 (.act (.trigger (.text "x")))).final
      ⟨.create "event" [0, 1, 0], [], []⟩).history.reverse.filterMap Event.alteration? =
        [.removed 1, .removed 0, .added 2, .ended] := by decide +kernel
  rw [Run.final_of_ok hstep] at hmemory halterations
  refine ⟨es, m', hstep, hown, ?_, hmemory⟩
  simpa [Event.alteration?, List.filterMap_cons, List.filterMap_append] using halterations

end Channel

end FormulaEntry
