import FormulaEntry.Proofs.Run

/-! What becomes of the steps of a channel, wherever in the state it is. Whatever is asked
of it alters its subscribers, sends a payload or changes nothing. -/

namespace FormulaEntry

variable {S κ σ : Type}

/-- A live channel takes and drops subscribers; whether it may be ended is up to `alone`. -/
def Alteration.Admits (alone : Prop) (ks : Option (List κ)) : Alteration κ → Prop
  | added _ | removed _ => ks.isSome
  | ended => alone

def Alteration.apply [DecidableEq κ] : Alteration κ → Option (List κ) → Option (List κ)
  | added k, ks => ks.map (· ++ [k])
  | removed k, ks => ks.map (·.filter (· ≠ k))
  | ended, _ => none

def ChannelAction.alteration? : ChannelAction κ → Option (Alteration κ)
  | on (.subscriber k) => some (.added k)
  | off (.subscriber k) => some (.removed k)
  | destroy => some .ended
  | _ => none

def World.altered [DecidableEq κ] (p : Part S (Channel κ)) (a : Alteration κ) (w : World S κ σ) :
    World S κ σ :=
  let c := p.get w.state
  { w with
    state := p.set { c with subscribers := a.apply c.subscribers } w.state
    history := .altered c.name a :: w.history }

abbrev World.recorded (e : Event S κ) (w : World S κ σ) : World S κ σ :=
  { w with history := e :: w.history }

variable {p : Part S (Channel κ)} {r : Responder S κ σ κ} {w w' : World S κ σ}
variable {payload : Datum} {ks : List κ}

namespace Channel

theorem live_of_some (hs : (p.get w.state).subscribers = some ks) : live p w = .ok ks w := by
  unfold live
  rw [Run.bind_of_ok (Run.read_apply _ _), hs]
  rfl

theorem live_of_none (hs : (p.get w.state).subscribers = none) :
    live p w = .error (.channelDestroyed (p.get w.state).name) w := by
  unfold live
  rw [Run.bind_of_ok (Run.read_apply _ _), hs]
  rfl

section

variable [DecidableEq κ]

theorem alter_of_apply {a : Alteration κ} {ks : Option (List κ)}
    (h : a.apply (p.get w.state).subscribers = ks) : alter p ks a w = .ok ⟨⟩ (w.altered p a) := by
  subst h
  rfl

theorem on_of_some (hs : (p.get w.state).subscribers = some ks) (k : κ) :
    on p (.subscriber k) w = .ok ⟨⟩ (w.altered p (.added k)) :=
  (Run.bind_of_ok (live_of_some hs)).trans (alter_of_apply (by rw [hs]; rfl))

theorem off_of_some (hs : (p.get w.state).subscribers = some ks) (k : κ) :
    off p (.subscriber k) w = .ok ⟨⟩ (w.altered p (.removed k)) :=
  (Run.bind_of_ok (live_of_some hs)).trans (alter_of_apply (by rw [hs]; rfl))

theorem destroy_apply (w : World S κ σ) : destroy p w = .ok ⟨⟩ (w.altered p .ended) := rfl

end

theorem live_respects {R : World S κ σ → World S κ σ → Prop} [IsPreorder (World S κ σ) R] :
    (live p).Respects R := by
  refine (Run.Respects.read p).bind fun c => ?_
  cases c.subscribers with
  | none => exact .throw _
  | some ks => exact .pure ks

/-- What becomes of the world when a subscriber is called. It is run with the payload once its
call is noted; what it did wrong is logged after all it did. -/
inductive Called (name : String) (r : Responder S κ σ κ) (payload : Datum) (k : κ)
    (w : World S κ σ) : World S κ σ → Prop where
  | answered {w' : World S κ σ} :
      r.call k payload (w.recorded (.called name k payload w.state)) = .ok false w' →
      Called name r payload k w w'
  | awaitable {w' : World S κ σ} :
      r.call k payload (w.recorded (.called name k payload w.state)) = .ok true w' →
      Called name r payload k w (w'.recorded (.logged ⟨.warning, name ++ ": subscriber " ++
        r.label k ++ " returned an awaitable; callbacks must be sync functions", none⟩))
  | failed {w' : World S κ σ} {f : Fault} :
      r.call k payload (w.recorded (.called name k payload w.state)) = .error f w' →
      Called name r payload k w (w'.recorded (.logged ⟨.error, name ++ ": subscriber " ++
        r.label k ++ " failed", some f⟩))

/-- The subscribers are called one after the other, each where the one before it left the world. -/
inductive Calls (name : String) (r : Responder S κ σ κ) (payload : Datum) :
    List κ → World S κ σ → World S κ σ → Prop where
  | nil (w : World S κ σ) : Calls name r payload [] w w
  | cons {k : κ} {ks : List κ} {w w₁ w₂ : World S κ σ} : Called name r payload k w w₁ →
      Calls name r payload ks w₁ w₂ → Calls name r payload (k :: ks) w w₂

theorem Called.left {name : String} {k : κ} (h : Called name r payload k w w') :
    let left := (r.call k payload).final (w.recorded (.called name k payload w.state))
    w' = left ∨ ∃ record, w' = left.recorded (.logged record) := by
  intro left
  cases h with
  | answered h => exact .inl (Run.final_of_ok h).symm
  | awaitable h => exact .inr ⟨_, by rw [← Run.final_of_ok h]⟩
  | failed h => exact .inr ⟨_, by rw [← Run.final_of_error h]⟩

theorem deliver_called (name : String) (r : Responder S κ σ κ) (payload : Datum) (k : κ)
    (w : World S κ σ) :
    ∃ w', deliver name r payload k w = .ok ⟨⟩ w' ∧ Called name r payload k w w' := by
  unfold deliver
  rw [Run.bind_of_ok (Run.read_apply _ _), Run.bind_of_ok (Run.record_apply _ _)]
  cases h : r.call k payload (w.recorded (.called name k payload w.state)) with
  | ok awaitable w' =>
    have ha : Run.attempt (r.call k payload) (w.recorded (.called name k payload w.state)) =
        .ok (.ok awaitable) w' := by rw [Run.attempt, h]
    cases awaitable with
    | false => exact ⟨_, Run.bind_of_ok ha, .answered h⟩
    | true => exact ⟨_, (Run.bind_of_ok ha).trans (Run.log_apply _ _ _ _), .awaitable h⟩
  | error f w' =>
    have ha : Run.attempt (r.call k payload) (w.recorded (.called name k payload w.state)) =
        .ok (.error f) w' := by rw [Run.attempt, h]
    exact ⟨_, (Run.bind_of_ok ha).trans (Run.log_apply _ _ _ _), .failed h⟩

theorem deliverAll_calls (name : String) (r : Responder S κ σ κ) (payload : Datum) (ks : List κ)
    (w : World S κ σ) :
    ∃ w', deliverAll name r payload ks w = .ok ⟨⟩ w' ∧ Calls name r payload ks w w' := by
  induction ks generalizing w with
  | nil => exact ⟨w, rfl, .nil w⟩
  | cons k ks ih =>
    obtain ⟨w₁, h₁, hc₁⟩ := deliver_called name r payload k w
    obtain ⟨w₂, h₂, hc₂⟩ := ih w₁
    exact ⟨w₂, (Run.bind_of_ok h₁).trans h₂, .cons hc₁ hc₂⟩

theorem deliver_of_ok {name : String} {k : κ}
    (h : r.call k payload { w with history := .called name k payload w.state :: w.history } =
      .ok false w') :
    deliver name r payload k w = .ok ⟨⟩ w' := by
  have ha : Run.attempt (r.call k payload)
    { w with history := .called name k payload w.state :: w.history } =
      .ok (.ok false) w' := by rw [Run.attempt, h]
  unfold deliver
  rw [Run.bind_of_ok (Run.read_apply _ _), Run.bind_of_ok (Run.record_apply _ _)]
  exact Run.bind_of_ok ha

theorem trigger_of_none (hs : (p.get w.state).subscribers = none) :
    trigger p r payload w = .error (.channelDestroyed (p.get w.state).name) w := by
  unfold trigger
  exact Run.bind_of_error (live_of_none hs)

theorem trigger_of_some (hs : (p.get w.state).subscribers = some ks)
    (hd : deliverAll (p.get w.state).name r payload ks
      { w with history := .opened (p.get w.state).name payload :: w.history } = .ok ⟨⟩ w') :
    trigger p r payload w =
      .ok ⟨⟩ { w' with history := .closed (p.get w.state).name :: w'.history } := by
  unfold trigger
  rw [Run.bind_of_ok (live_of_some hs), Run.bind_of_ok (Run.read_apply _ _),
    Run.bind_of_ok (Run.record_apply _ _)]
  exact Run.bind_of_ok hd

/-- A live channel's delivery never fails, whatever the subscribers do. Those who are called are
those who are subscribed when it begins. -/
theorem trigger_calls (hs : (p.get w.state).subscribers = some ks) (payload : Datum) :
    ∃ w', trigger p r payload w = .ok ⟨⟩ (w'.recorded (.closed (p.get w.state).name)) ∧
      Calls (p.get w.state).name r payload ks
        (w.recorded (.opened (p.get w.state).name payload)) w' := by
  obtain ⟨w', h, hc⟩ := deliverAll_calls (p.get w.state).name r payload ks
    (w.recorded (.opened (p.get w.state).name payload))
  exact ⟨w', trigger_of_some hs h, hc⟩

section

variable {R : World S κ σ → World S κ σ → Prop} [IsPreorder (World S κ σ) R]
variable (hrecord : ∀ e, (Run.record e : Run S κ σ PUnit).Respects R) (hr : r.Respects R)

include hrecord hr

theorem Called.respects {name : String} {k : κ} (h : Called name r payload k w w') : R w w' := by
  have hleft := trans_of R (hrecord (.called name k payload w.state) w) (hr k payload _)
  rcases h.left with rfl | ⟨record, rfl⟩
  · exact hleft
  · exact trans_of R hleft (hrecord (.logged record) _)

theorem Calls.respects {name : String} (h : Calls name r payload ks w w') : R w w' := by
  induction h with
  | nil w => exact refl_of R w
  | cons h _ ih => exact trans_of R (h.respects hrecord hr) ih

/-- What cares neither for the history nor for what the subscribers do, does not care
for the sending of a payload. -/
theorem trigger_respects (payload : Datum) : (trigger p r payload).Respects R := by
  intro w
  cases hs : (p.get w.state).subscribers with
  | none =>
    rw [Run.final_of_error (trigger_of_none hs)]
    exact refl_of R w
  | some ks =>
    obtain ⟨w', h, hc⟩ := trigger_calls (r := r) hs payload
    rw [Run.final_of_ok h]
    exact trans_of R (hrecord (.opened _ payload) w)
      (trans_of R (hc.respects hrecord hr) (hrecord (.closed _) w'))

end

end Channel

namespace ChannelAction

variable [DecidableEq κ] {a : ChannelAction κ} {alteration : Alteration κ}

theorem perform_of_alteration (h : a.alteration? = some alteration)
    (ha : alteration.Admits True (p.get w.state).subscribers) :
    a.perform p r w = .ok .none (w.altered p alteration) := by
  unfold alteration? at h
  split at h <;> cases h
  · obtain ⟨ks, hs⟩ := Option.isSome_iff_exists.1 ha
    exact Run.bind_of_ok (Channel.on_of_some hs _)
  · obtain ⟨ks, hs⟩ := Option.isSome_iff_exists.1 ha
    exact Run.bind_of_ok (Channel.off_of_some hs _)
  · exact Run.bind_of_ok (Channel.destroy_apply w)

theorem perform_of_not_admits (h : a.alteration? = some alteration)
    (ha : ¬ alteration.Admits True (p.get w.state).subscribers) :
    a.perform p r w = .error (.channelDestroyed (p.get w.state).name) w := by
  unfold alteration? at h
  split at h <;> cases h
  · exact Run.bind_of_error (Run.bind_of_error
      (Channel.live_of_none (Option.not_isSome_iff_eq_none.1 ha)))
  · exact Run.bind_of_error (Run.bind_of_error
      (Channel.live_of_none (Option.not_isSome_iff_eq_none.1 ha)))
  · exact absurd trivial ha

variable {R : World S κ σ → World S κ σ → Prop} [IsPreorder (World S κ σ) R]

/-- What the alterations and the sending of a payload respect, all that can be asked of a
channel respects. -/
theorem perform_respects
    (halter : ∀ w alteration, a.alteration? = some alteration →
      alteration.Admits True (p.get w.state).subscribers → R w (w.altered p alteration))
    (htrigger : ∀ payload, a = .trigger payload → (Channel.trigger p r payload).Respects R) :
    (a.perform p r).Respects R := by
  cases h : a.alteration? with
  | some alteration =>
    intro w
    by_cases ha : alteration.Admits True (p.get w.state).subscribers
    · rw [Run.final_of_ok (perform_of_alteration h ha)]
      exact halter w alteration h ha
    · rw [Run.final_of_error (perform_of_not_admits h ha)]
      exact refl_of R w
  | none =>
    cases a with
    | on callback =>
      cases callback with
      | subscriber k => cases h
      | thing d => exact (Channel.live_respects.bind fun _ => .throw _).bind fun _ => .pure _
    | off callback =>
      cases callback with
      | subscriber k => cases h
      | thing d => exact (Channel.live_respects.bind fun _ => .pure _).bind fun _ => .pure _
    | trigger payload => exact (htrigger payload rfl).bind fun _ => .pure _
    | count => exact (Channel.live_respects.bind fun _ => .pure _).bind fun _ => .pure _
    | destroy => cases h
    | isDestroyed => exact (Run.Respects.read _).bind fun _ => .pure _
    | name => exact (Run.Respects.read _).bind fun _ => .pure _

end ChannelAction

end FormulaEntry
