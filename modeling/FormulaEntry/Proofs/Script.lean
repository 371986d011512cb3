import FormulaEntry.Proofs.Run

/-! Sessions, whatever their state. What every step respects, scripts of such steps respect,
and so do the subscribers that react by them, however deep their calls nest. -/

namespace FormulaEntry

variable {S ι κ σ α : Type}

namespace Script

/-- Every step the script may come to. -/
def All (p : α → Prop) : Script σ α → Prop
  | done _ | fail _ => True
  | step a next => p a ∧ ∀ r, (next r).All p
  | consult next => ∀ m, (next m).All p
  | remember _ next => next.All p

theorem all_of_forall {p : α → Prop} (h : ∀ a, p a) (s : Script σ α) : s.All p := by
  induction s with
  | done | fail => trivial
  | step a next ih => exact ⟨h a, ih⟩
  | consult next ih => exact ih
  | remember m next ih => exact ih

theorem All.imp {p q : α → Prop} (h : ∀ a, p a → q a) {s : Script σ α} (hs : s.All p) :
    s.All q := by
  induction s with
  | done | fail => trivial
  | step a next ih => exact ⟨h a hs.1, fun r => ih r (hs.2 r)⟩
  | consult next ih => exact fun m => ih m (hs m)
  | remember m next ih => exact ih hs

variable {R : World S κ σ → World S κ σ → Prop} [IsPreorder (World S κ σ) R]

theorem run_respects {perform : α → Run S κ σ Datum} {p : α → Prop}
    (hm : ∀ m, (Run.remember m : Run S κ σ PUnit).Respects R)
    (hp : ∀ a, p a → (perform a).Respects R) {s : Script σ α} (hs : s.All p) :
    (s.run perform).Respects R := by
  induction s with
  | done awaitable => exact .pure _
  | fail f => exact .throw _
  | step a next ih => exact (hp a hs.1).attempt.bind fun r => ih r (hs.2 r)
  | consult next ih => exact Run.Respects.memory.bind fun m => ih m (hs m)
  | remember m next ih => exact (hm m).bind fun _ => ih hs

end Script

namespace Step

/-- Those who answer the calls that come of a session's steps: scripts, whose own steps may lead to
calls of one level less. Where no level is left they only observe. -/
def responderWithin (act : Responder S κ σ ι → α → Run S κ σ Datum)
    (audience : Audience ι σ (Step α)) : Nat → Responder S κ σ ι
  | 0 => audience.responder none
  | depth + 1 => audience.responder (some (performWithin act audience depth))

theorem performWithin_eq (act : Responder S κ σ ι → α → Run S κ σ Datum)
    (audience : Audience ι σ (Step α)) (depth : Nat) :
    performWithin act audience depth = perform act (responderWithin act audience depth) := by
  cases depth <;> rfl

variable {R : World S κ σ → World S κ σ → Prop} [IsPreorder (World S κ σ) R]
variable {act : Responder S κ σ ι → α → Run S κ σ Datum} {audience : Audience ι σ (Step α)}
    {p : Step α → Prop}

theorem perform_respects
    (hn : ∀ w : World S κ σ, R w { w with history := .noted w.state :: w.history })
    {r : Responder S κ σ ι} (hact : ∀ a, p (.act a) → (act r a).Respects R) {s : Step α}
    (hs : p s) :
    (perform act r s).Respects R := by
  cases s with
  | act a => exact hact a hs
  | raise message => exact .throw _
  | note => exact hn

theorem responderWithin_respects (hm : ∀ m, (Run.remember m : Run S κ σ PUnit).Respects R)
    (hn : ∀ w : World S κ σ, R w { w with history := .noted w.state :: w.history })
    (hact : ∀ r : Responder S κ σ ι, r.Respects R → ∀ a, p (.act a) → (act r a).Respects R)
    (ha : ∀ k payload, (audience.react k payload).All p) (depth : Nat) :
    (responderWithin act audience depth).Respects R := by
  induction depth with
  | zero => exact fun _ _ => .pure _
  | succ depth ih =>
    intro k payload
    refine Script.run_respects hm (fun s hs => ?_) (ha k payload)
    rw [performWithin_eq]
    exact perform_respects hn (hact _ ih) hs

theorem exists_responder (hm : ∀ m, (Run.remember m : Run S κ σ PUnit).Respects R)
    (hn : ∀ w : World S κ σ, R w { w with history := .noted w.state :: w.history })
    (hact : ∀ r : Responder S κ σ ι, r.Respects R → ∀ a, p (.act a) → (act r a).Respects R)
    (ha : ∀ k payload, (audience.react k payload).All p) (depth : Nat) :
    ∃ r : Responder S κ σ ι, r.Respects R ∧ performWithin act audience depth = perform act r :=
  ⟨_, responderWithin_respects hm hn hact ha depth, performWithin_eq act audience depth⟩

/-- What an action respects if the subscribers do, a step of a session respects. -/
theorem performWithin_respects (hm : ∀ m, (Run.remember m : Run S κ σ PUnit).Respects R)
    (hn : ∀ w : World S κ σ, R w { w with history := .noted w.state :: w.history })
    (hact : ∀ r : Responder S κ σ ι, r.Respects R → ∀ a, p (.act a) → (act r a).Respects R)
    (ha : ∀ k payload, (audience.react k payload).All p) (depth : Nat) {s : Step α} (hs : p s) :
    (performWithin act audience depth s).Respects R := by
  obtain ⟨r, hr, h⟩ := exists_responder hm hn hact ha depth
  rw [h]
  exact perform_respects hn (hact r hr) hs

end Step

end FormulaEntry
