import FormulaEntry.Session
import Mathlib.Order.Defs.Unbundled

/-! What the steps of a run do to the world, one equation each, and the world a run
ends in whether or not it fails. A run `Respects` a relation of worlds if it always ends
in one that stands in the relation to where it started; for preorders that comes down
to the parts of the run. -/

namespace FormulaEntry

namespace World

variable {S κ σ A : Type} (p : Part S A) (a b : A) (w : World S κ σ)

def set : World S κ σ := { w with state := p.set a w.state }

@[simp] theorem get_set : p.get (w.set p a).state = a := p.get_set a w.state

@[simp] theorem set_set : (w.set p a).set p b = w.set p b := by
  simp only [set, p.set_set]

@[simp] theorem set_get : w.set p (p.get w.state) = w := by
  simp only [set, p.set_get]

end World

namespace Run

variable {S κ σ A α β : Type}

/-- The world in which `x` ends, by itself or by a failure. -/
def final (x : Run S κ σ α) (w : World S κ σ) : World S κ σ :=
  match x w with
  | .ok _ w' => w'
  | .error _ w' => w'

theorem bind_apply (x : Run S κ σ α) (f : α → Run S κ σ β) (w : World S κ σ) :
    (x >>= f) w = match x w with
      | .ok a w' => f a w'
      | .error e w' => .error e w' := by
  simp only [bind, EStateM.bind]
  cases x w <;> rfl

theorem bind_of_ok {x : Run S κ σ α} {f : α → Run S κ σ β} {w w' : World S κ σ} {a : α}
    (h : x w = .ok a w') : (x >>= f) w = f a w' := by
  rw [bind_apply, h]

theorem bind_of_error {x : Run S κ σ α} {f : α → Run S κ σ β} {w w' : World S κ σ} {e : Fault}
    (h : x w = .error e w') : (x >>= f) w = .error e w' := by
  rw [bind_apply, h]

@[simp] theorem pure_apply (a : α) (w : World S κ σ) : (pure a : Run S κ σ α) w = .ok a w := rfl

@[simp] theorem throw_apply (e : Fault) (w : World S κ σ) :
    (throw e : Run S κ σ α) w = .error e w := rfl

@[simp] theorem read_apply (p : Part S A) (w : World S κ σ) :
    read p w = .ok (p.get w.state) w := rfl

@[simp] theorem write_apply (p : Part S A) (a : A) (w : World S κ σ) :
    write p a w = .ok ⟨⟩ (w.set p a) := rfl

@[simp] theorem change_apply (p : Part S A) (f : A → A) (w : World S κ σ) :
    change p f w = .ok ⟨⟩ (w.set p (f (p.get w.state))) := rfl

@[simp] theorem record_apply (e : Event S κ) (w : World S κ σ) :
    record e w = .ok ⟨⟩ { w with history := e :: w.history } := rfl

@[simp] theorem log_apply (level : Level) (message : String) (cause : Option Fault)
    (w : World S κ σ) :
    log level message cause w = .ok ⟨⟩
      { w with history := .logged ⟨level, message, cause⟩ :: w.history } :=
  rfl

@[simp] theorem memory_apply (w : World S κ σ) : (memory : Run S κ σ σ) w = .ok w.memory w := rfl

@[simp] theorem remember_apply (m : σ) (w : World S κ σ) :
    (remember m : Run S κ σ PUnit) w = .ok ⟨⟩ { w with memory := m } := rfl

theorem attempt_apply (x : Run S κ σ α) (w : World S κ σ) :
    ∃ r, attempt x w = .ok r (x.final w) := by
  unfold attempt final
  cases x w with
  | ok a w' => exact ⟨_, rfl⟩
  | error e w' => exact ⟨_, rfl⟩

theorem final_of_ok {x : Run S κ σ α} {w w' : World S κ σ} {a : α} (h : x w = .ok a w') :
    x.final w = w' := by rw [final, h]

theorem final_of_error {x : Run S κ σ α} {w w' : World S κ σ} {e : Fault} (h : x w = .error e w') :
    x.final w = w' := by rw [final, h]

theorem final_of_ite {x : Run S κ σ α} {w w' : World S κ σ} {P : Prop} [Decidable P] {e : Fault}
    {a : α} (h : x w = if P then .error e w' else .ok a w') : x.final w = w' := by
  split at h
  · exact final_of_error h
  · exact final_of_ok h

theorem final_bind_of_ok {x : Run S κ σ α} {f : α → Run S κ σ β} {w w' : World S κ σ} {a : α}
    (h : x w = .ok a w') : (x >>= f).final w = (f a).final w' := by
  rw [final, bind_of_ok h]
  rfl

@[simp] theorem final_bind_pure (x : Run S κ σ α) (f : α → β) (w : World S κ σ) :
    (x >>= fun a => pure (f a)).final w = x.final w := by
  unfold final
  rw [bind_apply]
  cases x w <;> rfl

theorem ensuring_of_ok {x : Run S κ σ α} {last : Run S κ σ PUnit} {w w' w'' : World S κ σ} {a : α}
    (hx : x w = .ok a w') (hl : last w' = .ok ⟨⟩ w'') : ensuring x last w = .ok a w'' := by
  have h : attempt x w = .ok (.ok a) w' := by rw [attempt, hx]
  unfold ensuring
  rw [bind_of_ok h, bind_of_ok hl]
  rfl

theorem final_ensuring {x : Run S κ σ α} {last : Run S κ σ PUnit} {w w' : World S κ σ}
    (hl : last (x.final w) = .ok ⟨⟩ w') : (ensuring x last).final w = w' := by
  obtain ⟨r, hr⟩ := attempt_apply x w
  unfold ensuring final
  rw [bind_of_ok hr, bind_of_ok hl]
  cases r <;> rfl

@[simp] theorem final_ofExcept (r : Except Fault α) (w : World S κ σ) :
    (ofExcept r : Run S κ σ α).final w = w := by cases r <;> rfl

/-- Wherever it starts, the run ends in a world that stands in the relation. -/
def Respects (R : World S κ σ → World S κ σ → Prop) (x : Run S κ σ α) : Prop :=
  ∀ w, R w (x.final w)

namespace Respects

variable {R : World S κ σ → World S κ σ → Prop} [IsPreorder (World S κ σ) R]

theorem pure (a : α) : (pure a : Run S κ σ α).Respects R := refl_of R

theorem throw (e : Fault) : (throw e : Run S κ σ α).Respects R := refl_of R

theorem read (p : Part S A) : (read p : Run S κ σ A).Respects R := refl_of R

theorem memory : (memory : Run S κ σ σ).Respects R := refl_of R

theorem ofExcept (r : Except Fault α) : (ofExcept r : Run S κ σ α).Respects R := by
  intro w
  rw [final_ofExcept]
  exact refl_of R w

theorem bind {x : Run S κ σ α} {f : α → Run S κ σ β} (hx : x.Respects R)
    (hf : ∀ a, (f a).Respects R) : (x >>= f).Respects R := by
  intro w
  have h₁ := hx w
  cases h : x w with
  | ok a w₁ =>
    rw [final_of_ok h] at h₁
    have h₂ := hf a w₁
    unfold final at h₂ ⊢
    rw [bind_of_ok h]
    exact trans_of R h₁ h₂
  | error e w₁ =>
    rw [final_of_error h] at h₁
    rwa [final_of_error (bind_of_error h)]

omit [IsPreorder (World S κ σ) R] in
theorem attempt {x : Run S κ σ α} (hx : x.Respects R) : (attempt x).Respects R := by
  intro w
  obtain ⟨r, h⟩ := attempt_apply x w
  rw [final_of_ok h]
  exact hx w

omit [IsPreorder (World S κ σ) R] in
theorem ite {c : Prop} [Decidable c] {x y : Run S κ σ α} (hx : x.Respects R) (hy : y.Respects R) :
    (if c then x else y).Respects R := by
  split
  · exact hx
  · exact hy

theorem ensuring {x : Run S κ σ α} {last : Run S κ σ PUnit} (hx : x.Respects R)
    (hl : last.Respects R) : (ensuring x last).Respects R :=
  hx.attempt.bind fun r => hl.bind fun _ => .ofExcept r

end Respects

end Run

/-- Subscribers whose reactions respect the relation. -/
def Responder.Respects {S κ σ ι : Type} (R : World S κ σ → World S κ σ → Prop)
    (r : Responder S κ σ ι) : Prop :=
  ∀ k payload, (r.call k payload).Respects R

end FormulaEntry
