/-! A part of a larger state, to be read and replaced without touching the rest. -/

namespace FormulaEntry

structure Part (S A : Type) where
  get : S → A
  set : A → S → S
  get_set : ∀ a s, get (set a s) = a
  set_get : ∀ s, set (get s) s = s
  set_set : ∀ a b s, set b (set a s) = set b s

namespace Part

variable {S A B : Type}

def whole : Part S S where
  get s := s
  set a _ := a
  get_set _ _ := rfl
  set_get _ := rfl
  set_set _ _ _ := rfl

def andThen (p : Part S A) (q : Part A B) : Part S B where
  get s := q.get (p.get s)
  set b s := p.set (q.set b (p.get s)) s
  get_set b s := by rw [p.get_set, q.get_set]
  set_get s := by rw [q.set_get, p.set_get]
  set_set a b s := by rw [p.get_set, q.set_set, p.set_set]

end Part

end FormulaEntry
