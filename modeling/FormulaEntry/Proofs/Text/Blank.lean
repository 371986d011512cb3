import FormulaEntry.Text.Blank
import Mathlib.Data.List.Basic

/-! Blanks at the ends of a text. `strip` takes them away and nothing else, and what
stands behind or before a character that is no blank is stripped by itself. -/

namespace FormulaEntry.Text

def AllBlank (cs : List Char) : Prop := ∀ c ∈ cs, isBlank c = true

variable {c : Char} {s v w : List Char}

theorem AllBlank.append (hv : AllBlank v) (hw : AllBlank w) : AllBlank (v ++ w) := by
  intro c hc
  rcases List.mem_append.mp hc with hc | hc
  · exact hv c hc
  · exact hw c hc

theorem AllBlank.reverse (h : AllBlank w) : AllBlank w.reverse := fun c hc =>
  h c (List.mem_reverse.mp hc)

theorem stripLeft_append (hv : AllBlank v) (s : List Char) :
    stripLeft (v ++ s) = stripLeft s :=
  List.dropWhile_append_of_pos hv

theorem stripLeft_cons (hc : isBlank c = false) (s : List Char) : stripLeft (c :: s) = c :: s := by
  simp [stripLeft, hc]

theorem stripLeft_append_of_ne_nil (h : stripLeft s ≠ []) (t : List Char) :
    stripLeft (s ++ t) = stripLeft s ++ t := by
  have : (s.dropWhile isBlank).isEmpty = false := by simpa [stripLeft] using h
  simp [stripLeft, List.dropWhile_append, this]

theorem stripLeft_of_append {t : List Char} (h : stripLeft (s ++ t) = s ++ t) :
    stripLeft s = s := by
  cases s with
  | nil => rfl
  | cons c s =>
    refine stripLeft_cons ?_ s
    by_contra hb
    have hlt : stripLeft (s ++ t) = c :: (s ++ t) := by
      simpa [stripLeft, Bool.not_eq_false _ |>.mp hb] using h
    have := length_stripLeft_le (s ++ t)
    rw [hlt, List.length_cons] at this
    omega

theorem exists_stripLeft (s : List Char) : ∃ v, AllBlank v ∧ s = v ++ stripLeft s :=
  ⟨s.takeWhile isBlank, fun _ hc => List.all_eq_true.mp List.all_takeWhile _ hc,
    List.takeWhile_append_dropWhile.symm⟩

theorem stripRight_append (s : List Char) (hw : AllBlank w) :
    stripRight (s ++ w) = stripRight s := by
  rw [stripRight, List.reverse_append, stripLeft_append hw.reverse, stripRight]

theorem stripRight_concat (hc : isBlank c = false) (s : List Char) :
    stripRight (s ++ [c]) = s ++ [c] := by
  simp [stripRight, stripLeft_cons hc]

theorem stripRight_append_cons (hc : isBlank c = false) (s t : List Char) :
    stripRight (s ++ c :: t) = s ++ c :: stripRight t := by
  have hr : (s ++ c :: t).reverse = t.reverse ++ ([c] ++ s.reverse) := by simp
  rw [stripRight, hr]
  by_cases ht : stripLeft t.reverse = []
  · have hb : AllBlank t.reverse := by
      obtain ⟨v, hv, he⟩ := exists_stripLeft t.reverse
      rw [ht, List.append_nil] at he
      exact he ▸ hv
    rw [stripLeft_append hb, List.singleton_append, stripLeft_cons hc, stripRight, ht]
    simp
  · rw [stripLeft_append_of_ne_nil ht, stripRight]
    simp

theorem exists_stripRight (s : List Char) : ∃ w, AllBlank w ∧ s = stripRight s ++ w := by
  obtain ⟨v, hv, he⟩ := exists_stripLeft s.reverse
  exact ⟨v.reverse, hv.reverse, by simpa [stripRight] using congrArg List.reverse he⟩

theorem exists_strip (s : List Char) :
    ∃ v w, AllBlank v ∧ AllBlank w ∧ s = v ++ (strip s ++ w) := by
  obtain ⟨v, hv, he⟩ := exists_stripLeft s
  obtain ⟨w, hw, hr⟩ := exists_stripRight (stripLeft s)
  exact ⟨v, w, hv, hw, by rw [strip, ← hr, ← he]⟩

theorem strip_append (hv : AllBlank v) (hw : AllBlank w) (s : List Char) :
    strip (v ++ (s ++ w)) = strip s := by
  rw [strip, stripLeft_append hv]
  by_cases h : stripLeft s = []
  · obtain ⟨u, hu, he⟩ := exists_stripLeft s
    rw [h, List.append_nil] at he
    have : stripLeft (s ++ w) = stripLeft w := stripLeft_append (he ▸ hu) w
    have hw' : stripLeft (w ++ []) = stripLeft [] := stripLeft_append hw []
    rw [List.append_nil] at hw'
    rw [this, hw', strip, h]
    rfl
  · rw [stripLeft_append_of_ne_nil h, stripRight_append _ hw, strip]

theorem stripLeft_of_strip (h : strip s = s) : stripLeft s = s := by
  have h₁ := length_stripRight_le (stripLeft s)
  obtain ⟨v, -, he⟩ := exists_stripLeft s
  have h₂ := congrArg List.length he
  rw [← strip, h] at h₁
  rw [List.length_append] at h₂
  obtain rfl : v = [] := List.length_eq_zero_iff.mp (by omega)
  exact he.symm

theorem strip_strip (s : List Char) : strip (strip s) = strip s := by
  obtain ⟨v, w, hv, hw, he⟩ := exists_strip s
  conv_rhs => rw [he]
  exact (strip_append hv hw _).symm

end FormulaEntry.Text
