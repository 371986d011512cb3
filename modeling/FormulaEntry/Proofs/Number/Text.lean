import FormulaEntry.Number

/-! Every number that has a text has one that is not empty. -/

namespace FormulaEntry

theorem digitsBefore_ne_nil (n : Nat) (rest : List Char) : digitsBefore n rest ≠ [] := by
  induction n, rest using digitsBefore.induct with
  | case1 n rest h => rw [digitsBefore, if_pos h]; exact List.cons_ne_nil _ _
  | case2 n rest h ih => rwa [digitsBefore, if_neg h]

theorem digitsOf_ne_nil (n : Nat) : digitsOf n ≠ [] := digitsBefore_ne_nil n []

theorem Decimal.positionalChars_ne_nil {ds : List Char} (hd : ds ≠ []) (exp : Int) :
    positionalChars ds exp ≠ [] := by
  unfold positionalChars
  split
  · simp [hd]
  · dsimp only
    split <;> simp

theorem Decimal.scientificChars_ne_nil {ds : List Char} (hd : ds ≠ []) (e : Int) :
    scientificChars ds e ≠ [] := by
  unfold scientificChars
  split
  · exact absurd rfl hd
  · exact List.cons_ne_nil _ _
  · exact List.cons_ne_nil _ _

theorem Decimal.chars_ne_nil (d : Decimal) : d.chars ≠ [] := by
  unfold chars
  dsimp only
  split
  · exact positionalChars_ne_nil (digitsOf_ne_nil _) _
  · exact scientificChars_ne_nil (digitsOf_ne_nil _) _

theorem Double.unsignedChars_ne_nil (x : Double) : x.unsignedChars ≠ [] := by
  unfold unsignedChars
  split
  · exact List.cons_ne_nil _ _
  · split
    · exact Decimal.chars_ne_nil _
    · exact List.cons_ne_nil _ _

theorem Double.text_ne_empty (x : Double) : x.text ≠ "" := by
  have h : x.chars ≠ [] := by
    unfold chars
    split
    · exact List.cons_ne_nil _ _
    · split
      · exact List.cons_ne_nil _ _
      · exact x.unsignedChars_ne_nil
  simpa [text] using h

theorem intChars_ne_nil (n : Int) : intChars n ≠ [] := by
  unfold intChars
  split
  · exact List.cons_ne_nil _ _
  · exact digitsOf_ne_nil _

theorem Number.ne_empty_of_text? {n : Number} {text : String} (h : n.text? = some text) :
    text ≠ "" := by
  cases n with
  | double x =>
    obtain rfl := Option.some.inj h
    exact x.text_ne_empty
  | int n =>
    simp only [Number.text?, intText?] at h
    split at h
    · obtain rfl := Option.some.inj h
      simpa using intChars_ne_nil n
    · exact absurd h (by simp)

end FormulaEntry
