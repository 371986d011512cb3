import FormulaEntry.Proofs.Formula.Limit

/-! Chains split at their right-most operator. What stands before that operator is evaluated
like any other text: it is trimmed and scanned once more, and split again. It comes to the
same as folding the whole chain from the left, as the scan of the text before a joint finds
the joints before it and no others. -/

namespace FormulaEntry

open Text (AllBlank)

theorem join_concat (first : List Char) (rest : List (Operator × List Char))
    (r : Operator × List Char) :
    join first (rest ++ [r]) = join first rest ++ r.1.symbol :: r.2 := by
  simp [join]

theorem marks_concat (i : Nat) (first : List Char) (rest : List (Operator × List Char))
    (r : Operator × List Char) :
    marks i first (rest ++ [r]) = marks i first rest ++ [⟨r.1, i + (join first rest).length⟩] := by
  induction rest generalizing i first with
  | nil => simp [marks, join]
  | cons r' rest ih =>
    rw [List.cons_append, marks, ih, marks, join_cons, List.length_append, List.length_cons,
      show i + first.length + 1 + (join r'.2 rest).length =
        i + (first.length + ((join r'.2 rest).length + 1)) by omega]
    rfl

theorem Place.parted_concat_iff {p : Place} {q : Operator → Prop} {first : List Char}
    {rest : List (Operator × List Char)} {r : Operator × List Char} :
    p.Parted q first (rest ++ [r]) ↔ p.Parted q first rest ∧
      (p.after (join first rest)).operator? r.1.symbol = some r.1 ∧ q r.1 ∧
        ∀ op ∈ resumed.ops r.2, ¬q op := by
  induction rest generalizing p first with
  | nil =>
    rw [List.nil_append, join, List.flatMap_nil, List.append_nil]
    exact Iff.rfl
  | cons r' rest ih =>
    have hafter (ho : (p.after first).operator? r'.1.symbol = some r'.1) :
        p.after (join first (r' :: rest)) = resumed.after (join r'.2 rest) := by
      rw [join_cons, after_append, after_cons, next_of_operator? ho]
    constructor
    · rintro ⟨hf, ho, hq, h⟩
      obtain ⟨hp, hr⟩ := ih.mp h
      exact ⟨⟨hf, ho, hq, hp⟩, hafter ho ▸ hr⟩
    · rintro ⟨⟨hf, ho, hq, hp⟩, hr⟩
      exact ⟨hf, ho, hq, ih.mpr ⟨hp, hafter ho ▸ hr⟩⟩

namespace Divided

variable {k : Nat} {first : List Char} {rest : List (Operator × List Char)}
    {r : Operator × List Char}

/-- What stands before the last joint is divided by the others. -/
theorem init (h : Divided k first (rest ++ [r])) : Divided k first rest := by
  obtain ⟨hp, ho, -⟩ := Place.parted_concat_iff.mp h.parted
  refine ⟨hp, fun op hop => h.lowest op ?_, ?_, (Place.operator?_eq_some.mp ho).2.1⟩
  · rw [join_concat, Place.ops_append]
    exact List.mem_append_left _ hop
  · have := h.paired.1
    rw [join_concat, Place.admits_append] at this
    exact this.1

theorem stripRight (h : Divided k first (rest ++ [r])) :
    Divided k first (rest ++ [(r.1, Text.stripRight r.2)]) := by
  obtain ⟨w, hw, he⟩ := Text.exists_stripRight r.2
  have hjoin :
      join first (rest ++ [r]) = join first (rest ++ [(r.1, Text.stripRight r.2)]) ++ w := by
    rw [join_concat, join_concat, List.append_assoc, List.cons_append, ← he]
  obtain ⟨ha, ho, hd⟩ :=
    Place.start.append_blank hw (join first (rest ++ [(r.1, Text.stripRight r.2)]))
  have hlowest := h.lowest
  have hpaired := h.paired
  obtain ⟨hp, hop, hq, hn⟩ := Place.parted_concat_iff.mp h.parted
  rw [hjoin] at hlowest hpaired
  refine ⟨Place.parted_concat_iff.mpr ⟨hp, hop, hq, fun op hm => hn op ?_⟩, ?_, ha.mp hpaired.1, ?_⟩
  · rw [he, (Place.resumed.append_blank hw _).2.1]
    exact hm
  · rwa [ho] at hlowest
  · rw [← hd]
    exact hpaired.2

end Divided

namespace Shape

/-- The outermost form of a trimmed text that is split at its right-most operator only. -/
def ofTrimmedSplit (text : List Char) : Except FormulaError Shape :=
  if text = [] then .ok blank
  else match Numeral.literal? text with
    | some n => .ok (literal n)
    | none => do
      match ← findOperator text with
      | some m => .ok (chain (text.take m.position) [(m.operator, text.drop (m.position + 1))])
      | none => .ok (ofPlain text)

def split (text : List Char) : Except FormulaError Shape := ofTrimmedSplit (Text.strip text)

/-- A chain with all operators but the last left to its first part. -/
def regrouped : Shape → Shape
  | chain first rest =>
    match rest.getLast? with
    | some r => chain (join first rest.dropLast) [r]
    | none => chain first rest
  | s => s

theorem regrouped_chain (first : List Char) (rest : List (Operator × List Char))
    (r : Operator × List Char) :
    (chain first (rest ++ [r])).regrouped = chain (join first rest) [r] := by
  simp [regrouped]

theorem regrouped_ofPlain (t : List Char) : (ofPlain t).regrouped = ofPlain t := by
  unfold ofPlain
  split
  · rfl
  · split <;> rfl
  · rfl

theorem ofTrimmedSplit_eq (t : List Char) : ofTrimmedSplit t = (ofTrimmed t).map regrouped := by
  unfold ofTrimmedSplit ofTrimmed
  by_cases ht : t = []
  · rw [if_pos ht, if_pos ht]
    rfl
  rw [if_neg ht, if_neg ht]
  cases hlit : Numeral.literal? t with
  | some n => rfl
  | none =>
    unfold findOperator
    cases hms : findOperators t with
    | error e => rfl
    | ok ms =>
      by_cases hne : ms = []
      · subst hne
        exact congrArg Except.ok (regrouped_ofPlain t).symm
      · obtain ⟨k, first, rest, hrest, rfl, rfl, -⟩ := exists_divided hms hne
        obtain ⟨rest, r, rfl⟩ := (List.eq_nil_or_concat' rest).resolve_left hrest
        have hlast :
            (marks 0 first (rest ++ [r])).getLast? = some ⟨r.1, (join first rest).length⟩ := by
          simp [marks_concat]
        have htake :
            (join first (rest ++ [r])).take (join first rest).length = join first rest := by
          rw [join_concat, List.take_left]
        have hdrop : (join first (rest ++ [r])).drop ((join first rest).length + 1) = r.2 := by
          rw [join_concat, ← List.drop_drop, List.drop_left, List.drop_one, List.tail_cons]
        simp only [bind, Except.bind, Except.map, hlast, htake, hdrop, cut_join]
        rw [← regrouped_chain]

theorem split_eq (text : List Char) : split text = (Shape.of text).map regrouped :=
  ofTrimmedSplit_eq (Text.strip text)

theorem length_lt_of_mem_regrouped {t part : List Char} {s : Shape} (h : Outline t s)
    (hp : part ∈ s.regrouped.parts) : part.length < t.length := by
  cases h with
  | blank => exact absurd hp List.not_mem_nil
  | literal => exact absurd hp List.not_mem_nil
  | @chain first rest k hne =>
    obtain ⟨rest, r, rfl⟩ := (List.eq_nil_or_concat' rest).resolve_left hne
    rw [regrouped_chain] at hp
    have := length_lt_of_mem_chain (List.cons_ne_nil r []) hp
    rw [join_concat]
    simpa [join] using this
  | plain =>
    rw [regrouped_ofPlain] at hp
    exact length_lt_of_mem_ofPlain hp

theorem shrinks_split : Shrinks split where
  length_lt {text s} h part hp := by
    rw [split_eq] at h
    cases hs : Shape.of text with
    | error e => simp [hs, Except.map] at h
    | ok s =>
      rw [hs] at h
      obtain rfl := Except.ok.inj h
      have := length_lt_of_mem_regrouped (outline_of_ofTrimmed hs) hp
      have := Text.length_strip_le text
      omega
  not_nested text h := by
    rw [split_eq] at h
    cases hs : Shape.of text with
    | error e =>
      rw [hs] at h
      exact shrinks_of.not_nested text (hs.trans h)
    | ok s => simp [hs, Except.map] at h

theorem value_chain_concat (part : List Char → Except FormulaError Double) (first : List Char)
    (rest : List (Operator × List Char)) (r : Operator × List Char) :
    (chain first (rest ++ [r])).value part =
      (chain first rest).value part >>= fun a => part r.2 >>= fun b => pure (r.1.apply a b) := by
  simp only [value, List.foldlM_append, List.foldlM_cons, List.foldlM_nil, bind_assoc, pure_bind]

end Shape

theorem evaluateVia_stripRight (limit : Nat) (text : List Char) :
    evaluateVia Shape.of limit (Text.stripRight text) = evaluateVia Shape.of limit text := by
  obtain ⟨w, hw, he⟩ := Text.exists_stripRight text
  have hstrip : Text.strip (Text.stripRight text) = Text.strip text := by
    conv_rhs => rw [he]
    exact (Text.strip_append (v := []) (by simp [AllBlank]) hw _).symm
  cases limit with
  | zero => rfl
  | succ limit => rw [evaluateVia_succ, evaluateVia_succ, Shape.of, hstrip, Shape.of]

/-- Up to any joint a divided text is a chain, as long as it begins with no blanks. -/
theorem evaluateVia_join {k : Nat} {first : List Char} {rest : List (Operator × List Char)}
    (h : Divided k first rest) (hne : rest ≠ [])
    (hl : Text.stripLeft (join first rest) = join first rest) (limit : Nat) :
    evaluateVia Shape.of (limit + 1) (join first rest) =
      (Shape.chain first rest).value (evaluateVia Shape.of limit) := by
  obtain ⟨rest, r, rfl⟩ := (List.eq_nil_or_concat' rest).resolve_left hne
  have hstrip : Text.strip (join first (rest ++ [r])) =
      join first (rest ++ [(r.1, Text.stripRight r.2)]) := by
    rw [Text.strip, hl, join_concat, join_concat]
    exact Text.stripRight_append_cons (isBlank_symbol r.1) _ _
  rw [evaluateVia_succ, Shape.of, hstrip, Shape.ofTrimmed_join h.stripRight (by simp)]
  change (Shape.chain first (rest ++ [(r.1, Text.stripRight r.2)])).value _ = _
  rw [Shape.value_chain_concat, Shape.value_chain_concat, evaluateVia_stripRight]

def evaluateSplitting (limit : Nat) (text : List Char) : Except FormulaError Double :=
  evaluateVia Shape.split limit text

/-- Splitting a shape's chain at its last joint changes no value, given that the parts are
evaluated alike. -/
theorem value_regrouped {t : List Char} {s : Shape} (h : Shape.Outline t s)
    (hl : Text.stripLeft t = t) {n m : Nat} (hparts : ∀ u : List Char, u.length < t.length →
      evaluateVia Shape.split n u = evaluateVia Shape.of m u)
    (hshorter : ∀ u : List Char, u.length < t.length →
      evaluateVia Shape.split n u = evaluateVia Shape.of (m + 1) u) :
    s.regrouped.value (evaluateVia Shape.split n) = s.value (evaluateVia Shape.of m) := by
  cases h with
  | blank => rfl
  | literal => rfl
  | @chain first rest k hne hdiv =>
    obtain ⟨rest, r, rfl⟩ := (List.eq_nil_or_concat' rest).resolve_left hne
    have hlen : (join first rest).length < (join first (rest ++ [r])).length := by
      rw [join_concat, List.length_append, List.length_cons]
      omega
    have hfirst : evaluateVia Shape.split n (join first rest) =
        (Shape.chain first rest).value (evaluateVia Shape.of m) := by
      -- behind the only joint there is no chain left to be evaluated one level deeper
      by_cases hrest : rest = []
      · subst hrest
        have hp := hparts _ hlen
        rw [show join first [] = first by simp [join]] at hp ⊢
        rw [hp]
        exact (bind_pure _).symm
      · rw [join_concat] at hl
        rw [hshorter _ hlen, evaluateVia_join hdiv.init hrest (Text.stripLeft_of_append hl)]
    have hlast : evaluateVia Shape.split n r.2 = evaluateVia Shape.of m r.2 :=
      hparts _ (Shape.length_lt_of_mem_chain (by simp) (by simp [Shape.parts]))
    have hone : Shape.chain (join first rest) [r] = Shape.chain (join first rest) ([] ++ [r]) := rfl
    rw [Shape.regrouped_chain, hone, Shape.value_chain_concat, Shape.value_chain_concat, ← hfirst,
      hlast]
    exact congrArg (· >>= _) (bind_pure _)
  | plain =>
    rw [Shape.regrouped_ofPlain]
    exact Shape.value_congr _ fun u hu => hparts u (Shape.length_lt_of_mem_ofPlain hu)

theorem evaluateVia_split_eq {n m : Nat} {text : List Char} (hn : text.length < n)
    (hm : text.length < m) : evaluateVia Shape.split n text = evaluateVia Shape.of m text := by
  induction n generalizing m text with
  | zero => exact absurd hn (Nat.not_lt_zero _)
  | succ n ih =>
    obtain ⟨m, rfl⟩ : ∃ m', m = m' + 1 := ⟨m - 1, by omega⟩
    have hlen := Text.length_strip_le text
    rw [evaluateVia_succ, evaluateVia_succ, Shape.split_eq]
    cases hs : Shape.of text with
    | error e => rfl
    | ok s =>
      exact value_regrouped (Shape.outline_of_ofTrimmed hs)
        (Text.stripLeft_of_strip (Text.strip_strip text))
        (fun u hu => ih (by omega) (by omega)) (fun u hu => ih (by omega) (by omega))

/-- Folding chains from the left and splitting at the right-most operator come to the same
value or to the same error, unless one of them is cut short by its limit on nesting; and a
limit above the length of the formula cuts neither short. -/
theorem evaluate_eq_splitting (formula : String) :
    (∀ n m, evaluateWithin n formula.toList ≠ .error .nestingTooDeep →
      evaluateSplitting m formula.toList ≠ .error .nestingTooDeep →
        evaluateWithin n formula.toList = evaluateSplitting m formula.toList) ∧
    ∀ n, formula.length < n → evaluateWithin n formula.toList ≠ .error .nestingTooDeep ∧
      evaluateSplitting n formula.toList ≠ .error .nestingTooDeep := by
  have hlong : ∀ n, formula.toList.length < n →
    evaluateWithin n formula.toList ≠ .error .nestingTooDeep ∧
      evaluateSplitting n formula.toList ≠ .error .nestingTooDeep := by
    intro n hn
    rw [← evaluateVia_of]
    exact ⟨evaluateVia_not_nested Shape.shrinks_of hn,
      evaluateVia_not_nested Shape.shrinks_split hn⟩
  refine ⟨fun n m hn hm => ?_, hlong⟩
  obtain ⟨hof, hsplit⟩ := hlong _ (Nat.lt_succ_self _)
  rw [← evaluateVia_of] at hn hof ⊢
  calc evaluateVia Shape.of n formula.toList
      = evaluateVia Shape.of (formula.toList.length + 1) formula.toList := evaluateVia_agree hn hof
    _ = evaluateSplitting (formula.toList.length + 1) formula.toList :=
        (evaluateVia_split_eq (Nat.lt_succ_self _) (Nat.lt_succ_self _)).symm
    _ = evaluateSplitting m formula.toList := evaluateVia_agree hsplit hm

/-- The second operand is missing, and neither way gets as far as the third, which is no number. -/
theorem missing_operand_split :
    evaluateWithin 2 "8- -x".toList ≠ .error .nestingTooDeep ∧
      evaluateSplitting 3 "8- -x".toList ≠ .error .nestingTooDeep ∧
      evaluateWithin 2 "8- -x".toList = evaluateSplitting 3 "8- -x".toList ∧
      evaluateWithin 2 "8- -x".toList = .error .missingOperand := by
  have hn : evaluateWithin 2 "8- -x".toList ≠ .error .nestingTooDeep := by decide
  have hm : evaluateSplitting 3 "8- -x".toList ≠ .error .nestingTooDeep := by decide
  exact ⟨hn, hm, (evaluate_eq_splitting "8- -x").1 2 3 hn hm, by decide⟩

end FormulaEntry
