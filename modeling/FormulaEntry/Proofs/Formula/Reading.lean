import FormulaEntry.Proofs.Formula.Grammar

/-! How the scan for operators reads a text of the grammar. Outside brackets it sees
the operators of the chains and nothing else: not the signs, not those of exponents,
and nothing between brackets. `Derives.reads` says so for every category, with the
lowest priority that can occur in it. -/

namespace FormulaEntry

open Text (AllBlank)

namespace Place

/-- Reading the text from `p` meets no operator and ends at `p'`. -/
structure Passes (p : Place) (text : List Char) (p' : Place) : Prop where
  admits : p.Admits text
  ops : p.ops text = []
  after : p.after text = p'

variable {p p' p'' : Place} {c : Char} {s t : List Char}

theorem Passes.nil (p : Place) : p.Passes [] p := ⟨trivial, rfl, rfl⟩

theorem Passes.append (h : p.Passes s p') (h' : p'.Passes t p'') : p.Passes (s ++ t) p'' := by
  obtain ⟨ha, ho, rfl⟩ := h
  refine ⟨(admits_append ..).mpr ⟨ha, h'.admits⟩, ?_, ?_⟩
  · rw [ops_append, ho, h'.ops, List.append_nil]
  · rw [after_append, h'.after]

theorem Passes.cons (hc : c ≠ ')') (ho : p.operator? c = none) (h : (p.next c).Passes s p') :
    p.Passes (c :: s) p' := by
  refine ⟨⟨fun hh => hc hh.1, h.admits⟩, ?_, h.after⟩
  rw [ops_cons, ho, h.ops]
  rfl

theorem operator?_of_not_symbol (h : Operator.ofChar? c = none) (p : Place) :
    p.operator? c = none := by
  simp [operator?, h]

theorem ofChar?_eq_none (h : ∀ op : Operator, c ≠ op.symbol) : Operator.ofChar? c = none :=
  Option.eq_none_iff_forall_ne_some.mpr fun op ho => h op (Operator.ofChar?_eq_some_iff.mp ho)

/-- Blanks leave everything as it is, except that no sign of an exponent can follow. -/
theorem passes_blank {w : List Char} (hw : AllBlank w) (p : Place) :
    ∃ x, p.Passes w ⟨p.depth, p.leading, x⟩ ∧ (p.number ≠ .marked → x ≠ .marked) := by
  induction w generalizing p with
  | nil => exact ⟨p.number, .nil p, id⟩
  | cons c w ih =>
    have hb : Text.isBlank c = true := hw c (by simp)
    have hc : c ≠ 'e' ∧ c ≠ 'E' ∧ c ≠ '(' ∧ c ≠ ')' := by
      refine ⟨?_, ?_, ?_, ?_⟩ <;> rintro rfl <;> revert hb <;> decide
    have ho : Operator.ofChar? c = none := ofChar?_eq_none fun op he => by
      rw [he, isBlank_symbol] at hb
      cases hb
    have hn : p.next c = ⟨p.depth, p.leading, p.number.next c⟩ := by
      simp [next, hb, hc]
    obtain ⟨x, hx, hm⟩ := ih (fun d hd => hw d (List.mem_cons_of_mem _ hd)) (p.next c)
    refine ⟨x, .cons hc.2.2.2 (operator?_of_not_symbol ho p) (by simpa only [hn] using hx),
      fun _ => hm ?_⟩
    rw [hn]
    simp only [NumberState.next]
    split
    · simp
    · simp [hc]

/-- Blanks at the end are no concern of the scan. -/
theorem append_blank {w : List Char} (hw : AllBlank w) (p : Place) (text : List Char) :
    (p.Admits (text ++ w) ↔ p.Admits text) ∧ p.ops (text ++ w) = p.ops text ∧
      (p.after (text ++ w)).depth = (p.after text).depth := by
  obtain ⟨x, ⟨ha, ho, hx⟩, -⟩ := passes_blank hw (p.after text)
  refine ⟨?_, ?_, ?_⟩
  · rw [admits_append]
    exact and_iff_left ha
  · rw [ops_append, ho, List.append_nil]
  · rw [after_append, hx]

theorem passes_numeric (hc : c.isDigit = true ∨ c = '.') (p : Place) :
    p.Passes [c] ⟨p.depth, false, .numeric⟩ := by
  have hn : NumberState.isNumeric c = true := by
    rcases hc with hc | rfl
    · simp [NumberState.isNumeric, Text.isDigit_of_ascii c hc]
    · decide
  have hb : Text.isBlank c = false := by
    rcases hc with hc | rfl
    · exact isBlank_of_isDigit hc
    · decide
  have hne : c ≠ '(' ∧ c ≠ ')' ∧ c ≠ '-' := by
    refine ⟨?_, ?_, ?_⟩ <;> rintro rfl <;> revert hn <;> decide
  have ho : Operator.ofChar? c = none := ofChar?_eq_none fun op he => by
    rw [he] at hn
    cases op <;> revert hn <;> decide
  refine .cons hne.2.1 (operator?_of_not_symbol ho p) ?_
  have : p.next c = ⟨p.depth, false, .numeric⟩ := by
    simp [next, NumberState.next, hn, hb, hne]
  exact this ▸ .nil _

theorem passes_digits {ds : List Char} (hne : ds ≠ []) (hd : AllDigits ds) (p : Place) :
    p.Passes ds ⟨p.depth, false, .numeric⟩ := by
  induction ds generalizing p with
  | nil => exact absurd rfl hne
  | cons c ds ih =>
    have hc := passes_numeric (.inl (hd c (by simp))) p
    by_cases hds : ds = []
    · subst hds
      exact hc
    · exact hc.append (ih hds (fun d h => hd d (List.mem_cons_of_mem _ h)) _)

/-- The sign of an exponent is no operator, as it comes after a digit and a mark. -/
theorem passes_exponent {es : List Char} {k : Int} (h : IsExponent es k) (d : Nat) :
    (Place.mk d false .numeric).Passes es ⟨d, false, .numeric⟩ := by
  cases h with
  | absent => exact .nil _
  | marked mark sign ds hm hne hd =>
    have hmark : (Place.mk d false .numeric).Passes [mark] ⟨d, false, .marked⟩ := by
      rcases hm with rfl | rfl
      all_goals
        refine .cons (by decide) (operator?_of_not_symbol rfl _) ?_
        exact .nil _
    have hsign : ∃ x, (Place.mk d false .marked).Passes sign.chars ⟨d, false, x⟩ := by
      cases sign with
      | absent => exact ⟨_, .nil _⟩
      | plus =>
        refine ⟨.plain, .cons (by decide) ?_ (.nil _)⟩
        by_cases hd : d = 0 <;> simp [operator?, hd, Operator.ofChar?]
      | minus =>
        refine ⟨.plain, .cons (by decide) ?_ (.nil _)⟩
        by_cases hd : d = 0 <;> simp [operator?, hd, Operator.ofChar?]
    obtain ⟨x, hsign⟩ := hsign
    exact hmark.append (hsign.append (passes_digits hne hd _))

theorem passes_entry {n : Numeral} {cs : List Char} (h : IsEntry n cs) (hu : n.sign = .absent)
    (p : Place) : p.Passes cs ⟨p.depth, false, .numeric⟩ := by
  obtain ⟨⟨hw, hf, hnil, es, he, rfl⟩, hd⟩ := h
  have hm : p.Passes (n.whole ++ n.pointed) ⟨p.depth, false, .numeric⟩ := by
    rw [Numeral.pointed]
    split
    next hp =>
      obtain ⟨q, hwhole, hq⟩ : ∃ q, p.Passes n.whole q ∧ q.depth = p.depth := by
        by_cases hn : n.whole = []
        · exact ⟨p, hn ▸ .nil p, rfl⟩
        · exact ⟨_, passes_digits hn hw p, rfl⟩
      have hfraction :
          (Place.mk p.depth false .numeric).Passes n.fraction ⟨p.depth, false, .numeric⟩ := by
        by_cases hn : n.fraction = []
        · exact hn ▸ .nil _
        · exact passes_digits hn hf _
      have hpoint := passes_numeric (.inr rfl) q
      rw [hq] at hpoint
      exact hwhole.append (hpoint.append hfraction)
    next hp =>
      rw [List.append_nil]
      exact passes_digits (hd.resolve_right (not_not.mpr (hnil (by simpa using hp)))) hw p
  rw [hu, ← List.append_assoc n.whole]
  exact hm.append (passes_exponent he _)

theorem passes_number {n : Numeral} {cs : List Char} (h : IsNumber n cs) (p : Place) :
    p.Passes cs ⟨p.depth, false, .numeric⟩ :=
  passes_entry h.isEntry h.unsigned p

/-- Between brackets there are no operators to split at. -/
theorem ops_eq_nil_of_depth_lt {p q : Place} (hd : q.depth < p.depth) {text : List Char}
    (ha : q.Admits text) : p.ops text = [] := by
  induction text generalizing p q with
  | nil => rfl
  | cons c cs ih =>
    obtain ⟨hc, ha⟩ := ha
    have ho : p.operator? c = none := by simp [operator?, show p.depth ≠ 0 by omega]
    have hn : (q.next c).depth < (p.next c).depth := by
      simp only [next]
      split
      · omega
      · split
        next hclose =>
          have : q.depth ≠ 0 := fun h0 => hc ⟨hclose, h0⟩
          omega
        next => exact hd
    rw [ops_cons, ho, ih hn ha]
    rfl

theorem passes_open (p : Place) : p.Passes ['('] ⟨p.depth + 1, false, .plain⟩ := by
  refine .cons (by decide) (operator?_of_not_symbol rfl p) ?_
  have : p.next '(' = ⟨p.depth + 1, false, .plain⟩ := by
    have hn : p.number.next '(' = .plain := by simp [NumberState.next, NumberState.isNumeric,
      Text.isDigit, Text.digitRanges]
    have hb : Text.isBlank '(' = false := by decide
    simp [next, hn, hb]
  exact this ▸ .nil _

theorem passes_close {p : Place} {d : Nat} (hd : p.depth = d + 1) :
    p.Passes [')'] ⟨d, false, .plain⟩ := by
  have hp : p.next ')' = ⟨d, false, .plain⟩ := by
    have hn : p.number.next ')' = .plain := by simp [NumberState.next, NumberState.isNumeric,
      Text.isDigit, Text.digitRanges]
    have hb : Text.isBlank ')' = false := by decide
    simp [next, hn, hb, hd]
  have ho : p.operator? ')' = none := operator?_of_not_symbol rfl p
  exact ⟨⟨fun hh => by rw [hd] at hh; exact absurd hh.2 (Nat.succ_ne_zero d), trivial⟩,
    by simp [ops_cons, ho], hp⟩

theorem Passes.reads {x : NumberState} (h : p.Passes t ⟨p.depth, false, x⟩) (hx : x ≠ .marked)
    (k : Nat) : p.Reads k t :=
  ⟨h.admits, by rw [h.after], by rw [h.after], by rw [h.after]; exact hx, by simp [h.ops]⟩

theorem Reads.mono {k k' : Nat} (hk : k ≤ k') (h : p.Reads k' t) : p.Reads k t :=
  ⟨h.admits, h.depth, h.leading, h.number, fun op hop => Nat.lt_of_le_of_lt hk (h.higher op hop)⟩

theorem Passes.reads_append {k : Nat} (h : p.Passes s p') (hd : p'.depth = p.depth)
    (h' : p'.Reads k t) : p.Reads k (s ++ t) := by
  obtain ⟨ha, ho, rfl⟩ := h
  refine ⟨(admits_append ..).mpr ⟨ha, h'.admits⟩, ?_, ?_, ?_, ?_⟩
  · rw [after_append, h'.depth, hd]
  · rw [after_append, h'.leading]
  · rw [after_append]
    exact h'.number
  · rw [ops_append, ho]
    exact h'.higher

theorem symbol_injective {op op' : Operator} (h : op.symbol = op'.symbol) : op = op' :=
  Option.some.inj ((Operator.ofChar?_eq_some_iff.mpr rfl).symm.trans
    (Operator.ofChar?_eq_some_iff.mpr h))

theorem Reads.chain {k : Nat} {op : Operator} (hop : op.priority = k + 1) (hs : p.Reads k s)
    (ht : ∀ q : Place, q.Reads (k + 1) t) : p.Reads k (s ++ op.symbol :: t) := by
  have hclose : op.symbol ≠ ')' := by cases op <;> decide
  have hnext : ((p.after s).next op.symbol).depth = p.depth := by rw [next_symbol, hs.depth]
  have ht := ht ((p.after s).next op.symbol)
  refine ⟨?_, ?_, ?_, ?_, ?_⟩
  · exact (admits_append ..).mpr ⟨hs.admits, fun hh => hclose hh.1, ht.admits⟩
  · rw [after_append, after_cons, ht.depth, hnext]
  · rw [after_append, after_cons, ht.leading]
  · rw [after_append, after_cons]
    exact ht.number
  · intro o ho
    rw [ops_append, ops_cons] at ho
    simp only [List.mem_append, Option.mem_toList] at ho
    rcases ho with ho | ho | ho
    · exact hs.higher o ho
    · rw [← symbol_injective (operator?_eq_some.mp ho).1, hop]
      exact Nat.lt_succ_self k
    · exact Nat.lt_of_succ_lt (ht.higher o ho)

end Place

namespace Category

/-- Every operator outside brackets has a higher priority. -/
def level : Category → Nat
  | sum => 0
  | signedProduct | product => 1
  | signedFactor | factor => 2

/-- Whether signs may stand in front. -/
def signed : Category → Bool
  | sum | signedProduct | signedFactor => true
  | product | factor => false

variable {c d : Category} {op : Operator}

theorem head?_level (h : c.head? = some d) :
    c.level ≤ d.level ∧ (d.signed = true → c.signed = true) := by
  cases c <;> simp only [head?, Option.some.injEq, reduceCtorEq] at h <;> subst h <;> decide

theorem operand?_level (h : c.operand? op = some d) :
    op.priority = c.level + 1 ∧ d.level = c.level + 1 ∧ d.signed = false := by
  cases c <;> cases op <;> simp only [operand?, Option.some.injEq, reduceCtorEq] at h <;>
    subst h <;> decide

end Category

theorem Derives.reads {c : Category} {s : List Char} {x : Double} (h : Derives c s x) :
    ∀ p : Place, (c.signed = true → p.depth = 0 → p.leading = true) → p.Reads c.level s := by
  induction h with
  | number hv hw hn =>
    intro p _
    obtain ⟨a, ha, -⟩ := p.passes_blank hv
    have hc := Place.passes_number hn ⟨p.depth, p.leading, a⟩
    obtain ⟨b, hb, hm⟩ := Place.passes_blank hw ⟨p.depth, false, .numeric⟩
    exact (ha.append (hc.append hb)).reads (hm (by simp)) _
  | @bracketed v s w x hv hw _ ih =>
    intro p _
    obtain ⟨a, ha, -⟩ := p.passes_blank hv
    have ho := Place.passes_open ⟨p.depth, p.leading, a⟩
    -- read one level deeper the inside holds no operators; read by itself it shows that its
    -- brackets pair up
    have hin := ih ⟨p.depth + 1, false, .plain⟩ (by simp)
    have hpass : (Place.mk (p.depth + 1) false .plain).Passes s _ :=
      ⟨hin.admits, Place.ops_eq_nil_of_depth_lt (Nat.succ_pos p.depth)
        (ih .start fun _ _ => rfl).admits, rfl⟩
    have hclose := Place.passes_close hin.depth
    obtain ⟨b, hb, hm⟩ := Place.passes_blank hw ⟨p.depth, false, .plain⟩
    exact (ha.append (ho.append (hpass.append (hclose.append hb)))).reads (hm (by simp)) _
  | @negated v s x hv _ ih =>
    intro p hp
    obtain ⟨a, ha, -⟩ := p.passes_blank hv
    have hm : (Place.mk p.depth p.leading a).Passes ['-'] ⟨p.depth, p.leading, .plain⟩ := by
      refine .cons (by decide) ?_ ?_
      · by_cases hd : p.depth = 0 <;> simp [Place.operator?, hd, hp rfl]
      · have := Place.next_symbol .sub ⟨p.depth, p.leading, a⟩
        rw [show Operator.sub.symbol = '-' from rfl] at this
        simpa [this] using Place.Passes.nil _
    have hr := (ha.append hm).reads_append rfl (ih ⟨p.depth, p.leading, .plain⟩ fun _ => hp rfl)
    rwa [List.append_assoc] at hr
  | head hc _ ih =>
    intro p hp
    obtain ⟨hl, hs⟩ := Category.head?_level hc
    exact (ih p fun hd => hp (hs hd)).mono hl
  | chain hc _ _ ihs iht =>
    intro p hp
    obtain ⟨ho, hl, hs⟩ := Category.operand?_level hc
    exact (ihs p hp).chain ho fun q => hl ▸ iht q (by simp [hs])

end FormulaEntry
