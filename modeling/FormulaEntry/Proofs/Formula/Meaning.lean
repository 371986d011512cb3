import FormulaEntry.Formula.Evaluate
import FormulaEntry.Proofs.Formula.Chain

/-! Evaluation gives the formulas of the grammar their values, and gives no value to
anything else. Soundness follows the shape that was found: a segment next to
operators of priority `k` holds only higher ones, so it derives from the category
that may stand there. Completeness follows the derivation. Both are inductions on
the number of evaluations allowed to be under way. -/

namespace FormulaEntry

open Text (AllBlank)

/-! Soundness. -/

/-- A chain has a value if all its parts have, and then it is folded from the left. -/
theorem links_of_foldlM {part : List Char → Except FormulaError Double}
    {rest : List (Operator × List Char)} {a x : Double}
    (h : rest.foldlM (fun acc r => return r.1.apply acc (← part r.2)) a = .ok x) :
    ∃ links : List Link, rest = links.map Link.part ∧ (∀ l ∈ links, part l.text = .ok l.value) ∧
      x = Link.fold links a := by
  induction rest generalizing a with
  | nil =>
    obtain rfl : a = x := Except.ok.inj h
    exact ⟨[], rfl, by simp, rfl⟩
  | cons r rest ih =>
    rw [List.foldlM_cons] at h
    obtain ⟨b, hb, h⟩ := bind_eq_ok.mp h
    obtain ⟨y, hy, hb⟩ := bind_eq_ok.mp hb
    obtain rfl : r.1.apply a y = b := Except.ok.inj hb
    obtain ⟨links, rfl, hl, rfl⟩ := ih h
    refine ⟨⟨r.1, r.2, y⟩ :: links, rfl, fun l hmem => ?_, rfl⟩
    rcases List.mem_cons.mp hmem with rfl | hmem
    · exact hy
    · exact hl l hmem

/-- Next to operators of priority `k` a formula is what the grammar has there. -/
theorem derives_of_chain {k : Nat} {first : List Char} {links : List Link} {a : Double}
    (hne : links ≠ []) (hf : Segment k first)
    (hr : ∀ l ∈ links, l.op.priority = k ∧ Segment k l.text ∧ ¬BeginsSigned l.text)
    (ha : Derives .sum first a) (hl : ∀ l ∈ links, Derives .sum l.text l.value) :
    Derives .sum (join first (links.map Link.part)) (Link.fold links a) := by
  have hk : k = 1 ∨ k = 2 := by
    obtain ⟨l, rest, rfl⟩ := List.exists_cons_of_ne_nil hne
    rw [← (hr l (by simp)).1]
    cases l.op <;> decide
  have hlow {s : List Char} {x : Double} (hd : Derives .sum s x) (hs : Segment k s) :
      Derives .signedProduct s x :=
    hd.of_higher rfl rfl fun op hop => by
      have : k < op.priority := hs.higher op hop
      show 0 + 1 < op.priority
      omega
  rcases hk with rfl | rfl
  · refine Derives.join (.head rfl (hlow ha hf)) fun l hmem => ⟨.product, ?_, ?_⟩
    · have := (hr l hmem).1
      cases hop : l.op <;> simp_all [Operator.priority, Category.operand?]
    · exact (hlow (hl l hmem) (hr l hmem).2.1).unsigned (hr l hmem).2.2
  · have hhigh {s : List Char} {x : Double} (hd : Derives .sum s x) (hs : Segment 2 s) :
        Derives .signedFactor s x :=
      (hlow hd hs).of_higher rfl rfl hs.higher
    refine .head rfl (Derives.join (.head rfl (hhigh ha hf)) fun l hmem => ⟨.factor, ?_, ?_⟩)
    · have := (hr l hmem).1
      cases hop : l.op <;> simp_all [Operator.priority, Category.operand?]
    · exact (hhigh (hl l hmem) (hr l hmem).2.1).unsigned (hr l hmem).2.2

/-- A text without operators that has a value: signs, or a bracketed formula. -/
theorem derives_of_plain {part : List Char → Except FormulaError Double} {t : List Char}
    {x : Double} (ho : Place.start.ops t = []) (h : (Shape.ofPlain t).value part = .ok x)
    (ih : ∀ s y, part s = .ok y → Derives .sum s y) : Derives .sum t x := by
  unfold Shape.ofPlain at h
  split at h
  next c cs =>
    obtain ⟨y, hy, h⟩ := bind_eq_ok.mp h
    obtain rfl : y.neg = x := Except.ok.inj h
    -- a sign in front changes nothing for what follows it
    have hops : Place.start.ops (c :: cs) = [] := by
      rw [Place.ops_cons, List.append_eq_nil_iff] at ho
      exact ho.2
    have hs : Derives .signedProduct (c :: cs) y :=
      (ih _ _ hy).of_higher rfl rfl (by simp [hops])
    have hf : Derives .signedFactor (c :: cs) y := hs.of_higher rfl rfl (by simp [hops])
    exact Derives.sum (.negated (v := []) (by simp [AllBlank]) hf)
  next cs =>
    split at h
    next hlast =>
      have hcs : cs = cs.dropLast ++ [')'] := (List.dropLast_append_getLast? _ hlast).symm
      have hb := Derives.bracketed (v := []) (w := []) (by simp [AllBlank]) (by simp [AllBlank])
        (ih _ _ h)
      rw [List.nil_append, ← hcs] at hb
      exact hb.sum
    next => cases h
  next => cases h

theorem derives_of_evaluateWithin {limit : Nat} {text : List Char} {x : Double}
    (h : evaluateWithin limit text = .ok x) : Derives .sum text x := by
  induction limit generalizing text x with
  | zero => cases h
  | succ limit ih =>
    rw [evaluateWithin] at h
    obtain ⟨s, hs, h⟩ := bind_eq_ok.mp h
    rw [← Derives.strip_iff]
    have hout := Shape.outline_of_ofTrimmed hs
    revert hout
    generalize Text.strip text = t
    intro hout
    cases hout with
    | blank => cases h
    | literal hn =>
      obtain rfl := Except.ok.inj h
      exact (Numeral.derives_of_literal? hn).sum
    | chain k hne hdiv =>
      obtain ⟨hf, hr⟩ := hdiv.segments
      obtain ⟨a, ha, h⟩ := bind_eq_ok.mp h
      obtain ⟨links, rfl, hl, rfl⟩ := links_of_foldlM h
      refine derives_of_chain (by simpa using hne) hf (fun l hmem => ?_) (ih ha) fun l hmem =>
        ih (hl l hmem)
      exact hr l.part (List.mem_map_of_mem hmem)
    | plain _ ho => exact derives_of_plain ho h fun _ _ => ih

/-! Completeness. -/

/-- The value, unless nesting is cut short. -/
def Meets (e : Except FormulaError Double) (x : Double) : Prop :=
  e = .ok x ∨ e = .error .nestingTooDeep

theorem Meets.bind {e : Except FormulaError Double} {x y : Double}
    {f : Double → Except FormulaError Double} (h : Meets e x) (hf : Meets (f x) y) :
    Meets (e >>= f) y := by
  rcases h with rfl | rfl
  · exact hf
  · exact .inr rfl

theorem meets_chain {part : List Char → Except FormulaError Double} {first : List Char}
    {a : Double} {links : List Link} (ha : Meets (part first) a)
    (hl : ∀ l ∈ links, Meets (part l.text) l.value) :
    Meets ((Shape.chain first (links.map Link.part)).value part) (Link.fold links a) := by
  refine ha.bind ?_
  clear ha
  induction links generalizing a with
  | nil => exact .inl rfl
  | cons l links ih =>
    have hrest := ih (a := l.op.apply a l.value) fun l' hl' => hl l' (List.mem_cons_of_mem _ hl')
    have hstep : Meets (do return l.op.apply a (← part l.text)) (l.op.apply a l.value) :=
      (hl l (by simp)).bind (.inl rfl)
    rw [List.map_cons, List.foldlM_cons]
    exact hstep.bind hrest

theorem IsNumber.strip {n : Numeral} {cs : List Char} (h : IsNumber n cs) :
    Text.strip cs = cs := by
  have hl : Text.stripLeft cs = cs := by
    obtain ⟨c, t, rfl, hc⟩ := h.exists_head
    refine Text.stripLeft_cons ?_ t
    rcases hc with hc | rfl
    · exact isBlank_of_isDigit hc
    · decide
  obtain ⟨t, c, rfl, hc⟩ := h.exists_last
  rw [Text.strip, hl, Text.stripRight_concat (isBlank_of_isDigit hc)]

theorem strip_bracketed {v s w : List Char} (hv : AllBlank v) (hw : AllBlank w) :
    Text.strip (v ++ '(' :: (s ++ ')' :: w)) = '(' :: (s ++ [')']) := by
  have he : v ++ '(' :: (s ++ ')' :: w) = v ++ (('(' :: s ++ [')']) ++ w) := by simp
  rw [he, Text.strip_append hv hw, Text.strip, List.cons_append, Text.stripLeft_cons (by decide),
    ← List.cons_append, Text.stripRight_concat (by decide)]

theorem strip_negated {v s : List Char} (hv : AllBlank v) :
    Text.strip (v ++ '-' :: s) = '-' :: Text.stripRight s := by
  rw [Text.strip, Text.stripLeft_append hv, Text.stripLeft_cons (by decide)]
  exact Text.stripRight_append_cons (s := []) (by decide) s

theorem Derives.eq_of_isNumber {c : Category} {s : List Char} {x : Double} {n : Numeral}
    (h : Derives c s x) (hc : c = .signedFactor ∨ c = .factor) (hn : IsNumber n s) :
    x = n.toDouble := by
  obtain ⟨b, t, hs, hb⟩ := hn.exists_head
  have hstrip := hn.strip
  induction h with
  | number hv hw hm =>
    rw [Text.strip_append hv hw, hm.strip] at hstrip
    rw [← hstrip] at hn
    have := (Numeral.literal?_of_isNumber hn).symm.trans (Numeral.literal?_of_isNumber hm)
    rw [Option.some.inj this]
  | bracketed hv hw =>
    rw [strip_bracketed hv hw, hs] at hstrip
    obtain rfl := (List.cons.inj hstrip).1
    exact absurd hb (by decide)
  | negated hv =>
    rw [strip_negated hv, hs] at hstrip
    obtain rfl := (List.cons.inj hstrip).1
    exact absurd hb (by decide)
  | @head c d _ _ hd _ ih =>
    refine ih (.inr ?_) hn hs hstrip
    rcases hc with rfl | rfl
    · exact (Option.some.inj hd).symm
    · cases hd
  | chain hd => rcases hc with rfl | rfl <;> cases hd

theorem evaluateWithin_succ (limit : Nat) (text : List Char) :
    evaluateWithin (limit + 1) text =
      (Shape.ofTrimmed (Text.strip text)) >>= Shape.value (evaluateWithin limit) := rfl

section

variable {limit : Nat}
  (ih : ∀ {s : List Char} {x : Double}, Derives .sum s x → Meets (evaluateWithin limit s) x)
include ih

theorem meets_factor {s : List Char} {x : Double} (h : Derives .factor s x) :
    Meets (evaluateWithin (limit + 1) s) x := by
  rw [evaluateWithin_succ]
  cases h with
  | head hd => cases hd
  | chain hd => cases hd
  | @number n v cs w hv hw hn =>
    have hne : cs ≠ [] := by
      obtain ⟨c, t, rfl, -⟩ := hn.exists_head
      exact List.cons_ne_nil c t
    rw [Text.strip_append hv hw, hn.strip, Shape.ofTrimmed, if_neg hne,
      Numeral.literal?_of_isNumber hn]
    exact .inl rfl
  | @bracketed v s w x hv hw hs =>
    have hr : Place.start.Reads 2 ('(' :: (s ++ [')'])) :=
      (Derives.bracketed (v := []) (w := []) (by simp [AllBlank]) (by simp [AllBlank])
        hs).reads Place.start fun _ _ => rfl
    have hlit : Numeral.literal? ('(' :: (s ++ [')'])) = none := by
      refine Option.eq_none_iff_forall_ne_some.mpr fun n hn => ?_
      rcases Numeral.isNumber_of_literal? hn with hn | ⟨t, ht, -⟩
      · obtain ⟨c, t, ht, hc⟩ := hn.exists_head
        obtain rfl := (List.cons.inj ht).1
        exact absurd hc (by decide)
      · exact absurd (List.cons.inj ht).1 (by decide)
    have hplain : Shape.ofPlain ('(' :: (s ++ [')'])) = .bracketed s := by
      simp [Shape.ofPlain]
    rw [strip_bracketed hv hw, Shape.ofTrimmed_plain (List.cons_ne_nil _ _) hlit hr, hplain]
    exact ih hs

theorem meets_signedFactor {s : List Char} {x : Double} (h : Derives .signedFactor s x) :
    Meets (evaluateWithin (limit + 1) s) x := by
  cases h with
  | head hd h =>
    obtain rfl := Option.some.inj hd
    exact meets_factor ih h
  | chain hd => cases hd
  | @negated v s x hv hs =>
    have hs := hs.stripRight
    have hneg : Derives .signedFactor ('-' :: Text.stripRight s) x.neg :=
      .negated (v := []) (by simp [AllBlank]) hs
    rw [evaluateWithin_succ, strip_negated hv]
    cases hlit : Numeral.literal? ('-' :: Text.stripRight s) with
    | some n =>
      rw [Shape.ofTrimmed, if_neg (List.cons_ne_nil _ _), hlit]
      -- a sign right before a number belongs to the literal
      rcases Numeral.isNumber_of_literal? hlit with hn | ⟨t, ht, hm, hn⟩
      · obtain ⟨c, t, ht, hc⟩ := hn.exists_head
        obtain rfl := (List.cons.inj ht).1
        exact absurd hc (by decide)
      · obtain rfl := (List.cons.inj ht).2
        rw [hs.eq_of_isNumber (.inl rfl) hn, ← Numeral.toDouble_of_minus hm]
        exact .inl rfl
    | none =>
      have hr : Place.start.Reads 2 ('-' :: Text.stripRight s) :=
        hneg.reads Place.start fun _ _ => rfl
      obtain ⟨c, t, ht⟩ := List.exists_cons_of_ne_nil fun hn : Text.stripRight s = [] =>
        hs.stripLeft.1 (by rw [hn]; rfl)
      have hplain : Shape.ofPlain ('-' :: Text.stripRight s) =
          .negated (Text.stripRight s) := by rw [ht]; rfl
      rw [Shape.ofTrimmed_plain (List.cons_ne_nil _ _) hlit hr, hplain]
      exact (ih hs.sum).bind (.inl rfl)

/-- A sum or signed product that is trimmed, by its chain. -/
theorem meets_chained {c : Category} {s : List Char} {x : Double}
    (hc : c = .sum ∨ c = .signedProduct)
    (hhead : ∀ {d : Category} {y : Double}, c.head? = some d → Derives d s y →
      Meets (evaluateWithin (limit + 1) s) y)
    (h : Derives c s x) (hs : Text.strip s = s) : Meets (evaluateWithin (limit + 1) s) x := by
  obtain ⟨d, first, a, links, hd, hf, hl, rfl, rfl⟩ := h.exists_join hc
  by_cases hne : links = []
  · subst hne
    rw [List.map_nil, join, List.flatMap_nil, List.append_nil] at hhead ⊢
    exact hhead hd hf
  · have hlevel : d.level = c.level + 1 ∧ c.signed = true := by
      rcases hc with rfl | rfl <;> obtain rfl := Option.some.inj hd <;> decide
    have hfirst : Place.start.Reads (c.level + 1) first :=
      hlevel.1 ▸ hf.reads Place.start fun _ _ => rfl
    have hrest : ∀ r ∈ links.map Link.part, r.1.priority = c.level + 1 ∧
        Place.resumed.Reads (c.level + 1) r.2 := by
      intro r hr
      obtain ⟨l, hmem, rfl⟩ := List.mem_map.mp hr
      obtain ⟨e, he, ht⟩ := hl l hmem
      obtain ⟨ho, hle, hse⟩ := Category.operand?_level he
      exact ⟨ho, hle ▸ ht.reads Place.resumed (by simp [hse])⟩
    rw [evaluateWithin_succ, hs,
      Shape.ofTrimmed_join (divided_of_reads hfirst hrest) (by simpa using hne)]
    exact meets_chain (ih hf.sum) fun l hmem => by
      obtain ⟨e, -, ht⟩ := hl l hmem
      exact ih ht.sum

end

theorem meets_of_derives (limit : Nat) {text : List Char} {x : Double}
    (h : Derives .sum text x) : Meets (evaluateWithin limit text) x := by
  induction limit generalizing text x with
  | zero => exact .inr rfl
  | succ limit ih =>
    have hs := Text.strip_strip text
    have hstrip : evaluateWithin (limit + 1) text =
        evaluateWithin (limit + 1) (Text.strip text) := by
      rw [evaluateWithin_succ, evaluateWithin_succ, hs]
    rw [hstrip]
    rw [← Derives.strip_iff] at h
    refine meets_chained ih (.inl rfl) (fun hd h => ?_) h hs
    obtain rfl := Option.some.inj hd
    refine meets_chained ih (.inr rfl) (fun hd h => ?_) h hs
    obtain rfl := Option.some.inj hd
    exact meets_signedFactor ih h

theorem evaluateWithin_eq_ok_iff {limit : Nat} {text : List Char}
    (h : evaluateWithin limit text ≠ .error .nestingTooDeep) (x : Double) :
    evaluateWithin limit text = .ok x ↔ Derives .sum text x := by
  refine ⟨derives_of_evaluateWithin, fun hd => ?_⟩
  rcases meets_of_derives limit hd with hok | herr
  · exact hok
  · exact absurd herr h

/-- A formula has a value exactly if the grammar derives it, and then it has the value
of the derivation, however deep the nesting may go. -/
theorem evaluate_eq_ok_iff_derives (formula : String) (x : Double) :
    (evaluate formula ≠ .error .nestingTooDeep →
      (evaluate formula = .ok x ↔ Derives .sum formula.toList x)) ∧
    ∀ limit, evaluateWithin limit formula.toList ≠ .error .nestingTooDeep →
      (evaluateWithin limit formula.toList = .ok x ↔ Derives .sum formula.toList x) :=
  ⟨fun h => evaluateWithin_eq_ok_iff h x, fun _ h => evaluateWithin_eq_ok_iff h x⟩

/-- A sign, a bracket and the sign of an exponent in one formula. -/
theorem evaluate_signed_product :
    evaluate " -2*(3 - 5e-1)" ≠ .error .nestingTooDeep ∧
    Derives .sum " -2*(3 - 5e-1)".toList
      (Double.mul (Numeral.mk .minus ['2'] false [] 0).toDouble
        (Double.sub (Numeral.mk .absent ['3'] false [] 0).toDouble
          (Numeral.mk .absent ['5'] false [] (-1)).toDouble)) := by
  have hx : evaluate " -2*(3 - 5e-1)" =
      .ok (Double.mul (Numeral.mk .minus ['2'] false [] 0).toDouble
        (Double.sub (Numeral.mk .absent ['3'] false [] 0).toDouble
          (Numeral.mk .absent ['5'] false [] (-1)).toDouble)) := by
    decide +kernel
  have hne : evaluate " -2*(3 - 5e-1)" ≠ .error .nestingTooDeep := by
    rw [hx]
    exact nofun
  exact ⟨hne, ((evaluate_eq_ok_iff_derives _ _).1 hne).mp hx⟩

end FormulaEntry
