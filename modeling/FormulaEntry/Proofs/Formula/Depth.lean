import FormulaEntry.Proofs.Formula.Survey
import Mathlib.Data.Finset.Lattice.Fold
import Mathlib.Data.List.DropRight
import Mathlib.Order.Lattice.Nat

/-! How deep the evaluation of a text goes. A text is evaluated while the texts it is a part of
wait, and only so many of them can: a part of a sum holds no operator of a sum, a part of a
product none at all, and to have any again costs a pair of brackets. Signs in front cost one
evaluation each. The length of a text and the number of its operators do not come in. -/

namespace FormulaEntry

open Text (AllBlank)

/-- How many more brackets are open than closed, where the most are. -/
def bracketHeight (text : List Char) : Nat :=
  text.inits.toFinset.sup fun t => t.count '(' - t.count ')'

/-- A minus sign behind blanks and minus signs only, counted from the last opening bracket. -/
def IsSignAt (text : List Char) (i : Nat) : Prop :=
  text[i]? = some '-' ∧ SignsOnly ((text.take i).rtakeWhile (· ≠ '('))

instance (text : List Char) (i : Nat) : Decidable (IsSignAt text i) :=
  inferInstanceAs (Decidable (_ ∧ _))

def signCount (text : List Char) : Nat := ((Finset.range text.length).filter (IsSignAt text)).card

/-! Brackets and signs of a text within another one. -/

section

variable {before t after : List Char} {i : Nat}

theorem bracketHeight_le_iff {text : List Char} {b : Nat} :
    bracketHeight text ≤ b ↔ ∀ t, t <+: text → t.count '(' ≤ t.count ')' + b := by
  simp only [bracketHeight, Finset.sup_le_iff, List.mem_toFinset, List.mem_inits,
    Nat.sub_le_iff_le_add']

/-- Brackets left open add to the height of what follows. -/
theorem bracketHeight_within {d : Nat} (before t after : List Char)
    (h : before.count '(' = before.count ')' + d) :
    bracketHeight t + d ≤ bracketHeight (before ++ (t ++ after)) := by
  have hle (u : List Char) (hu : u <+: t) :
      d + u.count '(' ≤ u.count ')' + bracketHeight (before ++ (t ++ after)) := by
    have := bracketHeight_le_iff.mp (Nat.le_refl _) (before ++ u)
      ((List.prefix_append_right_inj before).mpr (hu.trans (List.prefix_append t after)))
    rw [List.count_append, List.count_append] at this
    omega
  have hd : d ≤ bracketHeight (before ++ (t ++ after)) := by simpa using hle [] List.nil_prefix
  have hsub : bracketHeight t ≤ bracketHeight (before ++ (t ++ after)) - d :=
    bracketHeight_le_iff.mpr fun u hu => by
      have := hle u hu
      omega
  omega

theorem rtakeWhile_append (p : Char → Bool) (s t : List Char) :
    (s ++ t).rtakeWhile p = if t.all p then s.rtakeWhile p ++ t else t.rtakeWhile p := by
  induction t using List.reverseRecOn with
  | nil => simp
  | append_singleton t c ih =>
    rw [← List.append_assoc, List.rtakeWhile_concat, ih, List.rtakeWhile_concat, List.all_append]
    cases hc : p c <;> cases ht : t.all p <;> simp [hc]

theorem IsSignAt.lt_length {text : List Char} (h : IsSignAt text i) : i < text.length :=
  (List.getElem?_eq_some_iff.mp h.1).1

theorem IsSignAt.append_right (h : IsSignAt before i) : IsSignAt (before ++ t) i := by
  have hlt := h.lt_length
  refine ⟨?_, ?_⟩
  · rw [List.getElem?_append_left hlt]
    exact h.1
  · rw [List.take_append_of_le_length (Nat.le_of_lt hlt)]
    exact h.2

/-- A sign stays one behind what ends in blanks and signs, or if it stands within brackets. -/
theorem IsSignAt.within (h : IsSignAt t i)
    (hb : SignsOnly (before.rtakeWhile (· ≠ '(')) ∨ '(' ∈ t.take i) :
    IsSignAt (before ++ (t ++ after)) (before.length + i) := by
  have hlt := h.lt_length
  refine ⟨?_, ?_⟩
  · rw [List.getElem?_append_right (Nat.le_add_right ..), Nat.add_sub_cancel_left,
      List.getElem?_append_left hlt]
    exact h.1
  · rw [List.take_length_add_append, List.take_append_of_le_length (Nat.le_of_lt hlt),
      rtakeWhile_append]
    split
    next hall =>
      have hall := List.all_eq_true.mp hall
      have hnone : '(' ∉ t.take i := fun hm => by simpa using hall '(' hm
      have hself : (t.take i).rtakeWhile (· ≠ '(') = t.take i :=
        List.rtakeWhile_eq_self_iff.mpr hall
      intro c hc
      rcases List.mem_append.mp hc with hc | hc
      · exact hb.resolve_right hnone c hc
      · exact h.2 c (hself.symm ▸ hc)
    next => exact h.2

theorem signCount_within (before t after : List Char)
    (h : ∀ i, IsSignAt t i → SignsOnly (before.rtakeWhile (· ≠ '(')) ∨ '(' ∈ t.take i) :
    signCount before + signCount t ≤ signCount (before ++ (t ++ after)) := by
  let shift : Nat ↪ Nat := ⟨(before.length + ·), fun _ _ => Nat.add_left_cancel⟩
  have hdisj : Disjoint ((Finset.range before.length).filter (IsSignAt before))
      (((Finset.range t.length).filter (IsSignAt t)).map shift) := by
    refine Finset.disjoint_left.mpr fun j hj hj' => ?_
    obtain ⟨i, -, rfl⟩ := Finset.mem_map.mp hj'
    have := Finset.mem_range.mp (Finset.mem_filter.mp hj).1
    exact absurd this (Nat.not_lt.mpr (Nat.le_add_right ..))
  have hsub : ((Finset.range before.length).filter (IsSignAt before)) ∪
      (((Finset.range t.length).filter (IsSignAt t)).map shift) ⊆
      (Finset.range (before ++ (t ++ after)).length).filter
        (IsSignAt (before ++ (t ++ after))) := by
    intro j hj
    have hsign : IsSignAt (before ++ (t ++ after)) j := by
      rcases Finset.mem_union.mp hj with hj | hj
      · exact (Finset.mem_filter.mp hj).2.append_right
      · obtain ⟨i, hi, rfl⟩ := Finset.mem_map.mp hj
        have hi := (Finset.mem_filter.mp hi).2
        exact hi.within (h i hi)
    exact Finset.mem_filter.mpr ⟨Finset.mem_range.mpr hsign.lt_length, hsign⟩
  have := Finset.card_le_card hsub
  rwa [Finset.card_union_of_disjoint hdisj, Finset.card_map] at this

theorem signCount_le_within (before t after : List Char)
    (h : ∀ i, IsSignAt t i → SignsOnly (before.rtakeWhile (· ≠ '(')) ∨ '(' ∈ t.take i) :
    signCount t ≤ signCount (before ++ (t ++ after)) :=
  Nat.le_trans (Nat.le_add_left ..) (signCount_within before t after h)

end

/-! A text without the blanks at its ends. -/

theorem Text.isDigit_of_isBlank {c : Char} (h : Text.isBlank c = true) :
    Text.isDigit c = false := by
  have hapart : ∀ r ∈ Text.digitRanges, 0x20 < r.1 ∧ (r.2 < 0x85 ∨ 0xA0 < r.1) ∧
      (r.2 < 0x1680 ∨ 0x1680 < r.1) ∧ (r.2 < 0x2000 ∨ 0x205F < r.1) ∧
      (r.2 < 0x3000 ∨ 0x3000 < r.1) := by
    decide
  simp only [Text.isBlank, Bool.or_eq_true, Bool.and_eq_true, decide_eq_true_eq, beq_iff_eq] at h
  refine List.any_eq_false.mpr fun r hr => ?_
  have := hapart r hr
  simp only [Bool.and_eq_true, decide_eq_true_eq]
  omega

namespace Place

theorem start_next_blank {c : Char} (h : Text.isBlank c = true) : start.next c = start := by
  have hc : c ≠ '(' ∧ c ≠ ')' ∧ c ≠ '.' := by
    refine ⟨?_, ?_, ?_⟩ <;> rintro rfl <;> revert h <;> decide
  simp [next, start, NumberState.next, NumberState.isNumeric, Text.isDigit_of_isBlank h, h, hc]

theorem start_after_blank {v : List Char} (hv : AllBlank v) : start.after v = start := by
  induction v with
  | nil => rfl
  | cons c v ih =>
    rw [after_cons, start_next_blank (hv c (by simp)),
      ih fun d hd => hv d (List.mem_cons_of_mem _ hd)]

theorem ops_strip (text : List Char) : start.ops (Text.strip text) = start.ops text := by
  obtain ⟨v, w, hv, hw, he⟩ := Text.exists_strip text
  obtain ⟨-, ⟨-, hv', -⟩, -⟩ := passes_blank hv start
  obtain ⟨-, ho, -⟩ := start.append_blank hw (Text.strip text)
  conv_rhs => rw [he, ops_append, hv', start_after_blank hv, ho, List.nil_append]

end Place

/-- How many evaluations the text allows for: three for each level of brackets, one for each
sign. -/
def depthBound (text : List Char) : Nat := 3 * (bracketHeight text + 1) + signCount text

theorem depthBound_strip_le (text : List Char) :
    depthBound (Text.strip text) ≤ depthBound text := by
  obtain ⟨v, w, hv, -, he⟩ := Text.exists_strip text
  have hcount (b : Char) (hb : Text.isBlank b = false) : v.count b = 0 :=
    List.count_eq_zero.mpr fun hm => by simp [hv b hm] at hb
  have hheight := bracketHeight_within v (Text.strip text) w (d := 0)
    ((hcount '(' (by decide)).trans (hcount ')' (by decide)).symm)
  have hsigns := signCount_le_within v (Text.strip text) w fun _ _ =>
    .inl fun c hc => .inl (hv c ((List.rtakeWhile_suffix _ v).subset hc))
  rw [← he] at hheight hsigns
  unfold depthBound
  omega

/-! The parts of a divided text. -/

theorem beginsSigned_of_signsOnly {text : List Char} {i : Nat} (h : SignsOnly (text.take i))
    (hi : text[i]? = some '-') : BeginsSigned text := by
  have hsign (cs : List Char) : BeginsSigned ('-' :: cs) := by
    rw [BeginsSigned, Text.stripLeft_cons (by decide)]
    rfl
  induction text generalizing i with
  | nil => simp at hi
  | cons c cs ih =>
    cases i with
    | zero =>
      obtain rfl : c = '-' := by simpa using hi
      exact hsign cs
    | succ i =>
      rcases h c (by simp) with hc | rfl
      · have hcs : BeginsSigned cs :=
          ih (fun d hd => h d (List.mem_cons_of_mem c hd)) (by simpa using hi)
        rwa [BeginsSigned, show Text.stripLeft (c :: cs) = Text.stripLeft cs from
          Text.stripLeft_append (v := [c]) (by simpa [AllBlank] using hc) cs]
      · exact hsign cs

theorem level_join {first : List Char} {rest : List (Operator × List Char)}
    (hf : first.count '(' = first.count ')') (hr : ∀ r ∈ rest, r.2.count '(' = r.2.count ')') :
    (join first rest).count '(' = (join first rest).count ')' := by
  induction rest generalizing first with
  | nil => simpa [join] using hf
  | cons r rest ih =>
    have hrest := ih (hr r (by simp)) fun r' hr' => hr r' (List.mem_cons_of_mem _ hr')
    have hop : r.1.symbol ≠ '(' ∧ r.1.symbol ≠ ')' := by cases r.1 <;> decide
    rw [join_cons, List.count_append, List.count_append, List.count_cons_of_ne hop.1,
      List.count_cons_of_ne hop.2, hf, hrest]

theorem Divided.depthBound_le {k : Nat} {first u : List Char} {rest : List (Operator × List Char)}
    (h : Divided k first rest) (hu : u ∈ (Shape.chain first rest).parts) :
    depthBound u ≤ depthBound (join first rest) := by
  obtain ⟨hf, hr⟩ := h.segments
  have hlevel {s : List Char} (hs : Segment k s) : s.count '(' = s.count ')' :=
    (paired_iff_balanced.mp hs.paired).level
  rw [Shape.parts, List.mem_cons, List.mem_map] at hu
  rcases hu with rfl | ⟨r, hmem, rfl⟩
  · have hheight := bracketHeight_within [] u (rest.flatMap fun r => r.1.symbol :: r.2) (d := 0) rfl
    have hsigns := signCount_le_within [] u (rest.flatMap fun r => r.1.symbol :: r.2) fun _ _ =>
      .inl (by simp [SignsOnly])
    rw [List.nil_append] at hheight hsigns
    unfold depthBound join
    omega
  · obtain ⟨rest₁, rest₂, rfl⟩ := List.append_of_mem hmem
    have he : join first (rest₁ ++ r :: rest₂) = (join first rest₁ ++ [r.1.symbol]) ++
        (r.2 ++ rest₂.flatMap fun r => r.1.symbol :: r.2) := by simp [join]
    have hbefore : (join first rest₁ ++ [r.1.symbol]).count '(' =
        (join first rest₁ ++ [r.1.symbol]).count ')' + 0 := by
      have hop : r.1.symbol ≠ '(' ∧ r.1.symbol ≠ ')' := by cases r.1 <;> decide
      have := level_join (hlevel hf) fun r' hr' => hlevel (hr r' (List.mem_append_left _ hr')).2.1
      simpa [List.count_singleton, hop] using this
    have hheight := bracketHeight_within _ r.2 (rest₂.flatMap fun r => r.1.symbol :: r.2) hbefore
    -- the part has no sign in front, so all its signs are within brackets
    have hsigns := signCount_le_within (join first rest₁ ++ [r.1.symbol]) r.2
      (rest₂.flatMap fun r => r.1.symbol :: r.2) fun i hi => .inr (by
        by_contra hnone
        have hself : (r.2.take i).rtakeWhile (· ≠ '(') = r.2.take i :=
          List.rtakeWhile_eq_self_iff.mpr fun c hc => by
            simpa using fun he : c = '(' => hnone (he ▸ hc)
        exact (hr r hmem).2.2 (beginsSigned_of_signsOnly (hself ▸ hi.2) hi.1))
    rw [← he] at hheight hsigns
    unfold depthBound
    omega

/-! What one evaluation leaves to those within it. -/

/-- No operator outside brackets has priority `k` or a lower one. -/
def OperatorsAbove (k : Nat) (text : List Char) : Prop :=
  ∀ op ∈ Place.start.ops text, k < op.priority

namespace Shape

variable {t u : List Char} {s : Shape} {k : Nat}

theorem spends_ofPlain (ho : Place.start.ops t = []) (hu : u ∈ (ofPlain t).parts) :
    OperatorsAbove 2 u ∧ depthBound u + 1 ≤ depthBound t ∨ depthBound u + 3 ≤ depthBound t := by
  unfold ofPlain at hu
  split at hu
  next c cs =>
    obtain rfl := List.mem_singleton.mp hu
    have hinner : Place.start.ops (c :: cs) = [] := by
      rw [Place.ops_cons, List.append_eq_nil_iff] at ho
      exact ho.2
    have hheight := bracketHeight_within ['-'] (c :: cs) [] (d := 0) rfl
    have hsigns := signCount_within ['-'] (c :: cs) [] fun _ _ => .inl (by decide)
    rw [List.append_nil, List.singleton_append] at hheight hsigns
    have hone : signCount ['-'] = 1 := by decide
    refine .inl ⟨by simp [OperatorsAbove, hinner], ?_⟩
    unfold depthBound
    omega
  next cs =>
    split at hu
    next hlast =>
      obtain rfl := List.mem_singleton.mp hu
      have hcs : cs.dropLast ++ [')'] = cs := List.dropLast_append_getLast? _ hlast
      have hheight := bracketHeight_within ['('] cs.dropLast [')'] (d := 1) rfl
      have hsigns := signCount_le_within ['('] cs.dropLast [')'] fun _ _ => .inl (by decide)
      rw [hcs, List.singleton_append] at hheight hsigns
      refine .inr ?_
      unfold depthBound
      omega
    next => exact absurd hu List.not_mem_nil
  next => exact absurd hu List.not_mem_nil

/-- A part either has only operators of a higher priority or is paid for by a bracket or a sign. -/
theorem spends (h : Shape.of t = .ok s) (hu : u ∈ s.parts) (hk : OperatorsAbove k t) (hle : k ≤ 2) :
    ∃ k' ≤ 2, OperatorsAbove k' u ∧ depthBound u + k + 1 ≤ depthBound t + k' := by
  have hstrip := depthBound_strip_le t
  have hout := outline_of_ofTrimmed h
  rw [OperatorsAbove, ← Place.ops_strip] at hk
  revert hout hstrip hk
  generalize Text.strip t = t'
  intro hk hstrip hout
  cases hout with
  | blank => exact absurd hu List.not_mem_nil
  | literal => exact absurd hu List.not_mem_nil
  | @chain first rest p hne hdiv =>
    obtain ⟨hf, hr⟩ := hdiv.segments
    obtain ⟨r, rest, rfl⟩ := List.exists_cons_of_ne_nil hne
    have hr0 : r.1.priority = p := (hr r (by simp)).1
    have hp : p ≤ 2 := hr0 ▸ (by cases r.1 <;> decide)
    have hlt : k < p := hr0 ▸ hk r.1 (by rw [Place.ops_join hdiv.parted]; simp)
    have hbound := hdiv.depthBound_le hu
    refine ⟨p, hp, ?_, by omega⟩
    rw [parts, List.mem_cons, List.mem_map] at hu
    rcases hu with rfl | ⟨r', hmem, rfl⟩
    · exact hf.higher
    · exact (hr r' hmem).2.1.higher
  | plain _ ho =>
    rcases spends_ofPlain ho hu with ⟨habove, hbound⟩ | hbound
    · exact ⟨2, Nat.le_refl 2, habove, by omega⟩
    · exact ⟨0, Nat.zero_le 2, fun op _ => priority_pos op, by omega⟩

end Shape

/-! Evaluations under way. -/

def evaluateUnlimited (text : List Char) : Except FormulaError Double :=
  evaluateWithin (text.length + 1) text

/-- The evaluation of `text` comes to its part `u`, as the parts before it have values. -/
def Calls (text u : List Char) : Prop :=
  ∃ s before after, Shape.of text = .ok s ∧ s.parts = before ++ u :: after ∧
    ∀ v ∈ before, ∃ x, evaluateUnlimited v = .ok x

section

variable {text u : List Char} {stack : List (List Char)} {k limit : Nat}

theorem Calls.exists_mem_parts (h : Calls text u) : ∃ s, Shape.of text = .ok s ∧ u ∈ s.parts := by
  obtain ⟨s, before, after, hs, hp, -⟩ := h
  exact ⟨s, hs, by simp [hp]⟩

theorem Calls.length_lt (h : Calls text u) : u.length < text.length := by
  obtain ⟨s, hs, hu⟩ := h.exists_mem_parts
  exact Shape.shrinks_of.length_lt hs u hu

theorem length_stack_le (h : List.IsChain Calls (text :: stack)) (hk : OperatorsAbove k text)
    (hle : k ≤ 2) : (text :: stack).length + k ≤ depthBound text := by
  induction stack generalizing text k with
  | nil =>
    have : 3 ≤ depthBound text := by unfold depthBound; omega
    rw [List.length_singleton]
    omega
  | cons u stack ih =>
    obtain ⟨hcall, hchain⟩ := List.isChain_cons_cons.mp h
    obtain ⟨s, hs, hu⟩ := hcall.exists_mem_parts
    obtain ⟨k', hle', hk', hspend⟩ := Shape.spends hs hu hk hle
    have := ih hchain hk' hle'
    rw [List.length_cons]
    omega

theorem evaluateUnlimited_not_nested (text : List Char) :
    evaluateUnlimited text ≠ .error .nestingTooDeep := by
  rw [evaluateUnlimited, ← evaluateVia_of]
  exact evaluateVia_not_nested Shape.shrinks_of (Nat.lt_succ_self _)

theorem evaluateWithin_eq_unlimited (h : evaluateWithin limit text ≠ .error .nestingTooDeep) :
    evaluateWithin limit text = evaluateUnlimited text := by
  have hu := evaluateUnlimited_not_nested text
  rw [evaluateUnlimited, ← evaluateVia_of] at hu ⊢
  rw [← evaluateVia_of] at h ⊢
  exact evaluateVia_agree h hu

theorem evaluateUnlimited_eq (text : List Char) :
    evaluateUnlimited text = (do (← Shape.of text).value evaluateUnlimited) := by
  conv_lhs => rw [evaluateUnlimited, evaluateWithin]
  cases hs : Shape.of text with
  | error e => rfl
  | ok s =>
    refine s.value_congr fun u hu => evaluateWithin_eq_unlimited ?_
    rw [← evaluateVia_of]
    exact evaluateVia_not_nested Shape.shrinks_of (Shape.shrinks_of.length_lt hs u hu)

/-- A limit is reached exactly if more evaluations than that come to be under way. -/
theorem nested_iff_exists_stack : evaluateWithin limit text = .error .nestingTooDeep ↔
    ∃ stack, List.IsChain Calls (text :: stack) ∧ limit < (text :: stack).length := by
  constructor
  · -- the part that is cut short is the next one on the stack
    intro h
    induction limit generalizing text with
    | zero => exact ⟨[], .singleton text, Nat.zero_lt_one⟩
    | succ limit ih =>
      cases hs : Shape.of text with
      | error e =>
        rw [evaluateWithin_succ, ← Shape.of, hs] at h
        obtain rfl := Except.error.inj h
        exact absurd hs (Shape.shrinks_of.not_nested text)
      | ok s =>
        obtain ⟨before, u, after, hp, hb, hu⟩ :=
          (evaluateWithin_eq_error_iff hs (by simp) (by simp)).mp h
        obtain ⟨stack, hchain, hlt⟩ := ih hu
        have hcall : Calls text u := ⟨s, before, after, hs, hp, fun v hv => by
          obtain ⟨x, hx⟩ := hb v hv
          have hne : evaluateWithin limit v ≠ .error .nestingTooDeep := by simp [hx]
          exact ⟨x, by rw [← evaluateWithin_eq_unlimited hne, hx]⟩⟩
        exact ⟨u :: stack, List.isChain_cons_cons.mpr ⟨hcall, hchain⟩, Nat.succ_lt_succ hlt⟩
  · -- each evaluation on the stack leaves one less to the next, and the last has none left
    rintro ⟨stack, hchain, hlt⟩
    induction stack generalizing text limit with
    | nil =>
      obtain rfl : limit = 0 := by simpa using hlt
      rfl
    | cons u stack ih =>
      cases limit with
      | zero => rfl
      | succ limit =>
        obtain ⟨⟨s, before, after, hs, hp, hb⟩, hchain⟩ := List.isChain_cons_cons.mp hchain
        have hu := ih hchain (Nat.lt_of_succ_lt_succ hlt)
        rw [evaluateWithin_eq_error_iff hs (by simp) (by simp), hp]
        by_contra hnot
        refine hnot (firstError_of_meets (fun v hv => ?_) (fun _ => hu) hnot)
        obtain ⟨x, hx⟩ := hb v hv
        exact ⟨x, derives_of_evaluateWithin hx⟩

end

/-- Each evaluation is one of a shorter text, and at most three for each level of brackets and one
for each sign are under way at once. A limit that allows for that changes nothing. -/
theorem depth_follows_nesting (text : List Char) :
    (∀ u, Calls text u → u.length < text.length) ∧
      (∀ stack, List.IsChain Calls (text :: stack) →
        (text :: stack).length ≤ 3 * (bracketHeight text + 1) + signCount text) ∧
      evaluateUnlimited text = (do (← Shape.of text).value evaluateUnlimited) ∧
      evaluateUnlimited text ≠ .error .nestingTooDeep ∧
      ∀ limit, (evaluateWithin limit text = evaluateUnlimited text ∨
          evaluateWithin limit text = .error .nestingTooDeep) ∧
        (evaluateWithin limit text = .error .nestingTooDeep ↔
          ∃ stack, List.IsChain Calls (text :: stack) ∧ limit < (text :: stack).length) ∧
        (evaluateWithin limit text = .error .nestingTooDeep →
          limit < 3 * (bracketHeight text + 1) + signCount text) := by
  have hbound (stack : List (List Char)) (h : List.IsChain Calls (text :: stack)) :
      (text :: stack).length ≤ depthBound text :=
    length_stack_le (k := 0) h (fun op _ => priority_pos op) (Nat.zero_le 2)
  refine ⟨fun _ h => h.length_lt, hbound, evaluateUnlimited_eq text,
    evaluateUnlimited_not_nested text, fun limit => ⟨?_, nested_iff_exists_stack, fun h => ?_⟩⟩
  · by_cases h : evaluateWithin limit text = .error .nestingTooDeep
    · exact .inr h
    · exact .inl (evaluateWithin_eq_unlimited h)
  · obtain ⟨stack, hchain, hlt⟩ := nested_iff_exists_stack.mp h
    exact Nat.lt_of_lt_of_le hlt (hbound stack hchain)

/-- One level of brackets and one sign allow for seven evaluations, and seven come to be under
way: of the sum, its product, the signed factor, the brackets, the sum within, its product and
a number. -/
theorem signed_brackets_nested :
    evaluateWithin 6 "-(1+2*3)*4+5".toList = .error .nestingTooDeep ∧
      3 * (bracketHeight "-(1+2*3)*4+5".toList + 1) + signCount "-(1+2*3)*4+5".toList = 7 ∧
      ∃ stack, List.IsChain Calls ("-(1+2*3)*4+5".toList :: stack) ∧ stack.length = 6 := by
  have hn : evaluateWithin 6 "-(1+2*3)*4+5".toList = .error .nestingTooDeep := by decide +kernel
  have hb :
      3 * (bracketHeight "-(1+2*3)*4+5".toList + 1) + signCount "-(1+2*3)*4+5".toList = 7 := by
    decide +kernel
  obtain ⟨-, hle, -, -, hlimit⟩ := depth_follows_nesting "-(1+2*3)*4+5".toList
  obtain ⟨stack, hchain, hlt⟩ := (hlimit 6).2.1.mp hn
  have hseven := hb ▸ hle stack hchain
  rw [List.length_cons] at hlt hseven
  exact ⟨hn, hb, stack, hchain, by omega⟩

end FormulaEntry
