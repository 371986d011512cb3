import FormulaEntry.Proofs.Formula.Survey

/-! What is left between the operators a text is split at. A segment is scanned by itself, and what
stood before it no longer counts: a minus sign could come to stand in front of everything, the mark
of an exponent could lose its digit. Neither happens next to an operator of the lowest priority. The
scan of a segment finds the operators that the whole text has there, no others, and they bind more
tightly than those the text was split at. -/

namespace FormulaEntry

/-- Where the segments begin and end: up to the first match, from each to the next one, and
behind the last. -/
def spans (start stop : Nat) : List Match → List (Nat × Nat)
  | [] => [(start, stop)]
  | m :: ms => (start, m.position) :: spans (m.position + 1) stop ms

/-- The match in a text that begins `n` characters earlier. -/
def Match.shift (n : Nat) (m : Match) : Match := { m with position := n + m.position }

/-- The parts that a chain is cut into are the segments. -/
theorem cut_eq_spans {ms : List Match} (hp : ms.Pairwise (·.position < ·.position))
    (text : List Char) {start : Nat} (hs : ∀ m ∈ ms, start ≤ m.position) :
    (cut start (text.drop start) ms).1 :: (cut start (text.drop start) ms).2.map Prod.snd =
      (spans start text.length ms).map fun s => text.extract s.1 s.2 := by
  induction ms generalizing start with
  | nil => simp [cut, spans]
  | cons m ms ih =>
    obtain ⟨hm, hp⟩ := List.pairwise_cons.mp hp
    have hle := hs m List.mem_cons_self
    have hdrop : (text.drop start).drop (m.position + 1 - start) = text.drop (m.position + 1) := by
      rw [List.drop_drop, show start + (m.position + 1 - start) = m.position + 1 by omega]
    simp only [cut, spans, List.map_cons, hdrop, ← ih hp hm]

namespace Place

variable {p : Place} {m : Match}

theorem operators_shift (p : Place) (n i : Nat) (text : List Char) :
    (p.operators i text).map (Match.shift n) = p.operators (n + i) text := by
  induction text generalizing p i with
  | nil => rfl
  | cons c cs ih =>
    rw [operators_cons, operators_cons, List.map_append, ih, Nat.add_assoc]
    cases p.operator? c <;> rfl

theorem position_of_mem_operators {i : Nat} {text : List Char} (h : m ∈ p.operators i text) :
    i ≤ m.position ∧ m.position < i + text.length := by
  obtain ⟨before, after, rfl, hi, -⟩ := mem_operators.mp h
  rw [List.length_append, List.length_cons]
  omega

theorem mem_operators_part (p : Place) (before part after : List Char) :
    m ∈ (p.after before).operators before.length part ↔
      m ∈ p.operators 0 (before ++ (part ++ after)) ∧
        before.length ≤ m.position ∧ m.position < before.length + part.length := by
  rw [operators_append, operators_append, Nat.zero_add, List.mem_append, List.mem_append]
  constructor
  · intro hm
    exact ⟨.inr (.inl hm), position_of_mem_operators hm⟩
  · -- an operator met before the part or behind it has its position outside
    rintro ⟨hm | hm | hm, hle, hlt⟩
    · have := position_of_mem_operators hm
      omega
    · exact hm
    · have := position_of_mem_operators hm
      omega

/-- A span is that of a segment, which is the first one or begins right behind an operator. -/
theorem Parted.exists_of_mem_spans {q : Operator → Prop} {first : List Char}
    {rest : List (Operator × List Char)} (h : p.Parted q first rest) {n start stop : Nat}
    (hs : (start, stop) ∈ spans n (n + (join first rest).length) (marks n first rest)) :
    ∃ before part after, join first rest = before ++ (part ++ after) ∧ start = n + before.length ∧
      stop = start + part.length ∧
      (before = [] ∧ part = first ∨ p.after before = resumed ∧ ∃ r ∈ rest, part = r.2) := by
  induction rest generalizing p first n with
  | nil =>
    obtain ⟨rfl, rfl⟩ := Prod.mk.inj (List.mem_singleton.mp hs)
    exact ⟨[], first, [], by simp [join], rfl, by simp [join], .inl ⟨rfl, rfl⟩⟩
  | cons r rest ih =>
    obtain ⟨op, next⟩ := r
    rcases List.mem_cons.mp hs with hs | hs
    · obtain ⟨rfl, rfl⟩ := Prod.mk.inj hs
      exact ⟨[], first, op.symbol :: join next rest, join_cons .., rfl, rfl, .inl ⟨rfl, rfl⟩⟩
    · have hlength : n + (join first ((op, next) :: rest)).length =
          n + first.length + 1 + (join next rest).length := by
        simp only [join_cons, List.length_append, List.length_cons]
        omega
      rw [hlength] at hs
      obtain ⟨before, part, after, he, hstart, hstop, hpart⟩ :=
        ih (n := n + first.length + 1) h.2.2.2 hs
      refine ⟨first ++ op.symbol :: before, part, after, by simp [join_cons, he], ?_, hstop,
        .inr ?_⟩
      · rw [List.length_append, List.length_cons]
        omega
      · -- the pass begins anew behind the joint, so a segment stands there as it does in the rest
        rw [after_append, after_cons, h.next]
        rcases hpart with ⟨rfl, rfl⟩ | ⟨hp, r, hr, rfl⟩
        · exact ⟨rfl, (op, part), List.mem_cons_self, rfl⟩
        · exact ⟨hp, r, List.mem_cons_of_mem _ hr, rfl⟩

end Place

theorem Segment.findOperators {k : Nat} (hk : 1 ≤ k) {text : List Char} (h : Segment k text) :
    findOperators text = .ok (Place.start.operators 0 text) := by
  -- two priorities are all there are, so what is above one of them is of the other
  have htwo : ∀ m ∈ Place.start.operators 0 text, m.operator.priority = 2 := by
    intro m hm
    have hlt := h.higher m.operator (Place.operator_mem_ops hm)
    have hle : m.operator.priority ≤ 2 := by cases m.operator <;> decide
    omega
  refine findOperators_eq_ok_iff.mpr ⟨h.paired, (List.filter_eq_self.mpr ?_).symm⟩
  intro m hm
  obtain ⟨m', hm', he⟩ := exists_priority_eq_lowest (List.ne_nil_of_mem hm)
  rw [beq_iff_eq, ← he, htwo m hm, htwo m' hm']

namespace Divided

variable {k : Nat} {first : List Char} {rest : List (Operator × List Char)}

theorem priority_of_mem_marks (h : Divided k first rest) {m : Match} (hm : m ∈ marks 0 first rest) :
    m.operator.priority = k := by
  rw [← Place.filter_operators_join h.parted 0] at hm
  simpa using (List.mem_filter.mp hm).2

/-- Scanned on its own a segment has the operators that the text has there. -/
theorem scan_segment (h : Divided k first rest) {start stop : Nat}
    (hs : (start, stop) ∈ spans 0 (join first rest).length (marks 0 first rest)) :
    Segment k ((join first rest).extract start stop) ∧
      ∀ m, m ∈ Place.start.operators start ((join first rest).extract start stop) ↔
        m ∈ Place.start.operators 0 (join first rest) ∧ start ≤ m.position ∧ m.position < stop := by
  rw [← Nat.zero_add (join first rest).length] at hs
  obtain ⟨before, part, after, he, hstart, rfl, hpart⟩ := h.parted.exists_of_mem_spans hs
  obtain rfl : start = before.length := hstart.trans (Nat.zero_add _)
  have hextract : (join first rest).extract before.length (before.length + part.length) = part := by
    simp [he]
  rw [hextract]
  suffices hread : Segment k part ∧ Place.start.operators before.length part =
      (Place.start.after before).operators before.length part by
    refine ⟨hread.1, fun m => ?_⟩
    rw [hread.2, he]
    exact Place.mem_operators_part ..
  rcases hpart with ⟨rfl, rfl⟩ | ⟨hp, r, hr, rfl⟩
  · exact ⟨h.segments.1, rfl⟩
  · obtain ⟨hk, hhigher⟩ := h.higher.2 r hr
    rw [hp]
    exact ⟨(h.segments.2 r hr).2.1, (Place.operators_start_eq (hk ▸ priority_pos r.1) hhigher _).1⟩

end Divided

theorem ofLowestPriority_shift (n : Nat) (ms : List Match) :
    ofLowestPriority (ms.map (Match.shift n)) = (ofLowestPriority ms).map (Match.shift n) := by
  have hlowest : lowestPriority (ms.map (Match.shift n)) = lowestPriority ms := List.foldl_map
  rw [ofLowestPriority, hlowest, List.filter_map]
  rfl

theorem findOperators_minus (text : List Char) :
    findOperators ('-' :: text) = (findOperators text).map (List.map (Match.shift 1)) := by
  have hnext : Place.start.next '-' = .start := by decide
  have hnone : Place.start.operator? '-' = none := rfl
  have hops : Place.start.operators 0 ('-' :: text) =
      (Place.start.operators 0 text).map (Match.shift 1) := by
    rw [Place.operators_cons, hnext, hnone, Place.operators_shift]
    rfl
  have hadmits : Place.start.Admits ('-' :: text) ↔ Place.start.Admits text := by
    rw [Place.admits_cons, hnext]
    simp
  simp only [findOperators_eq, hadmits, Place.after_cons, hnext, hops, ofLowestPriority_shift]
  split
  · rfl
  · split <;> rfl

/-- A text split at operators of priority `k` falls into segments with paired brackets, and these
are what is evaluated. The scan of a segment finds the other operators that the text has there, all
of them above `k`. A text whose negation has no operators has none itself. -/
theorem segments_scanned_alike (text : List Char) :
    (∀ ms, findOperators text = .ok ms → ms ≠ [] →
      ∃ k, (∀ m ∈ ms, m.operator.priority = k) ∧
        (cut 0 text ms).1 :: (cut 0 text ms).2.map Prod.snd =
          (spans 0 text.length ms).map (fun s => text.extract s.1 s.2) ∧
        ∀ start stop, (start, stop) ∈ spans 0 text.length ms →
          Balanced (text.extract start stop) ∧
          ∃ found, findOperators (text.extract start stop) = .ok found ∧
            (∀ m ∈ found, k < m.operator.priority) ∧
            found.Pairwise (·.position < ·.position) ∧
            ∀ m, m ∈ found.map (Match.shift start) ↔
              m ∉ ms ∧ m.StandsIn text ∧ start ≤ m.position ∧ m.position < stop) ∧
      (findOperators ('-' :: text) = .ok [] → findOperators text = .ok []) := by
  constructor
  · intro ms h hne
    have hp := (findOperators_eq_ok_iff_found.mp h).2.1
    obtain ⟨k, first, rest, hrest, rfl, rfl, hdiv⟩ := exists_divided h hne
    obtain ⟨r, hr⟩ := List.exists_mem_of_ne_nil rest hrest
    have hk : 1 ≤ k := (hdiv.higher.2 r hr).1 ▸ priority_pos r.1
    refine ⟨k, fun m hm => hdiv.priority_of_mem_marks hm,
      cut_eq_spans hp _ fun m _ => Nat.zero_le _, ?_⟩
    intro start stop hs
    obtain ⟨hseg, hmem⟩ := hdiv.scan_segment hs
    have hhigher {i : Nat} {m : Match}
        (hm : m ∈ Place.start.operators i ((join first rest).extract start stop)) :
        k < m.operator.priority := hseg.higher m.operator (Place.operator_mem_ops hm)
    refine ⟨paired_iff_balanced.mp hseg.paired, _, hseg.findOperators hk, fun m hm => hhigher hm,
      Place.pairwise_operators _ _ _, fun m => ?_⟩
    rw [Place.operators_shift, Nat.add_zero, ← Place.mem_operators_start hdiv.paired.1, ← hmem]
    refine ⟨fun hm => ⟨fun hmark => ?_, hm⟩, And.right⟩
    exact Nat.ne_of_gt (hhigher hm) (hdiv.priority_of_mem_marks hmark)
  · intro h
    rw [findOperators_minus] at h
    cases hf : findOperators text with
    | error e => simp [hf, Except.map] at h
    | ok ms => simpa [hf, Except.map] using h

/-- Between the two joints the bracketed sum and the sign of the exponent are passed over as they
are in the whole text, and the blank in front makes no difference. -/
theorem quotient_between_joints :
    findOperators "-2e-1*3 - (4+5)/6e+2 + 7".toList = .ok [⟨.sub, 8⟩, ⟨.add, 21⟩] ∧
      (9, 21) ∈ spans 0 24 [⟨.sub, 8⟩, ⟨.add, 21⟩] ∧ Balanced " (4+5)/6e+2 ".toList ∧
      (∃ found, findOperators " (4+5)/6e+2 ".toList = .ok found ∧
        (∀ m ∈ found, 1 < m.operator.priority) ∧
        ∀ m, m ∈ found.map (Match.shift 9) ↔ m ∉ [(⟨.sub, 8⟩ : Match), ⟨.add, 21⟩] ∧
          m.StandsIn "-2e-1*3 - (4+5)/6e+2 + 7".toList ∧ 9 ≤ m.position ∧ m.position < 21) ∧
      findOperators "-(4+5)".toList = .ok [] ∧ findOperators "(4+5)".toList = .ok [] := by
  have hscan : findOperators "-2e-1*3 - (4+5)/6e+2 + 7".toList = .ok [⟨.sub, 8⟩, ⟨.add, 21⟩] := by
    decide
  have hspan : (9, 21) ∈ spans 0 24 [⟨.sub, 8⟩, ⟨.add, 21⟩] := by decide
  have hminus : findOperators "-(4+5)".toList = .ok [] := by decide
  obtain ⟨k, hk, -, hsegments⟩ := (segments_scanned_alike _).1 _ hscan (by simp)
  obtain rfl : 1 = k := hk ⟨.sub, 8⟩ (by simp)
  obtain ⟨hb, found, hf, hhigher, -, hmem⟩ := hsegments 9 21 hspan
  exact ⟨hscan, hspan, hb, ⟨found, hf, hhigher, hmem⟩, hminus,
    (segments_scanned_alike "(4+5)".toList).2 hminus⟩

end FormulaEntry
