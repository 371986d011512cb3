import FormulaEntry.Formula.Shape
import FormulaEntry.Proofs.Formula.Operators

/-! Splitting a text at its operators of lowest priority. A split is written as the
text before the first of them and, for each, the text up to the next one. Cutting
changes what stands before a segment, and with it where a minus sign could be read
as a sign; `operators_leading` shows that no segment is read differently for that. Main
statements: `exists_divided`, what the scan's answer says of the text, and
`Divided.findOperators_join`, that a divided text is split where it was joined. -/

namespace FormulaEntry

def join (first : List Char) (rest : List (Operator × List Char)) : List Char :=
  first ++ rest.flatMap fun r => r.1.symbol :: r.2

/-- The places of the joints, when the text begins at `position`. -/
def marks (position : Nat) (first : List Char) : List (Operator × List Char) → List Match
  | [] => []
  | (op, next) :: rest =>
    ⟨op, position + first.length⟩ :: marks (position + first.length + 1) next rest

theorem join_cons (first : List Char) (r : Operator × List Char)
    (rest : List (Operator × List Char)) :
    join first (r :: rest) = first ++ r.1.symbol :: join r.2 rest := by
  simp [join]

theorem cut_join (i : Nat) (first : List Char) (rest : List (Operator × List Char)) :
    cut i (join first rest) (marks i first rest) = (first, rest) := by
  induction rest generalizing i first with
  | nil => simp [cut, marks, join]
  | cons r rest ih =>
    have hd : (join first (r :: rest)).drop (first.length + 1) = join r.2 rest := by
      rw [join_cons, ← List.drop_drop, List.drop_left, List.drop_one, List.tail_cons]
    have ht : (join first (r :: rest)).take first.length = first := by
      rw [join_cons, List.take_left]
    simp only [marks, cut, Nat.add_sub_cancel_left,
      show i + first.length + 1 - i = first.length + 1 by omega, hd, ht, ih]

namespace Place

variable {p : Place} {q : Operator → Prop}

/-- A split at operators of the kind `q`, each of which is one where it stands, and
none of which is left within a segment. -/
def Parted (q : Operator → Prop) (p : Place) (first : List Char) :
    List (Operator × List Char) → Prop
  | [] => ∀ op ∈ p.ops first, ¬q op
  | (op, next) :: rest =>
    (∀ op ∈ p.ops first, ¬q op) ∧ (p.after first).operator? op.symbol = some op ∧ q op ∧
      Parted q resumed next rest

theorem exists_parted (q : Operator → Prop) (p : Place) (text : List Char) :
    ∃ first rest, text = join first rest ∧ p.Parted q first rest := by
  induction text generalizing p with
  | nil => exact ⟨[], [], rfl, by simp [Parted]⟩
  | cons c cs ih =>
    obtain ⟨first, rest, rfl, h⟩ := ih (p.next c)
    by_cases hq : ∃ op, p.operator? c = some op ∧ q op
    · obtain ⟨op, ho, hq⟩ := hq
      obtain rfl := (operator?_eq_some.mp ho).1
      rw [next_of_operator? ho] at h
      exact ⟨[], (op, first) :: rest, by simp [join], by simpa [Parted, ho, hq] using h⟩
    · have hc : ∀ op ∈ (p.operator? c).toList, ¬q op := fun op hop hqo =>
        hq ⟨op, by simpa using hop, hqo⟩
      refine ⟨c :: first, rest, rfl, ?_⟩
      cases rest with
      | nil =>
        intro op hop
        rcases List.mem_append.mp hop with hop | hop
        · exact hc op hop
        · exact h op hop
      | cons r rest =>
        obtain ⟨hf, hr⟩ := h
        refine ⟨fun op hop => ?_, hr⟩
        rcases List.mem_append.mp hop with hop | hop
        · exact hc op hop
        · exact hf op hop

theorem Parted.first {first : List Char} {rest : List (Operator × List Char)}
    (h : p.Parted q first rest) : ∀ op ∈ p.ops first, ¬q op := by
  cases rest with
  | nil => exact h
  | cons r rest => exact h.1

theorem Parted.rest {first : List Char} {rest : List (Operator × List Char)}
    (h : p.Parted q first rest) : ∀ r ∈ rest, q r.1 ∧ ∀ op ∈ resumed.ops r.2, ¬q op := by
  induction rest generalizing p first with
  | nil => simp
  | cons r rest ih =>
    intro r' hr'
    rcases List.mem_cons.mp hr' with rfl | hr'
    · exact ⟨h.2.2.1, h.2.2.2.first⟩
    · exact ih h.2.2.2 r' hr'

theorem Parted.next {first : List Char} {r : Operator × List Char}
    {rest : List (Operator × List Char)} (h : p.Parted q first (r :: rest)) :
    (p.after first).next r.1.symbol = resumed :=
  next_of_operator? h.2.1

theorem Parted.depth {first : List Char} {r : Operator × List Char}
    {rest : List (Operator × List Char)} (h : p.Parted q first (r :: rest)) :
    (p.after first).depth = 0 :=
  (operator?_eq_some.mp h.2.1).2.1

theorem filter_operators_join [DecidablePred q] {first : List Char}
    {rest : List (Operator × List Char)} (h : p.Parted q first rest) (i : Nat) :
    (p.operators i (join first rest)).filter (fun m => q m.operator) = marks i first rest := by
  induction rest generalizing p i first with
  | nil =>
    refine List.filter_eq_nil_iff.mpr fun m hm => ?_
    rw [join, List.flatMap_nil, List.append_nil] at hm
    simpa using h m.operator (operator_mem_ops hm)
  | cons r rest ih =>
    obtain ⟨hf, ho, hq, hr⟩ := h
    have hn : (p.operators i first).filter (fun m => q m.operator) = [] :=
      List.filter_eq_nil_iff.mpr fun m hm => by simpa using hf m.operator (operator_mem_ops hm)
    rw [join_cons, operators_append, operators_cons, next_of_operator? ho, ho, List.filter_append,
      hn, List.nil_append, List.filter_append, ih hr]
    simp [hq, marks]

theorem ops_join {first : List Char} {rest : List (Operator × List Char)}
    (h : p.Parted q first rest) :
    p.ops (join first rest) = p.ops first ++ rest.flatMap fun r => r.1 :: resumed.ops r.2 := by
  induction rest generalizing p first with
  | nil => simp [join]
  | cons r rest ih =>
    rw [join_cons, ops_append, ops_cons, h.next, h.2.1, ih h.2.2.2]
    simp

/-! Brackets are counted without regard to anything else. -/

theorem depth_after_congr {p p' : Place} (h : p.depth = p'.depth) (text : List Char) :
    (p.after text).depth = (p'.after text).depth := by
  induction text generalizing p p' with
  | nil => exact h
  | cons c cs ih => exact ih (by simp only [Place.next, h])

theorem admits_congr {p p' : Place} (h : p.depth = p'.depth) (text : List Char) :
    p.Admits text ↔ p'.Admits text := by
  induction text generalizing p p' with
  | nil => exact Iff.rfl
  | cons c cs ih =>
    have hnext : (p.next c).depth = (p'.next c).depth := by simp only [Place.next, h]
    rw [admits_cons, admits_cons, h, ih hnext]

theorem paired_of_depth (hd : p.depth = 0) {text : List Char} (ha : p.Admits text)
    (he : (p.after text).depth = 0) : Paired text :=
  ⟨(admits_congr hd text).mp ha, (depth_after_congr hd text).symm.trans he⟩

theorem Parted.paired {first : List Char} {rest : List (Operator × List Char)}
    (h : p.Parted q first rest) (hd : p.depth = 0) (ha : p.Admits (join first rest))
    (he : (p.after (join first rest)).depth = 0) :
    Paired first ∧ ∀ r ∈ rest, Paired r.2 := by
  induction rest generalizing p first with
  | nil =>
    rw [join, List.flatMap_nil, List.append_nil] at ha he
    exact ⟨paired_of_depth hd ha he, by simp⟩
  | cons r rest ih =>
    rw [join_cons, admits_append, admits_cons, h.next] at ha
    rw [join_cons, after_append, after_cons, h.next] at he
    obtain ⟨hn, hr⟩ := ih h.2.2.2 rfl ha.2.2 he
    refine ⟨paired_of_depth hd ha.1 h.depth, fun r' hr' => ?_⟩
    rcases List.mem_cons.mp hr' with rfl | hr'
    · exact hn
    · exact hr r' hr'

end Place

/-- Whether a text begins with a minus sign, blanks apart. -/
def BeginsSigned (text : List Char) : Prop := (Text.stripLeft text).head? = some '-'

namespace Place

/-- Without a minus operator to be read as a sign, it does not matter whether an operand
is still to begin. Blanks change nothing, and after anything else it has begun. -/
theorem operators_leading {x : NumberState} (hx : x ≠ .marked) {text : List Char}
    (h : .sub ∉ (Place.mk 0 false x).ops text) (i : Nat) :
    (Place.mk 0 true x).operators i text = (Place.mk 0 false x).operators i text ∧
      ¬BeginsSigned text := by
  induction text generalizing x i with
  | nil => exact ⟨rfl, by simp [BeginsSigned, Text.stripLeft]⟩
  | cons c cs ih =>
    rw [ops_cons, List.mem_append, not_or] at h
    have hm : c ≠ '-' := by
      rintro rfl
      refine h.1 ?_
      have : (Place.mk 0 false x).operator? '-' = some .sub :=
        operator?_eq_some.mpr ⟨rfl, rfl, by simp, fun hh => hx hh.2⟩
      simp [this]
    have ho : (Place.mk 0 true x).operator? c = (Place.mk 0 false x).operator? c := by
      simp [operator?, hm]
    rw [operators_cons, operators_cons, ho]
    -- behind a blank the operand has still to begin, anything else begins it
    by_cases hb : Text.isBlank c = true
    · have hc : c ≠ 'e' ∧ c ≠ 'E' ∧ c ≠ '(' ∧ c ≠ ')' := by
        refine ⟨?_, ?_, ?_, ?_⟩ <;> rintro rfl <;> revert hb <;> decide
      have ht : (Place.mk 0 true x).next c = ⟨0, true, x.next c⟩ := by
        simp [next, hb, hc]
      have hf : (Place.mk 0 false x).next c = ⟨0, false, x.next c⟩ := by
        simp [next, hc]
      have hx' : x.next c ≠ .marked := by
        unfold NumberState.next
        split
        · simp
        · simp [hc]
      rw [hf] at h
      obtain ⟨he, hs⟩ := ih hx' h.2 (i + 1)
      rw [ht, hf, he]
      refine ⟨rfl, ?_⟩
      simpa [BeginsSigned, Text.stripLeft, List.dropWhile_cons, hb] using hs
    · have hn : (Place.mk 0 true x).next c = (Place.mk 0 false x).next c := by
        simp [next, hb, hm]
      rw [hn]
      refine ⟨rfl, ?_⟩
      simp [BeginsSigned, Text.stripLeft, hb, hm]

end Place

theorem priority_pos (op : Operator) : 1 ≤ op.priority := by cases op <;> decide

/-- Behind an operator only a minus operator would be read differently on its own, and that one
does not stand between operators of priority `k`. -/
theorem Place.operators_start_eq {k : Nat} (hk : 1 ≤ k) {text : List Char}
    (h : ∀ op ∈ Place.resumed.ops text, k < op.priority) (i : Nat) :
    Place.start.operators i text = Place.resumed.operators i text ∧ ¬BeginsSigned text := by
  have hsub : Operator.sub ∉ Place.resumed.ops text := fun hm => by
    have : k < 1 := h _ hm
    omega
  exact Place.operators_leading (x := .plain) (by decide) hsub i

/-- A text that can stand next to operators of priority `k`. -/
structure Segment (k : Nat) (text : List Char) : Prop where
  paired : Paired text
  higher : ∀ op ∈ Place.start.ops text, k < op.priority

/-- No segment next to operators of priority `k` has a minus sign in front of it, and
none is read differently on its own. -/
theorem segment_of_resumed {k : Nat} (hk : 1 ≤ k) {text : List Char} (hp : Paired text)
    (h : ∀ op ∈ Place.resumed.ops text, k < op.priority) :
    Segment k text ∧ ¬BeginsSigned text := by
  obtain ⟨he, hs⟩ := Place.operators_start_eq hk h 0
  refine ⟨⟨hp, fun op hop => h op ?_⟩, hs⟩
  rw [← Place.map_operator_operators _ 0] at hop ⊢
  exact he ▸ hop

/-- A text that is cut at every operator of priority `k`, and has none of a lower one. -/
structure Divided (k : Nat) (first : List Char) (rest : List (Operator × List Char)) : Prop where
  parted : Place.start.Parted (fun op => op.priority = k) first rest
  lowest : ∀ op ∈ Place.start.ops (join first rest), k ≤ op.priority
  paired : Paired (join first rest)

namespace Divided

variable {k : Nat} {first : List Char} {rest : List (Operator × List Char)}

theorem higher (h : Divided k first rest) :
    (∀ op ∈ Place.start.ops first, k < op.priority) ∧
      ∀ r ∈ rest, r.1.priority = k ∧ ∀ op ∈ Place.resumed.ops r.2, k < op.priority := by
  have hlt : ∀ op ∈ Place.start.ops (join first rest), op.priority ≠ k → k < op.priority :=
    fun op hop hne => Nat.lt_of_le_of_ne (h.lowest op hop) (Ne.symm hne)
  rw [Place.ops_join h.parted] at hlt
  refine ⟨fun op hop => hlt op (List.mem_append_left _ hop) (h.parted.first op hop), fun r hr => ?_⟩
  obtain ⟨hq, hn⟩ := h.parted.rest r hr
  refine ⟨hq, fun op hop => hlt op (List.mem_append_right _ ?_) (hn op hop)⟩
  exact List.mem_flatMap.mpr ⟨r, hr, List.mem_cons_of_mem _ hop⟩

theorem segments (h : Divided k first rest) :
    Segment k first ∧ ∀ r ∈ rest, r.1.priority = k ∧ Segment k r.2 ∧ ¬BeginsSigned r.2 := by
  obtain ⟨hpf, hpr⟩ := h.parted.paired rfl h.paired.1 h.paired.2
  obtain ⟨hf, hrest⟩ := h.higher
  refine ⟨⟨hpf, hf⟩, fun r hr => ?_⟩
  obtain ⟨hq, hh⟩ := hrest r hr
  exact ⟨hq, segment_of_resumed (hq ▸ priority_pos r.1) (hpr r hr) hh⟩

theorem findOperators_join (h : Divided k first rest) (hne : rest ≠ []) :
    findOperators (join first rest) = .ok (marks 0 first rest) := by
  refine findOperators_eq_ok_iff.mpr ⟨h.paired, ?_⟩
  have hk : lowestPriority (Place.start.operators 0 (join first rest)) = k := by
    obtain ⟨r, rest', rfl⟩ := List.exists_cons_of_ne_nil hne
    have hm :
        (⟨r.1, first.length⟩ : Match) ∈ Place.start.operators 0 (join first (r :: rest')) := by
      have : (⟨r.1, first.length⟩ : Match) ∈ marks 0 first (r :: rest') := by simp [marks]
      rw [← Place.filter_operators_join h.parted 0] at this
      exact (List.mem_filter.mp this).1
    have hmin := lowestPriority_le hm
    obtain ⟨m, hm', he⟩ := exists_priority_eq_lowest (List.ne_nil_of_mem hm)
    have hmk := h.lowest m.operator (Place.operator_mem_ops hm')
    have hrk : r.1.priority = k := (h.parted.rest r (by simp)).1
    exact Nat.le_antisymm (hrk ▸ hmin) (he ▸ hmk)
  rw [ofLowestPriority, hk, ← Place.filter_operators_join h.parted 0]
  congr

end Divided

theorem exists_divided {text : List Char} {ms : List Match} (h : findOperators text = .ok ms)
    (hne : ms ≠ []) :
    ∃ k first rest, rest ≠ [] ∧ text = join first rest ∧ ms = marks 0 first rest ∧
      Divided k first rest := by
  obtain ⟨hpair, rfl⟩ := findOperators_eq_ok_iff.mp h
  obtain ⟨k, hk⟩ : ∃ k, lowestPriority (Place.start.operators 0 text) = k := ⟨_, rfl⟩
  have hle : ∀ op ∈ Place.start.ops text, k ≤ op.priority := by
    intro op hop
    rw [← Place.map_operator_operators Place.start 0] at hop
    obtain ⟨m, hm, rfl⟩ := List.mem_map.mp hop
    exact hk ▸ lowestPriority_le hm
  obtain ⟨first, rest, rfl, hp⟩ := Place.exists_parted (fun op => op.priority = k) Place.start text
  have hms : ofLowestPriority (Place.start.operators 0 (join first rest)) = marks 0 first rest := by
    rw [ofLowestPriority, hk, ← Place.filter_operators_join hp 0]
    congr
  refine ⟨k, first, rest, ?_, rfl, hms, hp, hle, hpair⟩
  rintro rfl
  exact hne hms

namespace Place

/-- A text which, read from the place `p`, leaves the brackets as they were and holds
only operators above priority `k`, and behind which an operator would be one. -/
structure Reads (p : Place) (k : Nat) (text : List Char) : Prop where
  admits : p.Admits text
  depth : (p.after text).depth = p.depth
  leading : (p.after text).leading = false
  number : (p.after text).number ≠ .marked
  higher : ∀ op ∈ p.ops text, k < op.priority

theorem Reads.operator? {p : Place} {k : Nat} {text : List Char} (h : p.Reads k text)
    (hd : p.depth = 0) (op : Operator) : (p.after text).operator? op.symbol = some op :=
  operator?_eq_some.mpr ⟨rfl, h.depth.trans hd, by simp [h.leading], fun hh => h.number hh.2⟩

/-- The place behind a joined text is the place behind its last segment. -/
theorem reads_join {p : Place} {k : Nat} (hp : p.depth = 0) {first : List Char}
    {rest : List (Operator × List Char)} (hf : p.Reads k first)
    (hr : ∀ r ∈ rest, r.1.priority = k ∧ resumed.Reads k r.2) :
    p.Parted (fun op => op.priority = k) first rest ∧ p.Admits (join first rest) ∧
      (p.after (join first rest)).depth = 0 := by
  induction rest generalizing p first with
  | nil =>
    rw [join, List.flatMap_nil, List.append_nil]
    exact ⟨fun op hop => Nat.ne_of_gt (hf.higher op hop), hf.admits, hf.depth.trans hp⟩
  | cons r rest ih =>
    obtain ⟨hrk, hrr⟩ := hr r (by simp)
    have ho := hf.operator? hp r.1
    obtain ⟨hi, ha, hd⟩ := ih rfl hrr fun r' hr' => hr r' (List.mem_cons_of_mem _ hr')
    have hc : r.1.symbol ≠ ')' := by cases r.1 <;> decide
    rw [join_cons, admits_append, admits_cons, after_append, after_cons, next_of_operator? ho]
    exact ⟨⟨fun op hop => Nat.ne_of_gt (hf.higher op hop), ho, hrk, hi⟩,
      ⟨hf.admits, fun hh => hc hh.1, ha⟩, hd⟩

end Place

theorem divided_of_reads {k : Nat} {first : List Char} {rest : List (Operator × List Char)}
    (hf : Place.start.Reads k first)
    (hr : ∀ r ∈ rest, r.1.priority = k ∧ Place.resumed.Reads k r.2) : Divided k first rest := by
  obtain ⟨hp, ha, hd⟩ := Place.reads_join rfl hf hr
  refine ⟨hp, fun op hop => ?_, ha, hd⟩
  rw [Place.ops_join hp] at hop
  rcases List.mem_append.mp hop with hop | hop
  · exact Nat.le_of_lt (hf.higher op hop)
  · obtain ⟨r, hmem, hop⟩ := List.mem_flatMap.mp hop
    obtain ⟨hrk, hrr⟩ := hr r hmem
    rcases List.mem_cons.mp hop with rfl | hop
    · exact Nat.le_of_eq hrk.symm
    · exact Nat.le_of_lt (hrr.higher op hop)

end FormulaEntry
