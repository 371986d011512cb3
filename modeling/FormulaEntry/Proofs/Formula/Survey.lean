import FormulaEntry.Proofs.Formula.Brackets
import Mathlib.Data.List.Perm.Basic
import Mathlib.Order.WellFounded

/-! Where operators stand. The scan goes through a text once and keeps count of brackets, of signs
and of exponents; here its answer is read off the text as a whole. A character is an operator by
what is written before it, and of the operators those of the lowest priority are the answer, in
the order of their positions. `Survey` leaves the scan no choice: it has one answer for a text. -/

namespace FormulaEntry

def SignsOnly (text : List Char) : Prop := ∀ c ∈ text, Text.isBlank c = true ∨ c = '-'

instance (text : List Char) : Decidable (SignsOnly text) :=
  List.decidableBAll _ text

/-- The text ends in a digit or a point and an `e` right behind it. -/
def EndsMarked (text : List Char) : Prop :=
  ∃ before c mark, text = before ++ [c, mark] ∧ (Text.isDigit c = true ∨ c = '.') ∧
    (mark = 'e' ∨ mark = 'E')

/-- The operator is where the match says. The brackets before it pair up, and it is neither the
sign of an operand nor that of an exponent. -/
structure Match.StandsIn (text : List Char) (m : Match) : Prop where
  symbol : text[m.position]? = some m.operator.symbol
  outside : Balanced (text.take m.position)
  unsigned : ¬(m.operator = .sub ∧ SignsOnly (text.take m.position))
  unmarked : ¬((m.operator = .add ∨ m.operator = .sub) ∧ EndsMarked (text.take m.position))

/-- No operator of the text has a lower priority. -/
structure Match.LeadsIn (text : List Char) (m : Match) : Prop where
  stands : m.StandsIn text
  lowest : ∀ m' : Match, m'.StandsIn text → m.operator.priority ≤ m'.operator.priority

theorem Match.StandsIn.exists_leadsIn {text : List Char} {m : Match} (h : m.StandsIn text) :
    ∃ m' : Match, m'.LeadsIn text := by
  obtain ⟨m', hs, hl⟩ :=
    (measure fun m : Match => m.operator.priority).wf.has_min {m | m.StandsIn text} ⟨m, h⟩
  exact ⟨m', hs, fun m'' h'' => Nat.not_lt.mp (hl m'' h'')⟩

/-- What the scan of a text is to answer. -/
inductive Survey (text : List Char) : Except FormulaError (List Match) → Prop
  | closing (h : OverClosed text) : Survey text (.error .extraClosing)
  | opening (h : ¬OverClosed text) (hmore : text.count ')' < text.count '(') :
      Survey text (.error .extraOpening)
  | found (h : Balanced text) (ms : List Match) (ascending : ms.Pairwise (·.position < ·.position))
      (leading : ∀ m, m ∈ ms ↔ m.LeadsIn text) : Survey text (.ok ms)

/-- The finding holds the character at its position, and the priority that goes with it. -/
inductive Finding.Reads (text : List Char) : Finding → Prop
  | sum {i : Nat} {c : Char} (here : text[i]? = some c) (h : c = '+' ∨ c = '-') :
      Reads text ⟨c.toString, some i, 1⟩
  | product {i : Nat} {c : Char} (here : text[i]? = some c) (h : c = '*' ∨ c = '/') :
      Reads text ⟨c.toString, some i, 2⟩

theorem Match.StandsIn.finding_reads {text : List Char} {m : Match} (h : m.StandsIn text) :
    m.finding.Reads text := by
  obtain ⟨op, i⟩ := m
  have hc := h.symbol
  cases op with
  | add => exact .sum hc (.inl rfl)
  | sub => exact .sum hc (.inr rfl)
  | mul => exact .product hc (.inl rfl)
  | div => exact .product hc (.inr rfl)

theorem Operator.symbol_injective : Function.Injective Operator.symbol := fun _ _ h =>
  Option.some.inj ((ofChar?_eq_some_iff.mpr rfl).symm.trans (ofChar?_eq_some_iff.mpr h))

theorem Match.finding_injective : Function.Injective Match.finding := by
  intro m m' h
  obtain ⟨hs, hi, -⟩ := Finding.mk.inj h
  have hop : m.operator = m'.operator := Operator.symbol_injective (by simpa using hs)
  cases m
  cases m'
  exact congrArg₂ Match.mk hop (Option.some.inj hi)

@[simp] theorem Match.finding_ne_empty (m : Match) : m.finding ≠ .empty := by
  simp [finding, Finding.empty]

@[simp] theorem Match.isFound_finding (m : Match) : m.finding.isFound = true := by
  obtain ⟨op, i⟩ := m
  cases op <;> rfl

/-! What a place says of the text before it. -/

theorem NumberState.next_eq_numeric {x : NumberState} {c : Char} :
    x.next c = .numeric ↔ isNumeric c = true := by
  unfold next
  split
  · simp_all
  · split <;> simp_all

theorem NumberState.next_eq_marked {x : NumberState} {c : Char} :
    x.next c = .marked ↔ x = .numeric ∧ (c = 'e' ∨ c = 'E') := by
  unfold next
  split
  next hc =>
    simp only [reduceCtorEq, false_iff, not_and]
    rintro - (rfl | rfl) <;> revert hc <;> decide
  next =>
    by_cases hx : x = .numeric <;> by_cases hc : c = 'e' <;> simp [hx, hc]

namespace Place

variable {p : Place} {text : List Char} {m : Match}

theorem leading_after (p : Place) (text : List Char) :
    (p.after text).leading = true ↔ p.leading = true ∧ SignsOnly text := by
  induction text generalizing p with
  | nil => simp [SignsOnly]
  | cons c cs ih => simp [ih, next, SignsOnly, and_assoc]

theorem number_after_concat (p : Place) (text : List Char) (c : Char) :
    (p.after (text ++ [c])).number = (p.after text).number.next c := by
  rw [after_append]
  rfl

theorem number_after_eq_marked (text : List Char) :
    (start.after text).number = .marked ↔ EndsMarked text := by
  have hnumeric (before : List Char) : (start.after before).number = .numeric ↔
      ∃ t c, before = t ++ [c] ∧ NumberState.isNumeric c = true := by
    rcases List.eq_nil_or_concat' before with rfl | ⟨t, c, rfl⟩
    · simp [start]
    · rw [number_after_concat, NumberState.next_eq_numeric]
      simp
  rcases List.eq_nil_or_concat' text with rfl | ⟨before, mark, rfl⟩
  · simp [start, EndsMarked]
  · rw [number_after_concat, NumberState.next_eq_marked, hnumeric]
    constructor
    · rintro ⟨⟨t, c, rfl, hc⟩, hm⟩
      exact ⟨t, c, mark, by simp, by simpa [NumberState.isNumeric] using hc, hm⟩
    · rintro ⟨t, c, mark', he, hc, hm⟩
      rw [show t ++ [c, mark'] = (t ++ [c]) ++ [mark'] by simp] at he
      obtain ⟨rfl, hmark⟩ := List.append_inj' he rfl
      obtain rfl := (List.cons.inj hmark).1
      exact ⟨⟨t, c, rfl, by simpa [NumberState.isNumeric] using hc⟩, hm⟩

theorem mem_operators {i : Nat} : m ∈ p.operators i text ↔ ∃ before after,
    text = before ++ m.operator.symbol :: after ∧ m.position = i + before.length ∧
      (p.after before).operator? m.operator.symbol = some m.operator := by
  induction text generalizing p i with
  | nil => simp
  | cons c cs ih =>
    rw [operators_cons, List.mem_append, Option.mem_toList, Option.map_eq_some_iff, ih]
    constructor
    · rintro (⟨op, ho, rfl⟩ | ⟨before, after, rfl, hi, ho⟩)
      · obtain rfl := (operator?_eq_some.mp ho).1
        exact ⟨[], cs, rfl, rfl, ho⟩
      · exact ⟨c :: before, after, rfl, by rw [hi, List.length_cons]; omega, ho⟩
    · rintro ⟨_ | ⟨c', before⟩, after, he, hi, ho⟩
      · obtain ⟨rfl, rfl⟩ := List.cons.inj he
        exact .inl ⟨m.operator, ho, by cases m; cases hi; rfl⟩
      · obtain ⟨rfl, rfl⟩ := List.cons.inj he
        exact .inr ⟨before, after, rfl, by rw [hi, List.length_cons]; omega, ho⟩

theorem pairwise_operators (p : Place) (i : Nat) (text : List Char) :
    (p.operators i text).Pairwise (·.position < ·.position) := by
  induction text generalizing p i with
  | nil => exact .nil
  | cons c cs ih =>
    refine List.pairwise_append.mpr ⟨?_, ih _ _, fun m hm m' hm' => ?_⟩
    · cases p.operator? c <;> simp
    · obtain ⟨op, -, rfl⟩ := Option.map_eq_some_iff.mp (Option.mem_toList.mp hm)
      obtain ⟨before, -, -, hi, -⟩ := mem_operators.mp hm'
      dsimp only
      omega

/-- Where no closing bracket is too many, the scan's conditions are those on the text. -/
theorem mem_operators_start (ha : start.Admits text) :
    m ∈ start.operators 0 text ↔ m.StandsIn text := by
  have hplace {before after : List Char} (he : text = before ++ m.operator.symbol :: after) :
      (start.after before).operator? m.operator.symbol = some m.operator ↔ Balanced before ∧
        ¬(m.operator = .sub ∧ SignsOnly before) ∧
        ¬((m.operator = .add ∨ m.operator = .sub) ∧ EndsMarked before) := by
    have hbefore : start.Admits before := ((admits_append ..).mp (he ▸ ha)).1
    rw [operator?_eq_some, leading_after, number_after_eq_marked, ← paired_iff_balanced, Paired,
      and_iff_right hbefore, and_iff_right (show start.leading = true from rfl)]
    simp
  rw [mem_operators]
  constructor
  · rintro ⟨before, after, he, hi, ho⟩
    obtain ⟨hb, hs, hm⟩ := (hplace he).mp ho
    rw [Nat.zero_add] at hi
    have htake : text.take m.position = before := by rw [he, hi, List.take_left]
    exact ⟨by simp [he, hi], htake ▸ hb, htake ▸ hs, htake ▸ hm⟩
  · rintro ⟨hsymbol, hb, hs, hm⟩
    obtain ⟨hlt, hget⟩ := List.getElem?_eq_some_iff.mp hsymbol
    have he : text = text.take m.position ++ m.operator.symbol :: text.drop (m.position + 1) := by
      rw [← hget, List.getElem_cons_drop, List.take_append_drop]
    refine ⟨text.take m.position, text.drop (m.position + 1), he, ?_, (hplace he).mpr ⟨hb, hs, hm⟩⟩
    rw [List.length_take]
    omega

end Place

theorem getLast?_eq_some_of_ascending {ms : List Match} {m : Match}
    (hp : ms.Pairwise (·.position < ·.position)) :
    ms.getLast? = some m ↔ m ∈ ms ∧ ∀ m' ∈ ms, m'.position ≤ m.position := by
  rcases List.eq_nil_or_concat' ms with rfl | ⟨init, last, rfl⟩
  · simp
  · have hlast : ∀ m' ∈ init, m'.position < last.position := fun m' hm' =>
      (List.pairwise_append.mp hp).2.2 m' hm' last (List.mem_singleton_self _)
    rw [List.getLast?_concat, Option.some_inj]
    simp only [List.mem_append, List.mem_singleton]
    constructor
    · rintro rfl
      refine ⟨.inr rfl, ?_⟩
      rintro m' (hm' | rfl)
      exacts [Nat.le_of_lt (hlast m' hm'), Nat.le_refl _]
    · rintro ⟨hm | rfl, hle⟩
      · exact absurd (hle last (.inr rfl)) (Nat.not_le.mpr (hlast m hm))
      · rfl

theorem mem_ofLowestPriority {ms : List Match} {m : Match} : m ∈ ofLowestPriority ms ↔
    m ∈ ms ∧ ∀ m' ∈ ms, m.operator.priority ≤ m'.operator.priority := by
  rw [ofLowestPriority, List.mem_filter, beq_iff_eq]
  refine and_congr_right fun hm => ⟨fun h m' hm' => h ▸ lowestPriority_le hm', fun h => ?_⟩
  obtain ⟨m', hm', he⟩ := exists_priority_eq_lowest (List.ne_nil_of_mem hm)
  exact Nat.le_antisymm (he ▸ h m' hm') (lowestPriority_le hm)

namespace Survey

variable {text : List Char} {answer answer' : Except FormulaError (List Match)}

theorem findOperators (text : List Char) : Survey text (findOperators text) := by
  rw [findOperators_eq]
  split
  next ha => exact .closing (by rwa [Place.admits_start_iff, not_not] at ha)
  next ha =>
    rw [not_not] at ha
    have hover := Place.admits_start_iff.mp ha
    split
    next hd =>
      have := Place.depth_after ha
      rw [show Place.start.depth = 0 from rfl] at this
      exact .opening hover (by omega)
    next hd =>
      refine .found (paired_iff_balanced.mp ⟨ha, not_not.mp hd⟩) _
        ((Place.pairwise_operators _ _ _).filter _) fun m => ?_
      rw [mem_ofLowestPriority]
      simp only [Place.mem_operators_start ha]
      exact ⟨fun ⟨hs, hl⟩ => ⟨hs, hl⟩, fun ⟨hs, hl⟩ => ⟨hs, hl⟩⟩

/-- Matches that ascend are in no order but one. -/
theorem unique (h : Survey text answer) (h' : Survey text answer') : answer = answer' := by
  cases h with
  | closing ho =>
    cases h' with
    | closing => rfl
    | opening ho' => exact absurd ho ho'
    | found hb => exact absurd ho hb.not_overClosed
  | opening ho hmore =>
    cases h' with
    | closing ho' => exact absurd ho' ho
    | opening => rfl
    | found hb => exact absurd hb.level (Nat.ne_of_gt hmore)
  | found hb ms hp hm =>
    cases h' with
    | closing ho => exact absurd ho hb.not_overClosed
    | opening _ hmore => exact absurd hb.level (Nat.ne_of_gt hmore)
    | found _ ms' hp' hm' =>
      have : Std.Irrefl fun m m' : Match => m.position < m'.position := ⟨fun m => Nat.lt_irrefl _⟩
      have hnodup {ms : List Match} (h : ms.Pairwise (·.position < ·.position)) : ms.Nodup :=
        h.imp fun h => ne_of_apply_ne _ (Nat.ne_of_lt h)
      have hperm : ms.Perm ms' := (List.perm_ext_iff_of_nodup (hnodup hp) (hnodup hp')).mpr
        fun m => (hm m).trans (hm' m).symm
      rw [hperm.eq_of_pairwise
        (fun m m' _ _ h h' => absurd (Nat.lt_trans h h') (Nat.lt_irrefl _)) hp hp']

theorem eq_iff : FormulaEntry.findOperators text = answer ↔ Survey text answer :=
  ⟨fun h => h ▸ findOperators text, fun h => (findOperators text).unique h⟩

end Survey

theorem Balanced.exists_findOperators {text : List Char} (h : Balanced text) :
    ∃ ms, findOperators text = .ok ms := by
  cases hf : findOperators text with
  | ok ms => exact ⟨ms, rfl⟩
  | error e =>
    cases Survey.eq_iff.mp hf with
    | closing ho => exact absurd ho h.not_overClosed
    | opening _ hmore => exact absurd h.level (Nat.ne_of_gt hmore)

theorem findOperators_eq_ok_iff_found {text : List Char} {ms : List Match} :
    findOperators text = .ok ms ↔ Balanced text ∧ ms.Pairwise (·.position < ·.position) ∧
      ∀ m, m ∈ ms ↔ m.LeadsIn text := by
  rw [Survey.eq_iff]
  constructor
  · rintro (_ | _ | ⟨hb, _, hp, hm⟩)
    exact ⟨hb, hp, hm⟩
  · exact fun ⟨hb, hp, hm⟩ => .found hb ms hp hm

theorem findOperator_eq_error {text : List Char} {e : FormulaError} :
    findOperator text = .error e ↔ findOperators text = .error e := by
  unfold findOperator
  cases findOperators text <;> simp [Except.map]

theorem findOperator_eq_ok {text : List Char} {m? : Option Match} :
    findOperator text = .ok m? ↔ ∃ ms, findOperators text = .ok ms ∧ ms.getLast? = m? := by
  unfold findOperator
  cases findOperators text <;> simp [Except.map]

theorem findOperator_eq_none {text : List Char} :
    findOperator text = .ok none ↔ Balanced text ∧ ∀ m : Match, ¬m.StandsIn text := by
  simp only [findOperator_eq_ok, findOperators_eq_ok_iff_found, List.getLast?_eq_none_iff]
  constructor
  · rintro ⟨_, ⟨hb, -, hm⟩, rfl⟩
    refine ⟨hb, fun m hs => ?_⟩
    obtain ⟨m', hl⟩ := hs.exists_leadsIn
    exact List.not_mem_nil ((hm m').mpr hl)
  · exact fun ⟨hb, hm⟩ => ⟨[], ⟨hb, .nil, fun m => by simpa using fun hl => hm m hl.stands⟩, rfl⟩

theorem findOperator_eq_some {text : List Char} {m : Match} :
    findOperator text = .ok (some m) ↔ Balanced text ∧ m.LeadsIn text ∧
      ∀ m' : Match, m'.LeadsIn text → m'.position ≤ m.position := by
  rw [findOperator_eq_ok]
  constructor
  · rintro ⟨ms, hf, hlast⟩
    obtain ⟨hb, hp, hm⟩ := findOperators_eq_ok_iff_found.mp hf
    simpa only [hb, hm, true_and] using (getLast?_eq_some_of_ascending hp).mp hlast
  · rintro ⟨hb, hm⟩
    obtain ⟨ms, hf⟩ := hb.exists_findOperators
    obtain ⟨-, hp, hmem⟩ := findOperators_eq_ok_iff_found.mp hf
    exact ⟨ms, hf, (getLast?_eq_some_of_ascending hp).mpr (by simpa only [hmem] using hm)⟩

section Findings

variable {text : List Char}

theorem findings_eq {answer : Except FormulaError (List Finding)} : findings text = answer ↔
    ∃ found, Survey text found ∧ found.map (List.map Match.finding) = answer := by
  simp only [← Survey.eq_iff, exists_eq_left']
  rfl

theorem reads_of_findings {fs : List Finding} (h : findings text = .ok fs) :
    ∀ f ∈ fs, f.Reads text := by
  obtain ⟨_ | ms, hs, he⟩ := findings_eq.mp h
  · cases he
  · obtain rfl := Except.ok.inj he
    obtain ⟨-, -, hm⟩ := findOperators_eq_ok_iff_found.mp (Survey.eq_iff.mpr hs)
    intro f hf
    obtain ⟨m, hmem, rfl⟩ := List.mem_map.mp hf
    exact ((hm m).mp hmem).stands.finding_reads

theorem finding_eq_error {e : FormulaError} : finding text = .error e ↔ Survey text (.error e) := by
  rw [← Survey.eq_iff, ← findOperator_eq_error, finding]
  cases findOperator text <;> simp [Except.map]

theorem finding_eq_empty : finding text = .ok .empty ↔ findOperator text = .ok none := by
  rw [finding]
  rcases findOperator text with _ | _ | m <;> simp [Except.map]

theorem finding_eq_finding {m : Match} :
    finding text = .ok m.finding ↔ findOperator text = .ok (some m) := by
  rw [finding]
  rcases findOperator text with _ | _ | m'
  · simp [Except.map]
  · simp [Except.map, m.finding_ne_empty.symm]
  · simp [Except.map, Match.finding_injective.eq_iff]

/-- A found operator is told from none by its symbol alone. -/
theorem finding_cases {f : Finding} (h : finding text = .ok f) :
    f.Reads text ∧ f.isFound = true ∨ f = .empty ∧ f.isFound = false := by
  rw [finding] at h
  rcases ho : findOperator text with _ | _ | m <;> rw [ho] at h <;>
    obtain ⟨⟩ := h
  · exact .inr ⟨rfl, rfl⟩
  · exact .inl ⟨(findOperator_eq_some.mp ho).2.1.stands.finding_reads, m.isFound_finding⟩

end Findings

/-- The scan answers as the survey of the whole text says: which error, or which operators, in
which order. Of several the right-most is the one to split at. -/
theorem scan_answers_survey (text : List Char) :
    (∀ answer, findOperators text = answer ↔ Survey text answer) ∧
      (∀ e, findOperator text = .error e ↔ Survey text (.error e)) ∧
      (findOperator text = .ok none ↔ Balanced text ∧ ∀ m : Match, ¬m.StandsIn text) ∧
      (∀ m, findOperator text = .ok (some m) ↔ Balanced text ∧ m.LeadsIn text ∧
        ∀ m' : Match, m'.LeadsIn text → m'.position ≤ m.position) ∧
      (∀ answer, findings text = answer ↔
        ∃ found, Survey text found ∧ found.map (List.map Match.finding) = answer) ∧
      (∀ fs, findings text = .ok fs → ∀ f ∈ fs, f.Reads text) ∧
      (∀ e, finding text = .error e ↔ Survey text (.error e)) ∧
      (finding text = .ok .empty ↔ Balanced text ∧ ∀ m : Match, ¬m.StandsIn text) ∧
      (∀ m : Match, finding text = .ok m.finding ↔ Balanced text ∧ m.LeadsIn text ∧
        ∀ m' : Match, m'.LeadsIn text → m'.position ≤ m.position) ∧
      (∀ f, finding text = .ok f →
        f.Reads text ∧ f.isFound = true ∨ f = .empty ∧ f.isFound = false) ∧
      FormulaError.extraClosing.message = "Extra closing bracket" ∧
      FormulaError.extraOpening.message = "Extra opening bracket" :=
  ⟨fun _ => Survey.eq_iff, fun _ => findOperator_eq_error.trans Survey.eq_iff, findOperator_eq_none,
    fun _ => findOperator_eq_some, fun _ => findings_eq, fun _ => reads_of_findings,
    fun _ => finding_eq_error, finding_eq_empty.trans findOperator_eq_none,
    fun _ => finding_eq_finding.trans findOperator_eq_some, fun _ => finding_cases, rfl, rfl⟩

/-- The sign in front, that of the exponent and what stands in brackets are passed over. -/
example : findOperators "-1e-5*2-(3+4)+5".toList = .ok [⟨.sub, 7⟩, ⟨.add, 13⟩] := by decide

example : finding "-1e-5".toList = .ok ⟨"", none, 100⟩ := by decide

end FormulaEntry
