import FormulaEntry.Proofs.Formula.Limit
import FormulaEntry.Proofs.Formula.Meaning

/-! What is said of the brackets of a formula. They are counted again in every part of it that
is evaluated. The parts of a text whose brackets pair up have brackets that pair up, with one
exception: a text that begins with an opening and ends with a closing bracket loses both, be
they partners of one another or not. -/

namespace FormulaEntry

open Text (AllBlank)

/-- Some closing bracket has no opening one before it. -/
def OverClosed (text : List Char) : Prop := ∃ t, t <+: text ∧ t.count '(' < t.count ')'

/-- The brackets of the text pair up. -/
structure Balanced (text : List Char) : Prop where
  level : text.count '(' = text.count ')'
  covered : ∀ t, t <+: text → t.count ')' ≤ t.count '('

namespace Place

variable {p : Place} {c : Char} {text : List Char}

theorem depth_next (h : ¬(c = ')' ∧ p.depth = 0)) (t : List Char) :
    (p.next c).depth + (c :: t).count ')' + t.count '(' =
      p.depth + (c :: t).count '(' + t.count ')' := by
  by_cases ho : c = '('
  · subst ho
    simp only [next, if_pos, List.count_cons_self, List.count_cons_of_ne (show '(' ≠ ')' by decide)]
    omega
  by_cases hc : c = ')'
  · subst hc
    have : p.depth ≠ 0 := fun h0 => h ⟨rfl, h0⟩
    simp only [next, if_neg ho, if_pos, List.count_cons_self, List.count_cons_of_ne ho]
    omega
  · simp only [next, if_neg ho, if_neg hc, List.count_cons_of_ne ho, List.count_cons_of_ne hc]
    omega

theorem admits_iff : p.Admits text ↔ ∀ t, t <+: text → t.count ')' ≤ p.depth + t.count '(' := by
  induction text generalizing p with
  | nil => simp
  | cons c cs ih =>
    rw [admits_cons, ih]
    constructor
    · rintro ⟨hc, h⟩ t ht
      rcases List.prefix_cons_iff.mp ht with rfl | ⟨u, rfl, hu⟩
      · simp
      · have := h u hu
        have := depth_next hc u
        omega
    · intro h
      have hc : ¬(c = ')' ∧ p.depth = 0) := by
        rintro ⟨rfl, hd⟩
        have := h [')'] (List.prefix_cons_iff.mpr (.inr ⟨[], rfl, List.nil_prefix⟩))
        simp [hd] at this
      refine ⟨hc, fun t ht => ?_⟩
      have := h (c :: t) (List.cons_prefix_cons.mpr ⟨rfl, ht⟩)
      have := depth_next hc t
      omega

theorem depth_after (h : p.Admits text) :
    (p.after text).depth + text.count ')' = p.depth + text.count '(' := by
  induction text generalizing p with
  | nil => simp
  | cons c cs ih =>
    obtain ⟨hc, h⟩ := h
    have := ih h
    have := depth_next hc cs
    rw [after_cons]
    omega

theorem admits_start_iff : Place.start.Admits text ↔ ¬OverClosed text := by
  rw [admits_iff, OverClosed]
  simp [start]

end Place

theorem paired_iff_balanced {text : List Char} : Paired text ↔ Balanced text := by
  constructor
  · rintro ⟨ha, hd⟩
    have := Place.depth_after ha
    refine ⟨?_, fun t ht => ?_⟩
    · simp only [Place.start] at this hd
      omega
    · have := Place.admits_iff.mp ha t ht
      simpa [Place.start] using this
  · rintro ⟨hl, hc⟩
    have ha : Place.start.Admits text := Place.admits_iff.mpr fun t ht => by
      simpa [Place.start] using hc t ht
    have := Place.depth_after ha
    refine ⟨ha, ?_⟩
    simp only [Place.start] at this ⊢
    omega

instance (text : List Char) : Decidable (Paired text) :=
  inferInstanceAs (Decidable (Place.start.Admits text ∧ (Place.start.after text).depth = 0))

instance (text : List Char) : Decidable (Balanced text) :=
  decidable_of_iff _ paired_iff_balanced

instance (text : List Char) : Decidable (OverClosed text) :=
  decidable_of_iff (¬Place.start.Admits text) (by rw [Place.admits_start_iff, not_not])

theorem Balanced.not_overClosed {text : List Char} (h : Balanced text) : ¬OverClosed text := by
  rintro ⟨t, ht, hlt⟩
  exact Nat.not_lt.mpr (h.covered t ht) hlt

theorem balanced_or_overClosed {text : List Char} (h : text.count '(' = text.count ')') :
    Balanced text ∨ OverClosed text := by
  by_cases ho : OverClosed text
  · exact .inr ho
  · exact .inl ⟨h, fun t ht => Nat.le_of_not_lt fun hlt => ho ⟨t, ht, hlt⟩⟩

theorem Place.strip_brackets (text : List Char) :
    (start.Admits (Text.strip text) ↔ start.Admits text) ∧
      (start.after (Text.strip text)).depth = (start.after text).depth := by
  obtain ⟨v, w, hv, hw, he⟩ := Text.exists_strip text
  obtain ⟨x, hpass, -⟩ := passes_blank hv start
  obtain ⟨ha, -, hd⟩ := (Place.mk 0 true x).append_blank hw (Text.strip text)
  have hv : start.after v = Place.mk 0 true x := hpass.after
  -- the places on either side of the blanks differ in nothing that brackets depend on
  have hcongr : (Place.mk 0 true x).depth = start.depth := rfl
  constructor
  · conv_rhs => rw [he, admits_append, hv, ha, admits_congr hcongr]
    exact (and_iff_right hpass.admits).symm
  · conv_rhs => rw [he, after_append, hv, hd, depth_after_congr hcongr]

/-! The shape of a text and those of its parts. -/

namespace Shape

variable {text u : List Char} {s : Shape} {e : FormulaError}

theorem of_eq_error_iff :
    Shape.of text = .error e ↔
      OverClosed text ∧ e = .extraClosing ∨ ¬OverClosed text ∧ ¬Balanced text ∧
        e = .extraOpening := by
  obtain ⟨ha, hd⟩ := Place.strip_brackets text
  rw [Shape.of, ofTrimmed_eq_error_iff, findOperators_eq_error_iff, ha, hd, Place.admits_start_iff,
    not_not, ← paired_iff_balanced, Paired, Place.admits_start_iff]
  tauto

theorem of_overClosed (h : OverClosed text) : Shape.of text = .error .extraClosing :=
  of_eq_error_iff.mpr (.inl ⟨h, rfl⟩)

theorem exists_of (h : Balanced text) : ∃ s, Shape.of text = .ok s := by
  cases hs : Shape.of text with
  | ok s => exact ⟨s, rfl⟩
  | error e =>
    rcases of_eq_error_iff.mp hs with ⟨ho, -⟩ | ⟨-, hb, -⟩
    · exact absurd ho h.not_overClosed
    · exact absurd h hb

/-- The inside of brackets that enclose a text may be unpaired, if they are no partners. -/
theorem balanced_of_mem_ofPlain {t : List Char} (h : Balanced t) (hu : u ∈ (ofPlain t).parts) :
    Balanced u ∨ ofPlain t = bracketed u ∧ OverClosed u := by
  unfold ofPlain at hu ⊢
  split at hu
  next c cs =>
    obtain rfl := List.mem_singleton.mp hu
    obtain ⟨ha, hd⟩ := paired_iff_balanced.mpr h
    exact .inl (paired_iff_balanced.mp (Place.paired_of_depth rfl ha.2 hd))
  next cs =>
    split at hu
    next hlast =>
      obtain rfl := List.mem_singleton.mp hu
      have hcs : cs = cs.dropLast ++ [')'] := (List.dropLast_append_getLast? _ hlast).symm
      have hlevel : cs.dropLast.count '(' = cs.dropLast.count ')' := by
        have := h.level
        rw [hcs] at this
        simpa using this
      rw [if_pos hlast]
      exact (balanced_or_overClosed hlevel).imp_right fun ho => ⟨rfl, ho⟩
    next => exact absurd hu List.not_mem_nil
  next => exact absurd hu List.not_mem_nil

theorem balanced_of_mem_parts (h : Shape.of text = .ok s) (hu : u ∈ s.parts) :
    Balanced u ∨ s = bracketed u ∧ OverClosed u := by
  have hout := outline_of_ofTrimmed h
  revert hout
  generalize Text.strip text = t
  intro hout
  cases hout with
  | blank => exact absurd hu List.not_mem_nil
  | literal => exact absurd hu List.not_mem_nil
  | chain k hne hdiv =>
    obtain ⟨hf, hr⟩ := hdiv.segments
    rw [parts, List.mem_cons, List.mem_map] at hu
    rcases hu with rfl | ⟨r, hmem, rfl⟩
    · exact .inl (paired_iff_balanced.mp hf.paired)
    · exact .inl (paired_iff_balanced.mp (hr r hmem).2.1.paired)
  | plain hp => exact balanced_of_mem_ofPlain (paired_iff_balanced.mp hp) hu

end Shape

/-- Of the texts the first one without a value has this error. -/
def FirstError (part : List Char → Except FormulaError Double) (e : FormulaError)
    (texts : List (List Char)) : Prop :=
  ∃ before u after, texts = before ++ u :: after ∧ (∀ v ∈ before, ∃ x, part v = .ok x) ∧
    part u = .error e

section

variable {part : List Char → Except FormulaError Double} {e : FormulaError}

theorem firstError_cons {u : List Char} {texts : List (List Char)} :
    FirstError part e (u :: texts) ↔
      part u = .error e ∨ ∃ x, part u = .ok x ∧ FirstError part e texts := by
  constructor
  · rintro ⟨before, v, after, he, hb, hv⟩
    cases before with
    | nil =>
      obtain ⟨rfl, -⟩ := List.cons.inj he
      exact .inl hv
    | cons b before =>
      obtain ⟨rfl, rfl⟩ := List.cons.inj he
      obtain ⟨x, hx⟩ := hb u (by simp)
      exact .inr ⟨x, hx, before, v, after, rfl, fun w hw => hb w (List.mem_cons_of_mem _ hw), hv⟩
  · rintro (hu | ⟨x, hx, before, v, after, rfl, hb, hv⟩)
    · exact ⟨[], u, texts, rfl, by simp, hu⟩
    · refine ⟨u :: before, v, after, rfl, fun w hw => ?_, hv⟩
      rcases List.mem_cons.mp hw with rfl | hw
      · exact ⟨x, hx⟩
      · exact hb w hw

theorem not_firstError_nil : ¬FirstError part e [] := by
  rintro ⟨before, u, after, he, -⟩
  simp at he

theorem Shape.foldlM_eq_error_iff {rest : List (Operator × List Char)} {a : Double} :
    rest.foldlM (fun acc r => return r.1.apply acc (← part r.2)) a = .error e ↔
      FirstError part e (rest.map Prod.snd) := by
  induction rest generalizing a with
  | nil => simp [pure, Except.pure, not_firstError_nil]
  | cons r rest ih =>
    rw [List.foldlM_cons, List.map_cons, firstError_cons]
    cases part r.2 with
    | error d => simp [bind, Except.bind]
    | ok x => simpa [bind, Except.bind, pure, Except.pure] using ih

/-- A shape that is not itself at fault fails as the first of its parts that fails. -/
theorem Shape.value_eq_error_iff (hm : e ≠ .missingOperand) (hf : ∀ text, e ≠ .malformed text)
    (s : Shape) : s.value part = .error e ↔ FirstError part e s.parts := by
  cases s with
  | blank => simp [value, parts, not_firstError_nil, hm.symm]
  | literal n => simp [value, parts, not_firstError_nil]
  | malformed text => simp [value, parts, not_firstError_nil, (hf _).symm]
  | chain first rest =>
    rw [value, parts, firstError_cons, bind_eq_error]
    simp only [foldlM_eq_error_iff]
  | negated inner =>
    rw [value, parts, firstError_cons, bind_eq_error]
    simp [pure, Except.pure, not_firstError_nil]
  | bracketed inner =>
    rw [value, parts, firstError_cons]
    simp [not_firstError_nil]

end

/-- `Reaches text t`: what the evaluation of `text` depends on comes down to `t`, as everything
before it has a value. -/
inductive Reaches : List Char → List Char → Prop
  | here (text : List Char) : Reaches text text
  | part {text t u : List Char} {s : Shape} {before after : List (List Char)}
      (hs : Shape.of text = .ok s) (hp : s.parts = before ++ u :: after)
      (hb : ∀ v ∈ before, ∃ x, Derives .sum v x) (hr : Reaches u t) : Reaches text t

/-- A text from which an opening and a closing bracket are taken that are no partners. -/
def WrapsApart (text : List Char) : Prop :=
  ∃ inner, Shape.of text = .ok (.bracketed inner) ∧ OverClosed inner

/-- What is said of the brackets of a text. -/
structure BracketReport (text : List Char) (outcome : Except FormulaError Double) : Prop where
  closing : OverClosed text → outcome = .error .extraClosing
  opening : outcome = .error .extraOpening ↔ ¬OverClosed text ∧ ¬Balanced text
  paired : Balanced text → (outcome = .error .extraClosing ↔ ∃ t, Reaches text t ∧ WrapsApart t)

section

variable {limit : Nat} {text t : List Char}

theorem evaluateWithin_of_error {e : FormulaError} (hs : Shape.of text = .error e)
    (h : evaluateWithin limit text ≠ .error .nestingTooDeep) :
    evaluateWithin limit text = .error e := by
  cases limit with
  | zero => exact absurd rfl h
  | succ limit =>
    rw [evaluateWithin_succ, ← Shape.of, hs]
    rfl

theorem evaluateWithin_eq_error_iff {s : Shape} (hs : Shape.of text = .ok s) {e : FormulaError}
    (hm : e ≠ .missingOperand) (hf : ∀ text, e ≠ .malformed text) :
    evaluateWithin (limit + 1) text = .error e ↔ FirstError (evaluateWithin limit) e s.parts := by
  rw [evaluateWithin_succ, ← Shape.of, hs]
  exact s.value_eq_error_iff hm hf

/-- In a list of texts the first error is that of the part that is come to, unless nesting is
cut short on the way. -/
theorem firstError_of_meets {before after : List (List Char)} {u : List Char} {e : FormulaError}
    (hb : ∀ v ∈ before, ∃ x, Derives .sum v x)
    (hu : evaluateWithin limit u ≠ .error .nestingTooDeep → evaluateWithin limit u = .error e)
    (h : ¬FirstError (evaluateWithin limit) .nestingTooDeep (before ++ u :: after)) :
    FirstError (evaluateWithin limit) e (before ++ u :: after) := by
  induction before with
  | nil =>
    rw [List.nil_append, firstError_cons] at h ⊢
    exact .inl (hu fun hn => h (.inl hn))
  | cons v before ih =>
    rw [List.cons_append, firstError_cons, not_or] at h
    obtain ⟨x, hx⟩ := hb v (by simp)
    have hv : evaluateWithin limit v = .ok x := (meets_of_derives limit hx).resolve_right h.1
    have hrest := ih (fun w hw => hb w (List.mem_cons_of_mem _ hw)) fun hn => h.2 ⟨x, hv, hn⟩
    exact firstError_cons.mpr (.inr ⟨x, hv, hrest⟩)

theorem closing_of_reaches (hr : Reaches text t) (hw : WrapsApart t)
    (h : evaluateWithin limit text ≠ .error .nestingTooDeep) :
    evaluateWithin limit text = .error .extraClosing := by
  induction hr generalizing limit with
  | here text =>
    obtain ⟨inner, hs, ho⟩ := hw
    cases limit with
    | zero => exact absurd rfl h
    | succ limit =>
      rw [evaluateWithin_succ, ← Shape.of, hs] at h ⊢
      exact evaluateWithin_of_error (Shape.of_overClosed ho) h
  | part hs hp hb _ ih =>
    cases limit with
    | zero => exact absurd rfl h
    | succ limit =>
      rw [ne_eq, evaluateWithin_eq_error_iff hs (by simp) (by simp), hp] at h
      rw [evaluateWithin_eq_error_iff hs (by simp) (by simp), hp]
      exact firstError_of_meets hb (ih hw) h

theorem reaches_of_closing (hb : Balanced text)
    (h : evaluateWithin limit text = .error .extraClosing) :
    ∃ t, Reaches text t ∧ WrapsApart t := by
  induction limit generalizing text with
  | zero => cases h
  | succ limit ih =>
    obtain ⟨s, hs⟩ := Shape.exists_of hb
    obtain ⟨before, u, after, hp, hbefore, hu⟩ :=
      (evaluateWithin_eq_error_iff hs (by simp) (by simp)).mp h
    rcases Shape.balanced_of_mem_parts hs (u := u) (by simp [hp]) with hbu | ⟨rfl, ho⟩
    · obtain ⟨t, hr, hw⟩ := ih hbu hu
      refine ⟨t, .part hs hp (fun v hv => ?_) hr, hw⟩
      obtain ⟨x, hx⟩ := hbefore v hv
      exact ⟨x, derives_of_evaluateWithin hx⟩
    · exact ⟨text, .here text, u, hs, ho⟩

theorem not_opening_of_balanced (hb : Balanced text) :
    evaluateWithin limit text ≠ .error .extraOpening := by
  induction limit generalizing text with
  | zero => simp [evaluateWithin]
  | succ limit ih =>
    intro h
    obtain ⟨s, hs⟩ := Shape.exists_of hb
    obtain ⟨before, u, after, hp, -, hu⟩ :=
      (evaluateWithin_eq_error_iff hs (by simp) (by simp)).mp h
    rcases Shape.balanced_of_mem_parts hs (u := u) (by simp [hp]) with hbu | ⟨-, ho⟩
    · exact ih hbu hu
    · have hne : evaluateWithin limit u ≠ .error .nestingTooDeep := by simp [hu]
      have := evaluateWithin_of_error (Shape.of_overClosed ho) hne
      simp [hu] at this

theorem bracketReport_evaluateWithin (h : evaluateWithin limit text ≠ .error .nestingTooDeep) :
    BracketReport text (evaluateWithin limit text) where
  closing ho := evaluateWithin_of_error (Shape.of_overClosed ho) h
  opening := by
    constructor
    · intro he
      refine ⟨fun ho => ?_, fun hb => not_opening_of_balanced hb he⟩
      have := evaluateWithin_of_error (Shape.of_overClosed ho) h
      simp [he] at this
    · rintro ⟨ho, hb⟩
      exact evaluateWithin_of_error (Shape.of_eq_error_iff.mpr (.inr ⟨ho, hb, rfl⟩)) h
  paired hb := ⟨reaches_of_closing hb, fun ⟨_, hr, hw⟩ => closing_of_reaches hr hw h⟩

end

/-- A formula whose brackets do not pair up is reported with the bracket that is too many. One
whose brackets pair up is never said to have an opening bracket too many, and it is said to
have a closing one too many exactly if the evaluation comes to a text within it that loses
two brackets that are no partners. -/
theorem evaluate_reports_brackets (formula : String) :
    (evaluate formula ≠ .error .nestingTooDeep → BracketReport formula.toList (evaluate formula)) ∧
    ∀ limit, evaluateWithin limit formula.toList ≠ .error .nestingTooDeep →
      BracketReport formula.toList (evaluateWithin limit formula.toList) :=
  ⟨bracketReport_evaluateWithin, fun _ => bracketReport_evaluateWithin⟩

/-- The first factor has a value, so the second is come to. -/
theorem wrap_within_product :
    evaluate "2*((1)(2))" ≠ .error .nestingTooDeep ∧
      ∃ t, Reaches "2*((1)(2))".toList t ∧ WrapsApart t := by
  have he : evaluate "2*((1)(2))" = .error .extraClosing := by decide +kernel
  have hne : evaluate "2*((1)(2))" ≠ .error .nestingTooDeep := by
    rw [he]
    exact nofun
  exact ⟨hne, (((evaluate_reports_brackets _).1 hne).paired (by decide)).mp he⟩

/-- Two bracketed numbers: every bracket has its partner. -/
theorem juxtaposed_brackets_reported :
    Balanced "(1)(2)".toList ∧ evaluate "(1)(2)" = .error .extraClosing := by
  refine ⟨by decide, ?_⟩
  decide +kernel

end FormulaEntry
