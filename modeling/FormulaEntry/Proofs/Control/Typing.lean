import FormulaEntry.Proofs.Control.Announcement
import FormulaEntry.Proofs.Control.Failure
import FormulaEntry.Proofs.Formula.Failure
import FormulaEntry.Proofs.Number.RoundTrip

/-! Typing. Whatever text is assigned to a live control that has its channels, the assignment
does not fail. The text is stored with the value it has, or as invalid. -/

namespace FormulaEntry

variable {κ σ : Type}

/-- What a control makes of a text that is typed. -/
inductive Content.Typed (d : Derivation) (text : String) : Content → Prop
  | empty : text = "" → Typed d text ⟨.empty, "", true⟩
  | valid {x : Double} : text ≠ "" → d.derive text = .ok (some (.double x)) →
      Typed d text ⟨.number (.double x), text, true⟩
  | invalid {e : Fault} :
    text ≠ "" → d.derive text = .error e → Typed d text ⟨.undetermined, text, false⟩

theorem ControlKind.typed (kind : ControlKind) (text : String) :
    ∃ content remark, Content.ofEdit kind.derivation (.text (.text text)) = .ok (content, remark) ∧
      content.Typed kind.derivation text := by
  by_cases ht : text = ""
  · exact ⟨_, _, if_pos ht, .empty ht⟩
  · rw [Content.ofEdit, Content.ofText, if_neg ht]
    rcases hd : kind.derivation.derive text with e | v
    · have he := kind.faultsContent text e hd
      exact ⟨_, _, if_pos he, .invalid ht hd⟩
    · obtain ⟨x, -, rfl⟩ := kind.givesFinite text v hd
      exact ⟨_, _, rfl, .valid ht hd⟩

variable [DecidableEq κ]

namespace Control

variable {audience : Audience κ σ (Step (ControlAction κ))} {depth : Nat}
    {w : World (Control κ) κ σ}

theorem intact_of_step {a : Step (ControlAction κ)} {newer : List (Event (Control κ) κ)}
    (hw : w.state.Intact) (hn : ((step audience depth a).final w).history = newer ++ w.history)
    (he : EndTogether newer) : ((step audience depth a).final w).state.Intact := by
  obtain ⟨es, t, e⟩ := step_leads audience depth a w
  obtain rfl : newer = es.reverse := List.append_cancel_right (hn.symm.trans e)
  have htogether : EndTogether es := by simpa [EndTogether] using he
  exact (t.strict hw htogether).2

theorem typing_outcome (kind : ControlKind) {text : String} {newer : List (Event (Control κ) κ)}
    (hkind : w.state.derivation = kind.derivation) (ha : w.state.alive = true)
    (hs : ∀ f, w.state.subscribers f ≠ none)
    (hn : ((step audience depth (.act (.edit (.text (.text text))))).final w).history =
      newer ++ w.history)
    (he : EndTogether newer) :
    ∃ content remark w', content.Typed kind.derivation text ∧
      w.Announced (.text (.text text)) content remark w' ∧
      step audience depth (.act (.edit (.text (.text text)))) w = .ok .none w' := by
  obtain ⟨content, remark, hmade, htyped⟩ := kind.typed text
  rw [← hkind] at hmade
  have hintact := intact_of_step (fun _ => hs) hn he
  rcases edit_outcome audience depth w (.text (.text text)) with
    ⟨e, -, hwhy⟩ | ⟨content', remark', w', -, hmade', hannounced, hends⟩
  · rcases hwhy with ⟨hdead, -⟩ | ⟨-, hfails⟩
    · exact absurd (ha.symm.trans hdead) (by simp)
    · exact absurd (hfails.symm.trans hmade) (by simp)
  · obtain ⟨rfl, rfl⟩ := Prod.mk.inj (Except.ok.inj (hmade.symm.trans hmade'))
    rw [hends.final] at hintact
    refine ⟨content, remark, w', htyped, hannounced, ?_⟩
    rcases hends with hok | ⟨f, -, halive, hended, -⟩
    · exact hok
    · exact absurd hended (hintact halive f)

end Control

/-- Malformed content is never a failure. Formulas fail only by their text, as every operator
found is one that can be applied, where its symbol is, every literal is a number, and division
knows no exception. So typing any text at all into a live control succeeds, as long as its
channels end with it only, and stores what the text is. -/
theorem typing_never_fails :
    (∀ formula, (∃ x, evaluate formula = .ok x) ∨ evaluate formula = .error .missingOperand ∨
      evaluate formula = .error .extraClosing ∨ evaluate formula = .error .extraOpening ∨
      (∃ text, evaluate formula = .error (.malformed text)) ∨
        evaluate formula = .error .nestingTooDeep) ∧
    (∀ text ms, findOperators text = .ok ms → ∀ m ∈ ms, text[m.position]? = some m.operator.symbol ∧
      ∀ x y, applySymbol (String.singleton m.operator.symbol) x y = .ok (m.operator.apply x y)) ∧
    (∀ text n, Numeral.literal? text = some n → Numeral.entry? text = some n) ∧
    (∀ x y : Double, y.isZero = true → (Operator.div.apply x y).isFinite = false) ∧
    ∀ (kind : ControlKind) (audience : Audience κ σ (Step (ControlAction κ))) depth
      (w : World (Control κ) κ σ)
      text newer, w.state.derivation = kind.derivation → w.state.alive = true →
      (∀ f, w.state.subscribers f ≠ none) →
      ((Control.step audience depth (.act (.edit (.text (.text text))))).final w).history =
        newer ++ w.history →
      EndTogether newer →
      ∃ content remark w', content.Typed kind.derivation text ∧
        w.Announced (.text (.text text)) content remark w' ∧
        Control.step audience depth (.act (.edit (.text (.text text)))) w = .ok .none w' := by
  refine ⟨evaluate_outcome, ?_, ?_, ?_, ?_⟩
  · intro text ms h m hm
    exact ⟨getElem?_of_findOperators h hm, m.operator.applySymbol_symbol⟩
  · intro text n h
    exact Numeral.entry?_of_literal? h
  · intro x y hy
    exact Operator.div_zero_not_finite x hy
  · intro kind audience depth w text newer hkind ha hs hn he
    exact Control.typing_outcome kind hkind ha hs hn he

/-- A control with one subscriber that fails and another that destroys it. -/
def hostile : Session Bool Unit where
  name := ""
  subscribers
    | .value => [true, false]
    | .text => [true]
    | .isValid => []
  audience := {
    label := fun k => if k then "failing" else "destroying"
    react := fun k _ => .steps false (if k then [.raise "no"] else [.act .destroy]) }
  depth := 1
  memory := ()
  user := .done false

theorem hostile_typed :
    let w := hostile.world ControlKind.calculator.derivation
    ∃ content remark w', content.Typed ControlKind.calculator.derivation "2 *" ∧
      w.Announced (.text (.text "2 *")) content remark w' ∧
      Control.step hostile.audience hostile.depth (.act (.edit (.text (.text "2 *")))) w =
        .ok .none w' := by
  intro w
  have hs : ∀ f, w.state.subscribers f ≠ none := by
    intro f
    rcases f <;> exact Option.some_ne_none _
  have he : EndTogether ((Control.step hostile.audience hostile.depth
      (.act (.edit (.text (.text "2 *"))))).final w).history := by
    unfold EndTogether
    decide +kernel
  exact typing_never_fails.2.2.2.2 .calculator hostile.audience hostile.depth w "2 *" _ rfl rfl hs
    (List.append_nil _).symm he

end FormulaEntry
