import FormulaEntry.Proofs.Formula.Outline

/-! Derivations as chains. A derivation of a sum or a product is the derivation of
its first part and a list of links; texts that begin with no sign derive from the
category without signs, and texts without a category's operators from its head. -/

namespace FormulaEntry

open Text (AllBlank)

/-- An operator of a chain, with the text behind it and the value of that. -/
structure Link where
  op : Operator
  text : List Char
  value : Double

namespace Link

def part (l : Link) : Operator × List Char := (l.op, l.text)

def fold (links : List Link) (a : Double) : Double :=
  links.foldl (fun acc l => l.op.apply acc l.value) a

end Link

namespace Category

def unsigned : Category → Category
  | signedProduct => product
  | signedFactor => factor
  | c => c

def relaxed : Category → Category
  | product => signedProduct
  | factor => signedFactor
  | c => c

theorem operand?_unsigned {c d : Category} {op : Operator} (h : c.operand? op = some d) :
    c.unsigned.operand? op = some d := by
  cases c <;> cases op <;> exact h

theorem operand?_relaxed {c d : Category} {op : Operator} (h : c.operand? op = some d) :
    c.relaxed.operand? op = some d := by
  cases c <;> cases op <;> exact h

end Category

theorem BeginsSigned.append {s : List Char} (h : BeginsSigned s) (t : List Char) :
    BeginsSigned (s ++ t) := by
  have hne : Text.stripLeft s ≠ [] := by
    intro hn
    rw [BeginsSigned, hn] at h
    cases h
  rw [BeginsSigned, Text.stripLeft_append_of_ne_nil hne, List.head?_append_of_ne_nil _ hne]
  exact h

namespace Derives

variable {c d : Category} {s : List Char} {x : Double}

theorem unsigned (h : Derives c s x) (hs : ¬BeginsSigned s) : Derives c.unsigned s x := by
  induction h with
  | number hv hw hn => exact .number hv hw hn
  | bracketed hv hw h => exact .bracketed hv hw h
  | negated hv _ =>
    refine absurd ?_ hs
    rw [BeginsSigned, Text.stripLeft_append hv, Text.stripLeft_cons (by decide)]
    rfl
  | @head c d s x hc h ih =>
    cases c with
    | sum => exact .head hc h
    | signedProduct =>
      obtain rfl := Option.some.inj hc
      exact .head rfl (ih hs)
    | signedFactor =>
      obtain rfl := Option.some.inj hc
      exact ih hs
    | product =>
      obtain rfl := Option.some.inj hc
      exact .head rfl (ih hs)
    | factor => cases hc
  | chain hc _ ht ih _ =>
    exact .chain (Category.operand?_unsigned hc) (ih fun hb => hs (hb.append _)) ht

theorem relaxed (h : Derives c s x) : Derives c.relaxed s x := by
  induction h with
  | number hv hw hn => exact .head rfl (.number hv hw hn)
  | bracketed hv hw h => exact .head rfl (.bracketed hv hw h)
  | negated hv h => exact .negated hv h
  | @head c d s x hc h ih =>
    cases c with
    | product =>
      obtain rfl := Option.some.inj hc
      exact .head rfl ih
    | factor => cases hc
    | sum => exact .head hc h
    | signedProduct => exact .head hc h
    | signedFactor => exact .head hc h
  | chain hc _ ht ih _ => exact .chain (Category.operand?_relaxed hc) ih ht

theorem sum (h : Derives c s x) : Derives .sum s x := by
  cases c with
  | sum => exact h
  | signedProduct => exact .head rfl h
  | signedFactor => exact .head rfl (.head rfl h)
  | product => exact .head rfl h.relaxed
  | factor => exact .head rfl (.head rfl h.relaxed)

/-- A text with no operator that the category could be a chain of is no chain. -/
theorem of_higher (h : Derives c s x) (hc : c.head? = some d) (hd : d.level = c.level + 1)
    (ho : ∀ op ∈ Place.start.ops s, c.level + 1 < op.priority) : Derives d s x := by
  cases h with
  | number => cases hc
  | bracketed => cases hc
  | negated =>
    obtain rfl := Option.some.inj hc
    cases hd
  | head hc' h =>
    obtain rfl := Option.some.inj (hc.symm.trans hc')
    exact h
  | @chain _ _ op s t _ _ hc' hs _ =>
    have hr := hs.reads Place.start fun _ _ => rfl
    have hop := ho op (by simp [Place.ops_append, Place.ops_cons, hr.operator? rfl op])
    have := (Category.operand?_level hc').1
    omega

theorem join {first : List Char} {a : Double} {links : List Link} (hf : Derives c first a)
    (hl : ∀ l ∈ links, ∃ d, c.operand? l.op = some d ∧ Derives d l.text l.value) :
    Derives c (FormulaEntry.join first (links.map Link.part)) (Link.fold links a) := by
  induction links generalizing first a with
  | nil => simpa [FormulaEntry.join, Link.fold] using hf
  | cons l links ih =>
    obtain ⟨d, hd, ht⟩ := hl l (by simp)
    have := ih (.chain hd hf ht) fun l' hl' => hl l' (List.mem_cons_of_mem _ hl')
    simpa [FormulaEntry.join, Link.fold, Link.part] using this

theorem exists_join (h : Derives c s x) (hc : c = .sum ∨ c = .signedProduct) :
    ∃ d first a links, c.head? = some d ∧ Derives d first a ∧
      (∀ l ∈ links, ∃ e, c.operand? l.op = some e ∧ Derives e l.text l.value) ∧
      s = FormulaEntry.join first (links.map Link.part) ∧ x = Link.fold links a := by
  induction h with
  | number => simp at hc
  | bracketed => simp at hc
  | negated => simp at hc
  | @head c d s x hd h _ =>
    exact ⟨d, s, x, [], hd, h, by simp, by simp [FormulaEntry.join], rfl⟩
  | @chain c e op s t x y he hs ht ih _ =>
    obtain ⟨d, first, a, links, hd, hf, hl, rfl, rfl⟩ := ih hc
    refine ⟨d, first, a, links ++ [⟨op, t, y⟩], hd, hf, fun l hmem => ?_, ?_, ?_⟩
    · rcases List.mem_append.mp hmem with hmem | hmem
      · exact hl l hmem
      · rw [List.mem_singleton.mp hmem]
        exact ⟨e, he, ht⟩
    · simp [FormulaEntry.join, Link.part]
    · simp [Link.fold]

end Derives
end FormulaEntry
