import FormulaEntry.Formula.Scan
import Mathlib.Data.List.Basic

/-! The scan for operators, taken apart. Whether a character is an operator depends
on three things about the text before it: how many brackets are open, whether an
operand has begun, and whether the last characters make a sign part of a number.
These are a `Place`, which moves on by itself; collecting the operators of lowest
priority is a matter of the list `operators`, and `findOperators_eq` puts the two
together again. -/

namespace FormulaEntry

/-- What the characters just read make of a plus or minus sign that follows. -/
inductive NumberState where
  | plain
  /-- A digit or a point was read. -/
  | numeric
  /-- An `e` was read after a digit or a point. -/
  | marked
deriving DecidableEq

def NumberState.isNumeric (c : Char) : Bool := Text.isDigit c || c == '.'

def NumberState.next (x : NumberState) (c : Char) : NumberState :=
  if isNumeric c then numeric
  else if x = numeric ∧ (c = 'e' ∨ c = 'E') then marked
  else plain

structure Place where
  depth : Nat
  leading : Bool
  number : NumberState
deriving DecidableEq

namespace Place

def start : Place := ⟨0, true, .plain⟩

/-- Right behind an operator outside brackets. -/
def resumed : Place := ⟨0, false, .plain⟩

def next (p : Place) (c : Char) : Place where
  depth := if c = '(' then p.depth + 1 else if c = ')' then p.depth - 1 else p.depth
  leading := p.leading && (Text.isBlank c || c == '-')
  number := p.number.next c

def after (p : Place) (text : List Char) : Place := text.foldl next p

/-- The operator to split at that `c` is here, if it is one. -/
def operator? (p : Place) (c : Char) : Option Operator :=
  if p.depth ≠ 0 ∨ (c = '-' ∧ p.leading = true) then none
  else (Operator.ofChar? c).filter fun op => !(op == .add || op == .sub) || p.number != .marked

/-- No closing bracket of the text lacks its opening one. -/
def Admits (p : Place) : List Char → Prop
  | [] => True
  | c :: cs => ¬(c = ')' ∧ p.depth = 0) ∧ (p.next c).Admits cs

/-- Every operator outside brackets, whatever its priority. -/
def operators (p : Place) (position : Nat) : List Char → List Match
  | [] => []
  | c :: cs =>
    ((p.operator? c).map fun op => Match.mk op position).toList ++
      (p.next c).operators (position + 1) cs

/-- The same operators without their positions. -/
def ops (p : Place) : List Char → List Operator
  | [] => []
  | c :: cs => (p.operator? c).toList ++ (p.next c).ops cs

instance decidableAdmits (p : Place) : (text : List Char) → Decidable (p.Admits text)
  | [] => inferInstanceAs (Decidable True)
  | c :: cs =>
    have := decidableAdmits (p.next c) cs
    inferInstanceAs (Decidable (¬(c = ')' ∧ p.depth = 0) ∧ (p.next c).Admits cs))

variable {p : Place} {c : Char} {op : Operator}

@[simp] theorem after_nil (p : Place) : p.after [] = p := rfl

@[simp] theorem after_cons (p : Place) (c : Char) (cs : List Char) :
    p.after (c :: cs) = (p.next c).after cs := rfl

theorem after_append (p : Place) (s t : List Char) : p.after (s ++ t) = (p.after s).after t := by
  simp [after, List.foldl_append]

@[simp] theorem admits_nil (p : Place) : p.Admits [] := trivial

theorem admits_cons : p.Admits (c :: cs) ↔ ¬(c = ')' ∧ p.depth = 0) ∧ (p.next c).Admits cs :=
  Iff.rfl

theorem admits_append (p : Place) (s t : List Char) :
    p.Admits (s ++ t) ↔ p.Admits s ∧ (p.after s).Admits t := by
  induction s generalizing p with
  | nil => simp
  | cons c cs ih => simp only [List.cons_append, admits_cons, after_cons, ih, and_assoc]

@[simp] theorem operators_nil (p : Place) (i : Nat) : p.operators i [] = [] := rfl

theorem operators_cons (p : Place) (i : Nat) (c : Char) (cs : List Char) :
    p.operators i (c :: cs) =
      ((p.operator? c).map fun op => Match.mk op i).toList ++ (p.next c).operators (i + 1) cs :=
  rfl

theorem operators_append (p : Place) (i : Nat) (s t : List Char) :
    p.operators i (s ++ t) = p.operators i s ++ (p.after s).operators (i + s.length) t := by
  induction s generalizing p i with
  | nil => simp
  | cons c cs ih =>
    simp only [List.cons_append, operators_cons, after_cons, ih, List.append_assoc,
      List.length_cons]
    rw [show i + 1 + cs.length = i + (cs.length + 1) by omega]

@[simp] theorem ops_nil (p : Place) : p.ops [] = [] := rfl

theorem ops_cons (p : Place) (c : Char) (cs : List Char) :
    p.ops (c :: cs) = (p.operator? c).toList ++ (p.next c).ops cs := rfl

theorem ops_append (p : Place) (s t : List Char) :
    p.ops (s ++ t) = p.ops s ++ (p.after s).ops t := by
  induction s generalizing p with
  | nil => simp
  | cons c cs ih => simp only [List.cons_append, ops_cons, after_cons, ih, List.append_assoc]

theorem map_operator_operators (p : Place) (i : Nat) (text : List Char) :
    (p.operators i text).map Match.operator = p.ops text := by
  induction text generalizing p i with
  | nil => rfl
  | cons c cs ih =>
    simp only [operators_cons, ops_cons, List.map_append, ih]
    cases p.operator? c <;> rfl

theorem operator_mem_ops {i : Nat} {text : List Char} {m : Match} (h : m ∈ p.operators i text) :
    m.operator ∈ p.ops text :=
  map_operator_operators p i text ▸ List.mem_map_of_mem h

theorem operator?_eq_some :
    p.operator? c = some op ↔ c = op.symbol ∧ p.depth = 0 ∧ ¬(op = .sub ∧ p.leading = true) ∧
      ¬((op = .add ∨ op = .sub) ∧ p.number = .marked) := by
  unfold operator?
  split
  next h =>
    simp only [reduceCtorEq, false_iff, not_and]
    rintro rfl hd hl
    rcases h with h | ⟨hc, h⟩
    · exact absurd hd h
    · cases op <;> simp_all [Operator.symbol]
  next h =>
    simp only [not_or, ne_eq, not_not] at h
    simp only [Option.filter_eq_some_iff, Operator.ofChar?_eq_some_iff]
    constructor
    · rintro ⟨rfl, hx⟩
      refine ⟨rfl, h.1, fun hs => h.2 ⟨by rw [hs.1]; rfl, hs.2⟩, ?_⟩
      simpa [or_iff_not_imp_left] using hx
    · rintro ⟨rfl, -, -, hx⟩
      refine ⟨rfl, ?_⟩
      simpa [or_iff_not_imp_left] using hx

theorem next_symbol (op : Operator) (p : Place) :
    p.next op.symbol = ⟨p.depth, p.leading && op == .sub, .plain⟩ := by
  cases op <;> simp [next, Operator.symbol, NumberState.next, NumberState.isNumeric,
    Text.isBlank, Text.isDigit,
    Text.digitRanges]

/-- After an operator everything but the brackets begins anew. -/
theorem next_of_operator? (h : p.operator? c = some op) : p.next c = resumed := by
  obtain ⟨rfl, hd, hl, -⟩ := operator?_eq_some.mp h
  rw [next_symbol, hd, resumed]
  cases op <;> simp_all

end Place
end FormulaEntry
