import FormulaEntry.Text.Blank
import FormulaEntry.Text.Digit
import FormulaEntry.Formula.Operator
import FormulaEntry.Formula.Error

/-! One pass over a text for the operators to split it at: those outside
brackets of the lowest priority that occurs. A minus sign before the first
operand is no operator, nor is the sign of an exponent. -/

namespace FormulaEntry

structure Match where
  operator : Operator
  position : Nat
deriving DecidableEq, Repr

/-- A match as callers see it; the empty one stands for no operator at all. -/
structure Finding where
  symbol : String
  position : Option Nat
  priority : Nat
deriving DecidableEq, Repr

namespace Finding

def empty : Finding := ⟨"", none, Operator.unranked⟩

def isFound (f : Finding) : Bool := f.symbol != ""

end Finding

def Match.finding (m : Match) : Finding :=
  ⟨m.operator.symbol.toString, some m.position, m.operator.priority⟩

/-- What the pass knows after some characters. -/
structure Scan where
  position : Nat
  depth : Nat
  /-- Nothing but blanks and minus signs so far. -/
  leading : Bool
  last : Option Char
  beforeLast : Option Char
  lowest : Nat
  /-- Newest first. -/
  found : List Match
deriving DecidableEq

namespace Scan

def start : Scan := ⟨0, 0, true, none, none, Operator.unranked, []⟩

/-- An `e` with a digit or a point before it makes a following sign part of a number. -/
def afterExponentMark (s : Scan) : Bool :=
  (s.last == some 'e' || s.last == some 'E') &&
    s.beforeLast.any fun c => Text.isDigit c || c == '.'

def isExponentSign (s : Scan) (op : Operator) : Bool :=
  (op == .add || op == .sub) && s.afterExponentMark

def advance (s : Scan) (c : Char) : Scan :=
  { s with
    position := s.position + 1
    leading := s.leading && Text.isBlank c
    last := some c
    beforeLast := s.last }

def record (s : Scan) (op : Operator) : Scan :=
  if op.priority < s.lowest then { s with lowest := op.priority, found := [⟨op, s.position⟩] }
  else if op.priority = s.lowest then { s with found := ⟨op, s.position⟩ :: s.found }
  else s

def step (s : Scan) (c : Char) : Except FormulaError Scan :=
  if c = '(' then .ok { s.advance c with depth := s.depth + 1 }
  else if c = ')' then
    if s.depth = 0 then .error .extraClosing else .ok { s.advance c with depth := s.depth - 1 }
  else if c = '-' ∧ s.leading then .ok { s.advance c with leading := true }
  else
    match Operator.ofChar? c with
    | some op =>
      if s.depth = 0 ∧ ¬s.isExponentSign op then .ok ((s.record op).advance c)
      else .ok (s.advance c)
    | none => .ok (s.advance c)

end Scan

/-- The operators to split a text at, left to right. -/
def findOperators (text : List Char) : Except FormulaError (List Match) := do
  let s ← text.foldlM Scan.step Scan.start
  if s.depth = 0 then .ok s.found.reverse else .error .extraOpening

/-- The right-most of them: splitting there makes chains group to the left. -/
def findOperator (text : List Char) : Except FormulaError (Option Match) :=
  (findOperators text).map List.getLast?

def findings (text : List Char) : Except FormulaError (List Finding) :=
  (findOperators text).map (List.map Match.finding)

def finding (text : List Char) : Except FormulaError Finding :=
  (findOperator text).map fun m? => m?.elim .empty Match.finding

end FormulaEntry
