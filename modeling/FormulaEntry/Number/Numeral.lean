import FormulaEntry.Number.Rounding

/-! Decimal numerals: a sign, digits, a point, digits, an exponent. `read?` takes
the loosest form; formulas and number fields each accept a part of it. -/

namespace FormulaEntry

inductive Sign where
  | absent
  | plus
  | minus
deriving DecidableEq, Repr

structure Numeral where
  sign : Sign
  whole : List Char
  point : Bool
  fraction : List Char
  exponent : Int
deriving DecidableEq, Repr

def splitSign : List Char → Sign × List Char
  | '+' :: cs => (.plus, cs)
  | '-' :: cs => (.minus, cs)
  | cs => (.absent, cs)

def splitPoint : List Char → Bool × List Char
  | '.' :: cs => (true, cs)
  | cs => (false, cs)

def ofDigits (cs : List Char) : Nat := cs.foldl (fun n c => 10 * n + (c.toNat - 48)) 0

def readExponent? : List Char → Option Int
  | [] => some 0
  | c :: cs =>
    if c = 'e' ∨ c = 'E' then
      let (sign, ds) := splitSign cs
      if ds ≠ [] ∧ ds.all Char.isDigit then
        some (if sign = .minus then -(ofDigits ds : Int) else ofDigits ds)
      else none
    else none

namespace Numeral

def read? (cs : List Char) : Option Numeral :=
  let (sign, cs) := splitSign cs
  let (whole, cs) := cs.span Char.isDigit
  let (point, cs) := splitPoint cs
  let (fraction, cs) := if point then cs.span Char.isDigit else ([], cs)
  (readExponent? cs).map fun exponent => { sign, whole, point, fraction, exponent }

def decimal (n : Numeral) : Decimal :=
  ⟨ofDigits (n.whole ++ n.fraction), n.exponent - n.fraction.length⟩

def toDouble (n : Numeral) : Double := n.decimal.toDouble (n.sign == .minus)

/-- A number inside a formula: no plus sign, and digits at the end of its mantissa. -/
def isLiteral (n : Numeral) : Bool :=
  n.sign != .plus && (if n.point then !n.fraction.isEmpty else !n.whole.isEmpty)

def isEntry (n : Numeral) : Bool := !n.whole.isEmpty || !n.fraction.isEmpty

def literal? (cs : List Char) : Option Numeral := (read? cs).filter isLiteral

def entry? (cs : List Char) : Option Numeral := (read? cs).filter isEntry

end Numeral

end FormulaEntry
