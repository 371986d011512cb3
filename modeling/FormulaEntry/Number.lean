import FormulaEntry.Number.Text

/-! Numbers as controls hold them: exact integers of any size, and doubles. They
are compared as the numbers they are, without rounding an integer to a double. -/

namespace FormulaEntry

inductive Number where
  | int (n : Int)
  | double (x : Double)
deriving DecidableEq

namespace Number

def equals : Number → Number → Bool
  | int m, int n => m == n
  | int m, double y => y.equalsInt m
  | double x, int n => x.equalsInt n
  | double x, double y => x.equals y

/-- Whether `new` in place of `old` is a change. -/
def differs (old new : Number) : Bool :=
  !old.equals new && !(old == double .undefinedQuotient && new == double .undefinedQuotient)

/-- Integers are finite whatever their size. -/
def isFinite : Number → Bool
  | int _ => true
  | double x => x.isFinite

def isZero : Number → Bool
  | int n => n == 0
  | double x => x.isZero

/-- There is no text for an integer of too many digits. -/
def text? : Number → Option String
  | int n => intText? n
  | double x => some x.text

end Number

end FormulaEntry
