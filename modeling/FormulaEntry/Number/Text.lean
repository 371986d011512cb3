import FormulaEntry.Number.Shortest

/-! How numbers are written. A double shows its shortest decimal: positional
with a point for leading exponents from -4 to 15, otherwise with an exponent of
a sign and at least two digits. -/

namespace FormulaEntry

def digitChar (n : Nat) : Char := Char.ofNat (48 + n % 10)

/-- The decimal digits of `n`, written before `rest`. -/
def digitsBefore (n : Nat) (rest : List Char) : List Char :=
  if n < 10 then digitChar n :: rest else digitsBefore (n / 10) (digitChar (n % 10) :: rest)
termination_by n

def digitsOf (n : Nat) : List Char := digitsBefore n []

def zeros (n : Nat) : List Char := List.replicate n '0'

namespace Decimal

def exponentChars (e : Int) : List Char :=
  let ds := digitsOf e.natAbs
  'e' :: (if e < 0 then '-' else '+') :: zeros (2 - ds.length) ++ ds

/-- Digits and the exponent of the first one. -/
def scientificChars (ds : List Char) (e : Int) : List Char :=
  match ds with
  | [] => []
  | [d] => d :: exponentChars e
  | d :: rest => d :: '.' :: rest ++ exponentChars e

def positionalChars (ds : List Char) (exp : Int) : List Char :=
  if 0 ≤ exp then ds ++ zeros exp.toNat ++ ['.', '0']
  else
    let places := (-exp).toNat
    if places < ds.length then
      ds.take (ds.length - places) ++ '.' :: ds.drop (ds.length - places)
    else '0' :: '.' :: zeros (places - ds.length) ++ ds

def chars (d : Decimal) : List Char :=
  let ds := digitsOf d.digits
  let e := d.exp + ds.length - 1
  if -4 ≤ e ∧ e < 16 then positionalChars ds d.exp else scientificChars ds e

end Decimal

namespace Double

def unsignedChars (x : Double) : List Char :=
  if x.isZero then ['0', '.', '0']
  else if x.isFinite then x.shortest.chars
  else ['i', 'n', 'f']

def chars (x : Double) : List Char :=
  if x.isNaN then ['n', 'a', 'n']
  else if x.isNegative then '-' :: x.unsignedChars
  else x.unsignedChars

def text (x : Double) : String := String.ofList x.chars

end Double

def intChars (n : Int) : List Char :=
  if n < 0 then '-' :: digitsOf n.natAbs else digitsOf n.natAbs

/-- An integer of more digits has no text. -/
def maxIntDigits : Nat := 4300

def intText? (n : Int) : Option String :=
  if n.natAbs < Nat.pow 10 maxIntDigits then some (String.ofList (intChars n)) else none

end FormulaEntry
