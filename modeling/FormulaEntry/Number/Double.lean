/-! Double-precision numbers, held as their 64 bits. A finite one is a whole
number of units of 2^-1074, the least positive double, so comparisons with
integers and decimals are comparisons of integers. -/

namespace FormulaEntry

structure Double where
  bits : UInt64
deriving DecidableEq, Inhabited

namespace Double

/-- The weight of the sign bit. -/
def signWeight : Nat := 0x8000000000000000

/-- The weight of the lowest exponent bit, above those of the fraction. -/
def exponentWeight : Nat := 0x10000000000000

/-- Magnitude bits of infinity; every greater magnitude is not a number. -/
def infinite : Nat := 0x7ff0000000000000

/-- How many units make one. -/
def unitsPerOne : Nat := Nat.pow 2 1074

def ofMagnitude (negative : Bool) (m : Nat) : Double :=
  ⟨UInt64.ofNat ((if negative then signWeight else 0) + m)⟩

def magnitude (x : Double) : Nat := x.bits.toNat % signWeight

def isNegative (x : Double) : Bool := decide (signWeight ≤ x.bits.toNat)

def isNaN (x : Double) : Bool := decide (infinite < x.magnitude)

def isFinite (x : Double) : Bool := decide (x.magnitude < infinite)

def isZero (x : Double) : Bool := x.magnitude == 0

def zero (negative : Bool) : Double := ofMagnitude negative 0

def infinity (negative : Bool) : Double := ofMagnitude negative infinite

/-- What arithmetic without a numeric result gives. -/
def notANumber : Double := ofMagnitude true 0x7ff8000000000000

/-- The quotient of zero, or of something not a number, by zero. It is one fixed
value, the only one that is not a number and yet counts as unchanged when it
replaces itself. -/
def undefinedQuotient : Double := ofMagnitude false 0x7ff8000000000000

/-! Units. The magnitude bits are `spread * exponentWeight + significand`; the
significand is below `2 * exponentWeight`, and at least `exponentWeight` unless
the spread is zero. -/

def spread (x : Double) : Nat := x.magnitude / exponentWeight - 1

def significand (x : Double) : Nat := x.magnitude - x.spread * exponentWeight

/-- How many units of 2^-1074 the magnitude is. Infinity counts as 2^1024. -/
def units (x : Double) : Nat := x.significand * Nat.pow 2 x.spread

def signedUnits (x : Double) : Int := if x.isNegative then -(x.units : Int) else x.units

/-- Equality of numbers: the two zeros are equal, and nothing equals what is not a number. -/
def equals (x y : Double) : Bool :=
  !x.isNaN && !y.isNaN && x.signedUnits == y.signedUnits

def equalsInt (x : Double) (n : Int) : Bool :=
  x.isFinite && x.signedUnits == n * (unitsPerOne : Int)

/-! Arithmetic. -/

def toFloat (x : Double) : Float := Float.ofBits x.bits

def ofFloat (f : Float) : Double := if f.isNaN then notANumber else ⟨f.toBits⟩

def add (x y : Double) : Double := ofFloat (x.toFloat + y.toFloat)

def sub (x y : Double) : Double := ofFloat (x.toFloat - y.toFloat)

def mul (x y : Double) : Double := ofFloat (x.toFloat * y.toFloat)

/-- Division by zero is not an error: it gives a signed infinity, or the undefined quotient. -/
def div (x y : Double) : Double :=
  if y.isZero then
    if x.isZero || x.isNaN then undefinedQuotient
    else infinity (x.isNegative != y.isNegative)
  else ofFloat (x.toFloat / y.toFloat)

def neg (x : Double) : Double :=
  if x.isNaN then notANumber else ofMagnitude (!x.isNegative) x.magnitude

theorem bits_toNat_ofMagnitude (s : Bool) {m : Nat} (h : m < signWeight) :
    (ofMagnitude s m).bits.toNat = (if s then signWeight else 0) + m := by
  simp only [ofMagnitude, UInt64.toNat_ofNat']
  unfold signWeight at *
  exact Nat.mod_eq_of_lt (by split <;> omega)

theorem magnitude_ofMagnitude (s : Bool) {m : Nat} (h : m < signWeight) :
    (ofMagnitude s m).magnitude = m := by
  rw [magnitude, bits_toNat_ofMagnitude s h]
  unfold signWeight at *
  split <;> omega

theorem isNegative_ofMagnitude (s : Bool) {m : Nat} (h : m < signWeight) :
    (ofMagnitude s m).isNegative = s := by
  rw [isNegative, bits_toNat_ofMagnitude s h]
  unfold signWeight at *
  cases s
  · simpa using h
  · simp

theorem ofMagnitude_magnitude (x : Double) : ofMagnitude x.isNegative x.magnitude = x := by
  obtain ⟨b⟩ := x
  have hb : (if signWeight ≤ b.toNat then signWeight else 0) + b.toNat % signWeight = b.toNat := by
    have := b.toNat_lt
    unfold signWeight
    split <;> omega
  simp only [ofMagnitude, isNegative, magnitude, decide_eq_true_eq, hb]
  simp

end Double

end FormulaEntry
