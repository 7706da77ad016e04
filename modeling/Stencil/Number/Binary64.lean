/-!
Double precision numbers as exact values. A finite magnitude is given by its
code, the biased exponent times 2^52 plus the fraction: codes are consecutive
and ordered like the magnitudes, and the unit in which all of them are whole
is 2^-1074. Rounding is to nearest with ties to the even code.
-/

namespace Stencil

namespace Binary64

/-- The number of fractions, 2^52: codes come in runs of this length, and inside
a run neighbours are equally far apart. -/
def fractionCount : Nat := 0x10000000000000

def codeCount : Nat := 2047 * fractionCount

end Binary64

/-- A double precision number. There is one NaN; zeros have a sign. -/
inductive Binary64 where
  | nan
  | infinite (negative : Bool)
  | finite (negative : Bool) (code : Fin Binary64.codeCount)
  deriving DecidableEq

namespace Binary64

def unitsPerOne : Nat := Nat.pow 2 1074

def units (code : Nat) : Nat :=
  if code < fractionCount then code
  else (fractionCount + code % fractionCount) * Nat.pow 2 (code / fractionCount - 1)

def floorCode (n : Nat) : Nat :=
  let exponent := n.log2 - 52
  exponent * fractionCount + n / Nat.pow 2 exponent

/-- The code or the next one, by how a number compares with the middle between
them. -/
def roundCode (low : Nat) (middle : Ordering) : Nat :=
  match middle with
  | .lt => low
  | .gt => low + 1
  | .eq => if low % 2 = 0 then low else low + 1

/-- The code nearest to `numerator / denominator` units. -/
def nearestCode (numerator denominator : Nat) : Nat :=
  let low := floorCode (numerator / denominator)
  roundCode low (compare (2 * numerator) ((units low + units (low + 1)) * denominator))

/-- The number with a code, infinite past the largest one. -/
def ofCode (negative : Bool) (code : Nat) : Binary64 :=
  if h : code < codeCount then finite negative ⟨code, h⟩ else infinite negative

/-- The number nearest to `± numerator / denominator` units. -/
def ofUnits (negative : Bool) (numerator : Nat) (denominator : Nat) : Binary64 :=
  ofCode negative (nearestCode numerator denominator)

def zero (negative : Bool) : Binary64 :=
  ofCode negative 0

def ofInt (i : Int) : Binary64 :=
  ofUnits (i < 0) (i.natAbs * unitsPerOne) 1

/-- The number nearest to `± digits * 10 ^ exponent`. Above 10^400 all is
infinite and below 10^-400 all is zero, so no larger power is computed. -/
def ofDecimal (negative : Bool) (digits : Nat) (exponent : Int) : Binary64 :=
  if digits = 0 then zero negative
  else if exponent > 400 then infinite negative
  else if exponent + digits.log2 + 1 < -400 then zero negative
  else if 0 ≤ exponent then ofUnits negative (digits * Nat.pow 10 exponent.toNat * unitsPerOne) 1
  else ofUnits negative (digits * unitsPerOne) (Nat.pow 10 (-exponent).toNat)

def signedUnits (negative : Bool) (code : Nat) : Int :=
  if negative then -(units code : Int) else units code

/-- The sum of two numbers, rounded once. Opposite numbers add to positive
zero. -/
def add : Binary64 → Binary64 → Binary64
  | nan, _ => nan
  | _, nan => nan
  | infinite n, infinite m => if n = m then infinite n else nan
  | infinite n, finite .. => infinite n
  | finite .., infinite m => infinite m
  | finite n a, finite m b =>
      let sum := signedUnits n a + signedUnits m b
      if sum = 0 then zero (n && m) else ofUnits (sum < 0) sum.natAbs 1

/-- Numerical equality: zeros are equal whatever their sign, and NaN differs
from itself. -/
def equals : Binary64 → Binary64 → Bool
  | infinite n, infinite m => n == m
  | finite n a, finite m b => a == b && (n == m || a.val == 0)
  | _, _ => false

def isZero : Binary64 → Bool
  | finite _ code => code.val == 0
  | _ => false

def isNaN : Binary64 → Bool
  | nan => true
  | _ => false

/-- The integer that a finite number without fraction denotes. -/
def integer? : Binary64 → Option Int
  | finite negative code =>
      let whole := units code / unitsPerOne
      if units code % unitsPerOne = 0 then some (if negative then -(whole : Int) else whole)
      else none
  | _ => none

end Binary64

end Stencil
