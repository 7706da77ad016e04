import Stencil.Number.Binary64

/-!
The shortest decimal of a double: the fewest digits that read back as the same
number, and of those the nearest to it. `DoubleFormat` says how the digits are
laid out.
-/

namespace Stencil

/-- The number `digits * 10 ^ exponent`. -/
structure Decimal where
  digits : Nat
  exponent : Int
  deriving DecidableEq

/-- Which neighbour a value halfway between two decimals goes to. -/
inductive Tie where
  | up
  | even

namespace Decimal

/-- The same number with no zero at the end of its digits. -/
def normalize (d : Decimal) : Decimal :=
  if h : d.digits ≠ 0 ∧ d.digits % 10 = 0 then
    normalize ⟨d.digits / 10, d.exponent + 1⟩
  else d
termination_by d.digits
decreasing_by omega

end Decimal

namespace Binary64

/-- Ten to the power `exponent` is at most `n` units. -/
def reaches (n : Nat) (exponent : Int) : Bool :=
  if 0 ≤ exponent then Nat.pow 10 exponent.toNat * unitsPerOne ≤ n
  else unitsPerOne ≤ n * Nat.pow 10 (-exponent).toNat

/-- The largest power of ten that is at most `n` units, estimated from the
binary length and corrected by one. -/
def decimalMagnitude (n : Nat) : Int :=
  let estimate := ((n.log2 : Int) - 1074) * 30103 / 100000
  if reaches n (estimate + 1) then estimate + 1
  else if reaches n estimate then estimate
  else estimate - 1

/-- The decimal `digits * 10 ^ exponent` reads back as this code. -/
def readsBack (code digits : Nat) (exponent : Int) : Bool :=
  ofDecimal false digits exponent == ofCode false code

/-- The neighbours of `n` units on the grid of multiples of `10 ^ exponent`:
the multiple below, and how `n` compares with the middle between it and the
next one. -/
def gridBelow (n : Nat) (exponent : Int) : Nat × Ordering :=
  let (numerator, denominator) :=
    if 0 ≤ exponent then (n, unitsPerOne * Nat.pow 10 exponent.toNat)
    else (n * Nat.pow 10 (-exponent).toNat, unitsPerOne)
  let below := numerator / denominator
  (below, compare (2 * numerator) ((2 * below + 1) * denominator))

/-- The multiple of `10 ^ exponent` nearest to the number among those that
read back as it. -/
def onGrid? (tie : Tie) (code : Nat) (exponent : Int) : Option Decimal :=
  let (below, middle) := gridBelow (units code) exponent
  let lower := if readsBack code below exponent then some ⟨below, exponent⟩ else none
  let upper := if readsBack code (below + 1) exponent then some ⟨below + 1, exponent⟩ else none
  let upperFirst := match middle with
    | .lt => false
    | .gt => true
    | .eq => match tie with
      | .up => true
      | .even => below % 2 == 1
  if upperFirst then upper.or lower else lower.or upper

def exactDecimal (code : Nat) : Decimal :=
  ⟨units code * Nat.pow 5 1074, -1074⟩

/-- The shortest decimal of a magnitude: the first grid of one to seventeen
digits that has a point that reads back. -/
def shortest (tie : Tie) (code : Nat) : Decimal :=
  let magnitude := decimalMagnitude (units code)
  (((List.range 17).findSome? fun (n : Nat) => onGrid? tie code (magnitude - n)).getD
    (exactDecimal code)).normalize

end Binary64

/-- How the text of a double is laid out. -/
structure DoubleFormat where
  /-- Where a value halfway between two shortest decimals goes. -/
  tie : Tie
  /-- The decimal exponents from the first to before the second are written
  without an exponent; `none` means all are. -/
  positional : Option (Int × Int)
  /-- A whole number gets a zero after the point. -/
  alwaysPoint : Bool

namespace DoubleFormat

private def zeros (n : Nat) : List Char :=
  List.replicate n '0'

/-- Digits with a point in place: `digits * 10 ^ exponent` without exponent. -/
def positionalText (format : DoubleFormat) (digits : List Char) (exponent : Int) : List Char :=
  let whole := digits.length + exponent
  if 0 ≤ exponent then
    digits ++ zeros exponent.toNat ++ (if format.alwaysPoint then ['.', '0'] else [])
  else if 0 < whole then digits.take whole.toNat ++ '.' :: digits.drop whole.toNat
  else '0' :: '.' :: zeros (-whole).toNat ++ digits

/-- One digit, the others after a point, and a signed exponent. -/
def scientificText (digits : List Char) (exponent : Int) : List Char :=
  let power := digits.length + exponent - 1
  let fraction := match digits.drop 1 with
    | [] => []
    | rest => '.' :: rest
  digits.take 1 ++ fraction ++ 'e' :: (if 0 ≤ power then '+' else '-') ::
    (toString power.natAbs).toList

def magnitudeText (format : DoubleFormat) (code : Nat) : List Char :=
  if code = 0 then positionalText format ['0'] 0
  else
    let decimal := Binary64.shortest format.tie code
    let digits := (toString decimal.digits).toList
    let power := digits.length + decimal.exponent - 1
    let inside := match format.positional with
      | none => true
      | some (first, stop) => first ≤ power && power < stop
    if inside then positionalText format digits decimal.exponent
    else scientificText digits decimal.exponent

def finiteText (format : DoubleFormat) (negative : Bool) (code : Nat) : String :=
  String.ofList ((if negative then ['-'] else []) ++ magnitudeText format code)

end DoubleFormat

end Stencil
