import Stencil.Number.Binary64

/-!
Reading numbers from text: digit runs, bounded integers and doubles.
-/

namespace Stencil.Numeral

def ofDigits (digits : List Char) : Nat :=
  digits.foldl (fun n c => 10 * n + (c.toNat - '0'.toNat)) 0

/-- A non-empty run of decimal digits and nothing else. -/
def natural? (s : List Char) : Option Nat :=
  if !s.isEmpty && s.all Char.isDigit then some (ofDigits s) else none

/-- One more than the largest unsigned number of 64 bits. -/
def unsignedLimit : Nat := 0x10000000000000000

/-- One more than the largest signed number of 64 bits. -/
def signedLimit : Nat := 0x8000000000000000

/-- An unsigned number of 64 bits, after an optional plus sign. -/
def unsigned? (s : List Char) : Option Nat := do
  let n ← natural? (match s with | '+' :: digits => digits | digits => digits)
  if n < unsignedLimit then some n else none

def inRange? (i : Int) : Option Int64 :=
  if Int64.minValue.toInt ≤ i ∧ i ≤ Int64.maxValue.toInt then some (Int64.ofInt i) else none

/-- A signed number of 64 bits, after an optional sign. -/
def signed? (s : List Char) : Option Int64 := do
  match s with
  | '-' :: digits => inRange? (-(← natural? digits))
  | '+' :: digits => inRange? (← natural? digits)
  | digits => inRange? (← natural? digits)

def sign : List Char → Bool × List Char
  | '-' :: s => (true, s)
  | '+' :: s => (false, s)
  | s => (false, s)

/-- A decimal exponent: nothing, or `e`, an optional sign and digits. -/
def exponent? : List Char → Option Int
  | [] => some 0
  | c :: s =>
      if c = 'e' ∨ c = 'E' then
        let (negative, digits) := sign s
        (natural? digits).map fun n => if negative then -(n : Int) else n
      else none

/-- Digits with an optional point, at least one digit on either side, and an
optional exponent. -/
def magnitude? (negative : Bool) (s : List Char) : Option Binary64 :=
  let whole := s.takeWhile Char.isDigit
  let rest := s.dropWhile Char.isDigit
  let (fraction, rest) := match rest with
    | '.' :: rest => (rest.takeWhile Char.isDigit, rest.dropWhile Char.isDigit)
    | rest => ([], rest)
  if whole.isEmpty && fraction.isEmpty then none
  else (exponent? rest).map fun e =>
    Binary64.ofDecimal negative (ofDigits (whole ++ fraction)) (e - fraction.length)

/-- A double: an optional sign, then a decimal, `inf`, `infinity` or `nan` in
any case. -/
def double? (s : List Char) : Option Binary64 :=
  let (negative, rest) := sign s
  let word := String.ofList (rest.map Char.toLower)
  if word = "inf" ∨ word = "infinity" then some (.infinite negative)
  else if word = "nan" then some .nan
  else magnitude? negative rest

end Stencil.Numeral
