/-!
UTF-16: a character is one unit, or two above U+FFFF. Reading replaces every
unpaired surrogate by U+FFFD.
-/

namespace Stencil.Text

def unitsOf (c : Char) : List UInt16 :=
  let n := c.toNat
  if n < 0x10000 then [n.toUInt16]
  else
    let offset := n - 0x10000
    [(0xd800 + offset / 0x400).toUInt16, (0xdc00 + offset % 0x400).toUInt16]

def toUnits (s : List Char) : List UInt16 :=
  s.flatMap unitsOf

def unitCount : List Char → Nat
  | [] => 0
  | c :: s => (if c.toNat < 0x10000 then 1 else 2) + unitCount s

/-- The character that stands for what cannot be decoded. -/
def replacement : Char := '\ufffd'

def isLeading (u : UInt16) : Bool :=
  0xd800 ≤ u && u < 0xdc00

def isTrailing (u : UInt16) : Bool :=
  0xdc00 ≤ u && u < 0xe000

def ofPair (leading trailing : UInt16) : Char :=
  Char.ofNat (0x10000 + (leading.toNat - 0xd800) * 0x400 + (trailing.toNat - 0xdc00))

/-- Decodes units. A surrogate without its partner becomes `replacement`. -/
def ofUnits : List UInt16 → List Char
  | [] => []
  | [u] => [if isLeading u || isTrailing u then replacement else Char.ofNat u.toNat]
  | u :: v :: rest =>
      if isLeading u then
        if isTrailing v then ofPair u v :: ofUnits rest
        else replacement :: ofUnits (v :: rest)
      else (if isTrailing u then replacement else Char.ofNat u.toNat) :: ofUnits (v :: rest)

end Stencil.Text
