import Stencil.Text.Units16

/-!
UTF-8 bytes to text. Every longest beginning of a character that cannot be
completed becomes one U+FFFD.
-/

namespace Stencil.Text

def toOctets (s : List Char) : List UInt8 :=
  s.flatMap String.utf8EncodeChar

def isContinuation (b : UInt8) : Bool :=
  0x80 ≤ b && b < 0xc0

/-- The low six bits, which a continuation byte carries. -/
def payloadOf (b : UInt8) : Nat :=
  b.toNat % 0x40

/-- What may follow the first byte of a three-byte character: no overlong
form and no surrogate. -/
def continuesThree (first second : UInt8) : Bool :=
  isContinuation second &&
    (first != 0xe0 || 0xa0 ≤ second) && (first != 0xed || second < 0xa0)

/-- What may follow the first byte of a four-byte character: no overlong form
and nothing above U+10FFFF. -/
def continuesFour (first second : UInt8) : Bool :=
  isContinuation second &&
    (first != 0xf0 || 0x90 ≤ second) && (first != 0xf4 || second < 0x90)

/-- Decodes one character: itself and the number of bytes it takes. -/
def decodeOctet (b : UInt8) (rest : List UInt8) : Char × Nat :=
  if b < 0x80 then (Char.ofNat b.toNat, 1)
  else if 0xc2 ≤ b && b < 0xe0 then
    match rest with
    | b₂ :: _ =>
        if isContinuation b₂ then (Char.ofNat ((b.toNat - 0xc0) * 0x40 + payloadOf b₂), 2)
        else (replacement, 1)
    | [] => (replacement, 1)
  else if 0xe0 ≤ b && b < 0xf0 then
    match rest with
    | b₂ :: b₃ :: _ =>
        if !continuesThree b b₂ then (replacement, 1)
        else if !isContinuation b₃ then (replacement, 2)
        else (Char.ofNat (((b.toNat - 0xe0) * 0x40 + payloadOf b₂) * 0x40 + payloadOf b₃), 3)
    | [b₂] => (replacement, if continuesThree b b₂ then 2 else 1)
    | [] => (replacement, 1)
  else if 0xf0 ≤ b && b < 0xf5 then
    match rest with
    | b₂ :: b₃ :: b₄ :: _ =>
        if !continuesFour b b₂ then (replacement, 1)
        else if !isContinuation b₃ then (replacement, 2)
        else if !isContinuation b₄ then (replacement, 3)
        else (Char.ofNat ((((b.toNat - 0xf0) * 0x40 + payloadOf b₂) * 0x40 + payloadOf b₃) * 0x40
          + payloadOf b₄), 4)
    | [b₂, b₃] =>
        (replacement,
          if !continuesFour b b₂ then 1 else if !isContinuation b₃ then 2 else 3)
    | [b₂] => (replacement, if continuesFour b b₂ then 2 else 1)
    | [] => (replacement, 1)
  else (replacement, 1)

def ofOctets : List UInt8 → List Char
  | [] => []
  | b :: rest =>
      let (c, taken) := decodeOctet b rest
      c :: ofOctets (rest.drop (taken - 1))
termination_by bytes => bytes.length
decreasing_by simp only [List.length_drop, List.length_cons]; omega

/-- Decodes bytes that are UTF-8 throughout. Bytes are valid exactly if
nothing was replaced, that is if encoding the result gives them back. -/
def ofOctets? (bytes : List UInt8) : Option (List Char) :=
  let s := ofOctets bytes
  if toOctets s = bytes then some s else none

end Stencil.Text
