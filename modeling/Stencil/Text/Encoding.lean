import Stencil.Text.Octets

/-!
The byte encodings of rendered output.
-/

namespace Stencil

/-- Byte encoding of rendered output. -/
inductive Encoding where
  | utf8
  | utf16le
  | utf16be
  deriving DecidableEq

namespace Encoding

open Text

def littleEndian (u : UInt16) : List UInt8 :=
  [u.toUInt8, (u >>> 8).toUInt8]

def bigEndian (u : UInt16) : List UInt8 :=
  [(u >>> 8).toUInt8, u.toUInt8]

/-- The units of two bytes each, in the order given by `join`; an odd last
byte is dropped. -/
def pairUp (join : UInt8 → UInt8 → UInt16) : List UInt8 → List UInt16
  | first :: second :: rest => join first second :: pairUp join rest
  | _ => []

def joinBytes (high low : UInt8) : UInt16 :=
  high.toUInt16 <<< 8 ||| low.toUInt16

def encode (encoding : Encoding) (text : String) : List UInt8 :=
  match encoding with
  | utf8 => toOctets text.toList
  | utf16le => (toUnits text.toList).flatMap littleEndian
  | utf16be => (toUnits text.toList).flatMap bigEndian

/-- The number of bytes of a text, without encoding it. -/
def encodedSize (encoding : Encoding) (text : String) : Nat :=
  match encoding with
  | utf8 => text.utf8ByteSize
  | utf16le | utf16be => 2 * unitCount text.toList

/-- The text of bytes; what cannot be decoded is replaced. -/
def decode (encoding : Encoding) (bytes : List UInt8) : String :=
  String.ofList <| match encoding with
    | utf8 => ofOctets bytes
    | utf16le => ofUnits (pairUp (fun low high => joinBytes high low) bytes)
    | utf16be => ofUnits (pairUp joinBytes bytes)

end Encoding

end Stencil
