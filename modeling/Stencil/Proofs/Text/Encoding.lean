import Stencil.Text.Encoding

/-!
Encoding texts one after another, and the number of bytes that a text takes.
-/

namespace Stencil.Encoding

open Text

variable (encoding : Encoding)

@[simp] theorem encode_empty : encoding.encode "" = [] := by
  cases encoding <;> rfl

theorem encode_append (first second : String) :
    encoding.encode (first ++ second) = encoding.encode first ++ encoding.encode second := by
  cases encoding with
  | utf8 => simp [encode, toOctets]
  | utf16le | utf16be => simp [encode, Text.toUnits]

theorem length_toUnits (s : List Char) : (toUnits s).length = unitCount s := by
  induction s with
  | nil => rfl
  | cons c s ih =>
      have hunits : (unitsOf c).length = if c.toNat < 0x10000 then 1 else 2 := by
        simp only [unitsOf]
        split <;> rfl
      rw [unitCount, ← hunits, ← ih, Text.toUnits, List.flatMap_cons, List.length_append]
      rfl

theorem length_flatMap_pair (bytes : UInt16 → List UInt8) (hbytes : ∀ u, (bytes u).length = 2)
    (units : List UInt16) : (units.flatMap bytes).length = 2 * units.length := by
  induction units with
  | nil => rfl
  | cons u units ih =>
      rw [List.flatMap_cons, List.length_append, hbytes, ih, List.length_cons]
      omega

/-- The size that is computed without encoding is that of the bytes. -/
theorem encodedSize_eq (text : String) :
    encoding.encodedSize text = (encoding.encode text).length := by
  cases encoding with
  | utf8 =>
      have hbytes : text.toByteArray = (text.toList.flatMap String.utf8EncodeChar).toByteArray := by
        conv => lhs; rw [← String.ofList_toList (s := text)]
        rfl
      rw [encodedSize, ← String.size_toByteArray, hbytes]
      simp [encode, toOctets]
  | utf16le =>
      rw [encodedSize, encode, length_flatMap_pair _ (fun u => rfl), length_toUnits]
  | utf16be =>
      rw [encodedSize, encode, length_flatMap_pair _ (fun u => rfl), length_toUnits]

/-- The bytes of texts one after another. -/
def encodeAll (texts : List String) : List UInt8 :=
  texts.flatMap encoding.encode

theorem encodeAll_append (first second : List String) :
    encoding.encodeAll (first ++ second) =
      encoding.encodeAll first ++ encoding.encodeAll second := by
  rw [encodeAll, List.flatMap_append]
  rfl

theorem encodeAll_cons (text : String) (texts : List String) :
    encoding.encodeAll (text :: texts) = encoding.encode text ++ encoding.encodeAll texts := rfl

theorem encodeAll_eq (texts : List String) :
    encoding.encodeAll texts = encoding.encode (String.join texts) := by
  induction texts with
  | nil => exact encoding.encode_empty.symm
  | cons text texts ih => rw [encodeAll_cons, ih, String.join_cons, encode_append]

end Stencil.Encoding
