import Mathlib.Data.List.Basic
import Stencil.Text.Encoding

/-!
Decoding gives back the text that was encoded. A character's bytes, or its
units, are decoded as the character whatever follows them, so that the texts of
several pieces are read as one.
-/

namespace Stencil

namespace Text

/-- A byte that carries six bits of a character is read as one. -/
theorem isContinuation_ofNat (n : Nat) : isContinuation (UInt8.ofNat (n % 64 + 128)) = true := by
  simp only [isContinuation, Bool.and_eq_true, decide_eq_true_eq, UInt8.le_iff_toNat_le,
    UInt8.lt_iff_toNat_lt, UInt8.toNat_ofNat', UInt8.reduceToNat]
  omega

theorem payloadOf_ofNat (n : Nat) : payloadOf (UInt8.ofNat (n % 64 + 128)) = n % 64 := by
  simp only [payloadOf, UInt8.toNat_ofNat']
  omega

theorem toNat_ofNat_of_lt {n : Nat} (h : n < 256) : (UInt8.ofNat n).toNat = n := by
  rw [UInt8.toNat_ofNat']
  exact Nat.mod_eq_of_lt h

section

variable {b b₂ b₃ b₄ : UInt8} {rest : List UInt8}

theorem decodeOctet_one (hb : b.toNat < 0x80) :
    decodeOctet b rest = (Char.ofNat b.toNat, 1) := by
  simp [decodeOctet, UInt8.lt_iff_toNat_lt, hb]

theorem decodeOctet_two (hlow : 0xc2 ≤ b.toNat) (hhigh : b.toNat < 0xe0)
    (h₂ : isContinuation b₂ = true) :
    decodeOctet b (b₂ :: rest) = (Char.ofNat ((b.toNat - 0xc0) * 0x40 + payloadOf b₂), 2) := by
  have hone : ¬b.toNat < 0x80 := by omega
  simp [decodeOctet, UInt8.lt_iff_toNat_lt, UInt8.le_iff_toNat_le, hone, hlow, hhigh, h₂]

theorem decodeOctet_three (hlow : 0xe0 ≤ b.toNat) (hhigh : b.toNat < 0xf0)
    (h₂ : continuesThree b b₂ = true) (h₃ : isContinuation b₃ = true) :
    decodeOctet b (b₂ :: b₃ :: rest) =
      (Char.ofNat (((b.toNat - 0xe0) * 0x40 + payloadOf b₂) * 0x40 + payloadOf b₃), 3) := by
  have hone : ¬b.toNat < 0x80 := by omega
  have htwo : ¬b.toNat < 0xe0 := by omega
  simp [decodeOctet, UInt8.lt_iff_toNat_lt, UInt8.le_iff_toNat_le, hone, htwo, hlow, hhigh, h₂, h₃]

theorem decodeOctet_four (hlow : 0xf0 ≤ b.toNat) (hhigh : b.toNat < 0xf5)
    (h₂ : continuesFour b b₂ = true) (h₃ : isContinuation b₃ = true)
    (h₄ : isContinuation b₄ = true) :
    decodeOctet b (b₂ :: b₃ :: b₄ :: rest) =
      (Char.ofNat ((((b.toNat - 0xf0) * 0x40 + payloadOf b₂) * 0x40 + payloadOf b₃) * 0x40 +
        payloadOf b₄), 4) := by
  have hone : ¬b.toNat < 0x80 := by omega
  have htwo : ¬b.toNat < 0xe0 := by omega
  have hthree : ¬b.toNat < 0xf0 := by omega
  simp [decodeOctet, UInt8.lt_iff_toNat_lt, UInt8.le_iff_toNat_le, hone, htwo, hthree, hlow, hhigh,
    h₂, h₃, h₄]

end

/-- No three-byte form is overlong or a surrogate. -/
theorem continuesThree_ofNat {n : Nat} (hlow : 0x7ff < n) (hhigh : n ≤ 0xffff)
    (hrange : n < 0xd800 ∨ 0xdfff < n) :
    continuesThree (UInt8.ofNat (n / 4096 % 16 + 224)) (UInt8.ofNat (n / 64 % 64 + 128)) =
      true := by
  have hnext := isContinuation_ofNat (n / 64)
  simp only [continuesThree, hnext, Bool.true_and, Bool.and_eq_true, Bool.or_eq_true,
    decide_eq_true_eq, bne_iff_ne, ne_eq, UInt8.le_iff_toNat_le, UInt8.lt_iff_toNat_lt,
    ← UInt8.toNat_inj, UInt8.toNat_ofNat', UInt8.reduceToNat]
  omega

/-- No four-byte form is overlong or above the last character. -/
theorem continuesFour_ofNat {n : Nat} (hlow : 0xffff < n) (hhigh : n < 0x110000) :
    continuesFour (UInt8.ofNat (n / 262144 % 8 + 240)) (UInt8.ofNat (n / 4096 % 64 + 128)) =
      true := by
  have hnext := isContinuation_ofNat (n / 4096)
  simp only [continuesFour, hnext, Bool.true_and, Bool.and_eq_true, Bool.or_eq_true,
    decide_eq_true_eq, bne_iff_ne, ne_eq, UInt8.le_iff_toNat_le, UInt8.lt_iff_toNat_lt,
    ← UInt8.toNat_inj, UInt8.toNat_ofNat', UInt8.reduceToNat]
  omega

/-- The bytes of a character are decoded as the character, whatever follows. -/
theorem decodeOctet_utf8EncodeChar (c : Char) (rest : List UInt8) :
    ∃ b bytes, String.utf8EncodeChar c = b :: bytes ∧
      decodeOctet b (bytes ++ rest) = (c, bytes.length + 1) := by
  have hrange : c.val.toNat < 0xd800 ∨ 0xdfff < c.val.toNat ∧ c.val.toNat < 0x110000 := c.valid
  have hofNat : Char.ofNat c.val.toNat = c := Char.ofNat_toNat c
  simp only [String.utf8EncodeChar]
  generalize c.val.toNat = n at hrange hofNat
  -- one case for each number of bytes
  split
  · have hlead : (UInt8.ofNat n).toNat = n := toNat_ofNat_of_lt (by omega)
    refine ⟨_, [], rfl, ?_⟩
    rw [decodeOctet_one (by omega), hlead, hofNat]
    rfl
  split
  · have hlead : (UInt8.ofNat (n / 64 % 32 + 192)).toNat = n / 64 % 32 + 192 :=
      toNat_ofNat_of_lt (by omega)
    have hvalue : (n / 64 % 32 + 192 - 0xc0) * 0x40 + n % 64 = n := by omega
    refine ⟨_, _, rfl, ?_⟩
    rw [List.singleton_append, decodeOctet_two (by omega) (by omega) (isContinuation_ofNat n),
      payloadOf_ofNat, hlead, hvalue, hofNat]
    rfl
  split
  · have hlead : (UInt8.ofNat (n / 4096 % 16 + 224)).toNat = n / 4096 % 16 + 224 :=
      toNat_ofNat_of_lt (by omega)
    have hsecond := continuesThree_ofNat (n := n) (by omega) (by omega) (by omega)
    have hvalue : ((n / 4096 % 16 + 224 - 0xe0) * 0x40 + n / 64 % 64) * 0x40 + n % 64 = n := by
      omega
    refine ⟨_, _, rfl, ?_⟩
    rw [List.cons_append, List.singleton_append,
      decodeOctet_three (by omega) (by omega) hsecond (isContinuation_ofNat n),
      payloadOf_ofNat, payloadOf_ofNat, hlead, hvalue, hofNat]
    rfl
  · have hlead : (UInt8.ofNat (n / 262144 % 8 + 240)).toNat = n / 262144 % 8 + 240 :=
      toNat_ofNat_of_lt (by omega)
    have hsecond := continuesFour_ofNat (n := n) (by omega) (by omega)
    have hvalue : (((n / 262144 % 8 + 240 - 0xf0) * 0x40 + n / 4096 % 64) * 0x40 +
        n / 64 % 64) * 0x40 + n % 64 = n := by
      omega
    refine ⟨_, _, rfl, ?_⟩
    rw [List.cons_append, List.cons_append, List.singleton_append,
      decodeOctet_four (by omega) (by omega) hsecond (isContinuation_ofNat _)
        (isContinuation_ofNat n),
      payloadOf_ofNat, payloadOf_ofNat, payloadOf_ofNat, hlead, hvalue, hofNat]
    rfl

theorem ofOctets_toOctets (s : List Char) : ofOctets (toOctets s) = s := by
  induction s with
  | nil => simp [toOctets, ofOctets]
  | cons c s ih =>
      obtain ⟨b, bytes, hbytes, hdecode⟩ := decodeOctet_utf8EncodeChar c (toOctets s)
      have hoctets : toOctets (c :: s) = b :: (bytes ++ toOctets s) := by
        rw [toOctets, List.flatMap_cons, hbytes]
        rfl
      rw [hoctets, ofOctets, hdecode]
      simp only [Nat.add_sub_cancel, List.drop_left, ih]

variable {u v : UInt16}

/-- A unit that is no half of a pair stands for itself. -/
theorem ofUnits_single (hlead : isLeading u = false) (htrail : isTrailing u = false)
    (rest : List UInt16) : ofUnits (u :: rest) = Char.ofNat u.toNat :: ofUnits rest := by
  cases rest with
  | nil => simp [ofUnits, hlead, htrail]
  | cons v rest => simp [ofUnits, hlead, htrail]

theorem ofUnits_pair (hlead : isLeading u = true) (htrail : isTrailing v = true)
    (rest : List UInt16) : ofUnits (u :: v :: rest) = ofPair u v :: ofUnits rest := by
  simp [ofUnits, hlead, htrail]

/-- The units of a character are decoded as the character, whatever follows. -/
theorem ofUnits_unitsOf (c : Char) (rest : List UInt16) :
    ofUnits (unitsOf c ++ rest) = c :: ofUnits rest := by
  have hrange : c.toNat < 0xd800 ∨ 0xdfff < c.toNat ∧ c.toNat < 0x110000 := c.valid
  have hofNat := Char.ofNat_toNat c
  simp only [unitsOf]
  generalize c.toNat = n at hrange hofNat
  split
  · have hunit : n.toUInt16.toNat = n := by
      rw [Nat.toUInt16, UInt16.toNat_ofNat']
      omega
    rw [List.singleton_append, ofUnits_single, hunit, hofNat]
    all_goals
      simp only [isLeading, isTrailing, UInt16.le_iff_toNat_le, UInt16.lt_iff_toNat_lt, hunit,
        UInt16.reduceToNat, Bool.and_eq_false_iff, decide_eq_false_iff_not]
      omega
  · have hlead : (0xd800 + (n - 0x10000) / 0x400).toUInt16.toNat =
        0xd800 + (n - 0x10000) / 0x400 := by
      rw [Nat.toUInt16, UInt16.toNat_ofNat']
      omega
    have htrail : (0xdc00 + (n - 0x10000) % 0x400).toUInt16.toNat =
        0xdc00 + (n - 0x10000) % 0x400 := by
      rw [Nat.toUInt16, UInt16.toNat_ofNat']
      omega
    have hvalue : 0x10000 + (0xd800 + (n - 0x10000) / 0x400 - 0xd800) * 0x400 +
        (0xdc00 + (n - 0x10000) % 0x400 - 0xdc00) = n := by omega
    rw [List.cons_append, List.singleton_append, ofUnits_pair, ofPair, hlead, htrail, hvalue,
      hofNat]
    all_goals
      simp only [isLeading, isTrailing, UInt16.le_iff_toNat_le, UInt16.lt_iff_toNat_lt, hlead,
        htrail, UInt16.reduceToNat, Bool.and_eq_true, decide_eq_true_eq]
      omega

theorem ofUnits_toUnits (s : List Char) : ofUnits (toUnits s) = s := by
  induction s with
  | nil => rfl
  | cons c s ih =>
      have hunits : toUnits (c :: s) = unitsOf c ++ toUnits s := List.flatMap_cons
      rw [hunits, ofUnits_unitsOf, ih]

end Text

namespace Encoding

open Text

/-- The two bytes of a unit make it up again. -/
theorem joinBytes_bytes (u : UInt16) : joinBytes (u >>> 8).toUInt8 u.toUInt8 = u := by
  have hbound : u.toNat < 2 ^ 16 := u.toNat_lt
  have hlow : u.toNat % 2 ^ 8 < 2 ^ 8 := Nat.mod_lt _ (by omega)
  have hhigh : (u.toNat / 2 ^ 8 % 2 ^ 8) <<< 8 % 2 ^ 16 = (u.toNat / 2 ^ 8) <<< 8 := by
    rw [Nat.shiftLeft_eq, Nat.shiftLeft_eq]
    omega
  have hor := Nat.shiftLeft_add_eq_or_of_lt hlow (u.toNat / 2 ^ 8)
  rw [← UInt16.toNat_inj]
  simp only [joinBytes, UInt16.toNat_or, UInt16.toNat_shiftLeft, UInt8.toNat_toUInt16,
    UInt16.toNat_toUInt8, UInt16.toNat_shiftRight, UInt16.reduceToNat, Nat.shiftRight_eq_div_pow,
    Nat.reduceMod]
  rw [hhigh, ← hor, Nat.shiftLeft_eq]
  omega

theorem pairUp_flatMap (join : UInt8 → UInt8 → UInt16) (bytes : UInt16 → List UInt8)
    (hbytes : ∀ u, ∃ first second, bytes u = [first, second] ∧ join first second = u)
    (units : List UInt16) : pairUp join (units.flatMap bytes) = units := by
  induction units with
  | nil => rfl
  | cons u units ih =>
      obtain ⟨first, second, hu, hjoin⟩ := hbytes u
      rw [List.flatMap_cons, hu]
      simp only [List.cons_append, List.nil_append, pairUp, hjoin, ih]

/-- Whatever the encoding, decoding gives back what was encoded. -/
theorem decode_encode (encoding : Encoding) (text : String) :
    encoding.decode (encoding.encode text) = text := by
  cases encoding with
  | utf8 => rw [decode, encode, ofOctets_toOctets, String.ofList_toList]
  | utf16le =>
      have hpairs := pairUp_flatMap (fun low high => joinBytes high low) littleEndian
        (fun u => ⟨_, _, rfl, joinBytes_bytes u⟩) (toUnits text.toList)
      rw [decode, encode, hpairs, ofUnits_toUnits, String.ofList_toList]
  | utf16be =>
      have hpairs := pairUp_flatMap joinBytes bigEndian
        (fun u => ⟨_, _, rfl, joinBytes_bytes u⟩) (toUnits text.toList)
      rw [decode, encode, hpairs, ofUnits_toUnits, String.ofList_toList]

end Encoding

end Stencil
