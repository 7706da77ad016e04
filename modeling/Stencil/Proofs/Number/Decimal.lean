import Stencil.Number.Numeral

/-!
Reading back integers in decimal, and showing again what was read.
-/

namespace Stencil.Numeral

theorem ofDigits_toDigits (n : Nat) : ofDigits (Nat.toDigits 10 n) = n := by
  have h := Nat.ofDigitChars_ten_toDigits (n := n)
  rwa [Nat.ofDigitChars_eq_foldl] at h

theorem isDigit_of_mem_toDigits {n : Nat} : ∀ c ∈ Nat.toDigits 10 n, c.isDigit = true := by
  intro c hc
  exact Nat.isDigit_of_mem_toDigits (by decide) (by decide) hc

theorem natural?_toDigits (n : Nat) : natural? (Nat.toDigits 10 n) = some n := by
  have hdigits : (Nat.toDigits 10 n).all Char.isDigit = true :=
    List.all_eq_true.mpr isDigit_of_mem_toDigits
  have hsome : (Nat.toDigits 10 n).isEmpty = false := by
    rw [List.isEmpty_eq_false_iff]
    exact Nat.toDigits_ne_nil
  simp [natural?, hdigits, hsome, ofDigits_toDigits]

theorem digitChar_of_isDigit {c : Char} (h : c.isDigit = true) :
    c.toNat - '0'.toNat < 10 ∧ Nat.digitChar (c.toNat - '0'.toNat) = c := by
  have hrange : 48 ≤ c.toNat ∧ c.toNat ≤ 57 := Char.isDigit_iff_toNat.mp h
  have hzero : '0'.toNat = 48 := rfl
  have hlt : c.toNat - '0'.toNat < 10 := by omega
  refine ⟨hlt, Char.toNat_inj.mp ?_⟩
  rw [Nat.toNat_digitChar_of_lt_ten hlt]
  omega

/-- Digits read after a positive number are those that follow its own. -/
theorem toDigits_foldl {s : List Char} (hdigits : ∀ c ∈ s, c.isDigit = true) {n : Nat}
    (hpositive : 0 < n) :
    Nat.toDigits 10 (s.foldl (fun n c => 10 * n + (c.toNat - '0'.toNat)) n) =
      Nat.toDigits 10 n ++ s := by
  induction s generalizing n with
  | nil => rw [List.foldl_nil, List.append_nil]
  | cons c s ih =>
      obtain ⟨hdigit, hrest⟩ := List.forall_mem_cons.mp hdigits
      obtain ⟨hlt, hchar⟩ := digitChar_of_isDigit hdigit
      rw [List.foldl_cons, ih hrest (by omega),
        ← Nat.toDigits_append_toDigits (by decide) hpositive hlt,
        Nat.toDigits_of_lt_base hlt, hchar, List.append_assoc, List.singleton_append]

/-- A run of digits without a leading zero is how its number is shown. -/
theorem toDigits_ofDigits {c : Char} {s : List Char}
    (hdigits : ∀ d ∈ c :: s, d.isDigit = true) (hzero : c ≠ '0') :
    Nat.toDigits 10 (ofDigits (c :: s)) = c :: s := by
  obtain ⟨hdigit, hrest⟩ := List.forall_mem_cons.mp hdigits
  obtain ⟨hlt, hchar⟩ := digitChar_of_isDigit hdigit
  have hpositive : 0 < 10 * 0 + (c.toNat - '0'.toNat) := by
    rw [Nat.mul_zero, Nat.zero_add]
    refine Nat.pos_of_ne_zero fun hnone => hzero ?_
    rw [← hchar, hnone]
    rfl
  rw [ofDigits, List.foldl_cons, toDigits_foldl hrest hpositive, Nat.mul_zero, Nat.zero_add,
    Nat.toDigits_of_lt_base hlt, hchar, List.singleton_append]

/-- Leading zeros do not count. -/
theorem ofDigits_dropWhile (s : List Char) : ofDigits (s.dropWhile (· == '0')) = ofDigits s := by
  induction s with
  | nil => rfl
  | cons c s ih =>
      rw [List.dropWhile_cons]
      split
      · rename_i hzero
        rw [ih, beq_iff_eq.mp hzero]
        rfl
      · rfl

theorem inRange?_toInt (i : Int64) : inRange? i.toInt = some i := by
  have hlow := i.minValue_le_toInt
  have hhigh := i.toInt_le
  have hmax : Int64.maxValue.toInt = 2 ^ 63 - 1 := by decide
  rw [inRange?, if_pos ⟨hlow, by omega⟩, Int64.ofInt_toInt]

/-- The decimal form of an integer: digits after an optional sign. -/
theorem toList_toString (i : Int) :
    (toString i).toList = (if i < 0 then ['-'] else []) ++ Nat.toDigits 10 i.natAbs := by
  rw [Int.toString_eq_repr, Int.repr_eq_if]
  split
  · have hpositive : ¬i < 0 := by omega
    have habs : i.toNat = i.natAbs := by omega
    simp [Nat.toList_repr, hpositive, habs]
  · have hnegative : i < 0 := by omega
    have habs : (-i).toNat = i.natAbs := by omega
    simp [Nat.toList_repr, hnegative, habs]

theorem toDigits_cons (n : Nat) :
    ∃ d digits, Nat.toDigits 10 n = d :: digits ∧ d.isDigit = true := by
  obtain ⟨d, digits, h⟩ := List.exists_cons_of_ne_nil (Nat.toDigits_ne_nil (n := n) (b := 10))
  exact ⟨d, digits, h, isDigit_of_mem_toDigits d (h ▸ List.mem_cons_self ..)⟩

theorem signed?_toDigits (n : Nat) : signed? (Nat.toDigits 10 n) = inRange? n := by
  obtain ⟨d, digits, h, hd⟩ := toDigits_cons n
  have hminus : d ≠ '-' := by
    rintro rfl
    cases hd
  have hplus : d ≠ '+' := by
    rintro rfl
    cases hd
  have hnatural := natural?_toDigits n
  rw [h] at hnatural ⊢
  unfold signed?
  split
  · rename_i hcons
    exact absurd (List.cons.inj hcons).1 hminus
  · rename_i hcons
    exact absurd (List.cons.inj hcons).1 hplus
  · rw [hnatural]
    rfl

theorem signed?_toString (i : Int64) : signed? (toString i.toInt).toList = some i := by
  rw [toList_toString]
  split
  · have hnegative : -(i.toInt.natAbs : Int) = i.toInt := by omega
    simp only [List.cons_append, List.nil_append, signed?, natural?_toDigits,
      Option.bind_eq_bind, Option.bind_some, hnegative, inRange?_toInt]
  · have hpositive : (i.toInt.natAbs : Int) = i.toInt := by omega
    rw [List.nil_append, signed?_toDigits, hpositive, inRange?_toInt]

end Stencil.Numeral
