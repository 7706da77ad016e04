import Mathlib.Algebra.Field.Rat
import Mathlib.Data.Rat.Cast.Order
import Stencil.Proofs.Number.Rounding

/-!
Doubles and integers. A double denotes a rational number, and a whole one the integer
that is that number. The other way round, integers up to a magnitude of 2^53 are doubles,
so that rounding tells them from all other integers; larger ones may be rounded alike.
-/

namespace Stencil.Binary64

/-- The number that the finite double with a sign and a code denotes. -/
def rational (negative : Bool) (code : Nat) : ℚ :=
  signedUnits negative code / unitsPerOne

theorem unitsPerOne_pos : 0 < unitsPerOne := by
  obtain ⟨bits, -, hunits⟩ := exists_unitBits
  rw [hunits]
  exact Nat.two_pow_pos bits

theorem rational_eq_iff {negative : Bool} {code : Nat} {i : Int} :
    rational negative code = i ↔ signedUnits negative code = i * unitsPerOne := by
  have hsome : (unitsPerOne : ℚ) ≠ 0 := Nat.cast_ne_zero.mpr unitsPerOne_pos.ne'
  rw [rational, div_eq_iff hsome, ← Int.cast_natCast (R := ℚ), ← Int.cast_mul, Int.cast_inj]

theorem eq_mul_iff {n one : Nat} (hpositive : 0 < one) {i : Int} :
    (n : Int) = i * one ↔ n % one = 0 ∧ ((n / one : Nat) : Int) = i := by
  have hone : (one : Int) ≠ 0 := by omega
  constructor
  · intro h
    have hdivides : one ∣ n := Int.natCast_dvd_natCast.mp (Dvd.intro_left i h.symm)
    refine ⟨Nat.mod_eq_zero_of_dvd hdivides, ?_⟩
    rw [Int.natCast_ediv, h, Int.mul_ediv_cancel i hone]
  · rintro ⟨hwhole, rfl⟩
    exact_mod_cast (Nat.div_mul_cancel (Nat.dvd_of_mod_eq_zero hwhole)).symm

/-- A finite double is whole if the number that it denotes is an integer. -/
theorem integer?_eq_some_iff {negative : Bool} {code : Fin codeCount} {i : Int} :
    (finite negative code).integer? = some i ↔ rational negative code = i := by
  rw [rational_eq_iff]
  simp only [integer?, signedUnits, Option.ite_none_right_eq_some, Option.some.injEq]
  cases negative with
  | false => exact (eq_mul_iff unitsPerOne_pos).symm
  | true =>
      have hopposite : -(units code : Int) = i * unitsPerOne ↔
          (units code : Int) = -i * unitsPerOne := by
        rw [Int.neg_mul, Int.neg_eq_comm, eq_comm]
      rw [if_pos rfl, if_pos rfl, hopposite, eq_mul_iff unitsPerOne_pos, Int.neg_eq_comm,
        @eq_comm _ (-i)]

/-- Up to here integers are doubles. -/
def exactLimit : Nat := 2 * fractionCount

/-- The code of the double at the limit. -/
def exactLimitCode : Nat := 1076 * fractionCount

/-- An integer below the limit is a double below it. -/
theorem exists_code_of_lt {n : Nat} (h : n < exactLimit) :
    ∃ code < exactLimitCode, units code = n * unitsPerOne := by
  by_cases hzero : n = 0
  · refine ⟨0, by decide, ?_⟩
    rw [hzero, Nat.zero_mul]
    exact units_of_lt (by decide)
  · -- the highest bit is moved to the place of 2^52
    obtain ⟨bits, hbits, hunits⟩ := exists_unitBits
    rw [hunits]
    clear hunits
    have hlog : n.log2 < 53 := (Nat.log2_lt hzero).mpr h
    have hlow : fractionCount ≤ n * 2 ^ (52 - n.log2) := by
      calc fractionCount = 2 ^ n.log2 * 2 ^ (52 - n.log2) := by
            rw [← Nat.pow_add, Nat.add_sub_cancel' (by omega)]
            rfl
        _ ≤ n * 2 ^ (52 - n.log2) := Nat.mul_le_mul_right _ (Nat.log2_self_le hzero)
    have hhigh : n * 2 ^ (52 - n.log2) < 2 * fractionCount := by
      calc n * 2 ^ (52 - n.log2) < 2 ^ (n.log2 + 1) * 2 ^ (52 - n.log2) :=
            Nat.mul_lt_mul_of_pos_right Nat.lt_log2_self (Nat.two_pow_pos _)
        _ = 2 ^ 53 := by rw [← Nat.pow_add]; congr 1; omega
    have hroom : 52 - n.log2 ≤ bits := by omega
    have hrun : (bits - (52 - n.log2) + 1) * fractionCount ≤ 1075 * fractionCount :=
      Nat.mul_le_mul_right _ (by omega)
    have hcode := units_run (bits - (52 - n.log2)) (n * 2 ^ (52 - n.log2) - fractionCount)
      (by omega)
    rw [Nat.add_sub_cancel' hlow, Nat.mul_assoc, ← Nat.pow_add,
      Nat.add_sub_cancel' hroom] at hcode
    refine ⟨_, ?_, hcode⟩
    clear hcode
    unfold exactLimitCode
    omega

/-- So rounding leads to that double. -/
theorem nearestCode_of_lt {n : Nat} (h : n < exactLimit) :
    nearestCode (n * unitsPerOne) 1 < exactLimitCode ∧
      units (nearestCode (n * unitsPerOne) 1) = n * unitsPerOne := by
  obtain ⟨code, hcode, hunits⟩ := exists_code_of_lt h
  have hexact := nearestCode_units code Nat.one_pos
  rw [Nat.mul_one, hunits] at hexact
  rw [hexact]
  exact ⟨hcode, hunits⟩

/-- From the limit on, rounding leads to the limit or beyond. -/
theorem exactLimitCode_le {n : Nat} (h : exactLimit ≤ n) :
    exactLimitCode ≤ nearestCode (n * unitsPerOne) 1 := by
  obtain ⟨bits, hbits, hunits⟩ := exists_unitBits
  rw [hunits]
  clear hunits
  have hpower : 2 ^ (53 + bits) ≤ n * 2 ^ bits := by
    rw [Nat.pow_add]
    exact Nat.mul_le_mul_right _ h
  have hsome : n * 2 ^ bits ≠ 0 :=
    Nat.ne_of_gt (Nat.lt_of_lt_of_le (Nat.two_pow_pos _) hpower)
  have hlog : 53 + bits ≤ (n * 2 ^ bits).log2 := (Nat.le_log2 hsome).mpr hpower
  clear hpower
  exact run_le_nearestCode 1075 hsome (by omega)

/-- Rounding tells an integer below the limit from all other integers. -/
theorem eq_of_nearestCode_eq {m n : Nat} (hm : m < exactLimit)
    (h : nearestCode (m * unitsPerOne) 1 = nearestCode (n * unitsPerOne) 1) : m = n := by
  obtain ⟨hcode, hunits⟩ := nearestCode_of_lt hm
  rcases Nat.lt_or_ge n exactLimit with hn | hn
  · have hunits' := (nearestCode_of_lt hn).2
    rw [← h, hunits] at hunits'
    exact Nat.eq_of_mul_eq_mul_right unitsPerOne_pos hunits'
  · have hlarge := exactLimitCode_le hn
    omega

theorem equals_comm (x y : Binary64) : x.equals y = y.equals x := by
  cases x with
  | nan => cases y <;> rfl
  | infinite negative =>
      cases y with
      | infinite other => exact Bool.beq_comm
      | nan | finite => rfl
  | finite negative code =>
      cases y with
      | finite other code' =>
          rw [Bool.eq_iff_iff]
          simp only [equals, Bool.and_eq_true, Bool.or_eq_true, beq_iff_eq]
          grind
      | nan | infinite => rfl

theorem equals_trans {x y z : Binary64} (hxy : x.equals y = true) (hyz : y.equals z = true) :
    x.equals z = true := by
  cases x with
  | nan => simp [equals] at hxy
  | infinite negative =>
      cases y <;> cases z <;> simp_all [equals]
  | finite negative code =>
      cases y with
      | nan | infinite => simp [equals] at hxy
      | finite other code' =>
          cases z with
          | nan | infinite => simp [equals] at hyz
          | finite last code'' =>
              simp only [equals, Bool.and_eq_true, Bool.or_eq_true, beq_iff_eq] at *
              grind

/-- A finite double equals what a code stands for if that is its own code, and its sign
unless both are zero. -/
theorem ofCode_equals {a b : Nat} {negative negative' : Bool} (ha : a < codeCount)
    (h : (ofCode negative a).equals (ofCode negative' b) = true) :
    a = b ∧ (negative = negative' ∨ a = 0) := by
  unfold ofCode at h
  rw [dif_pos ha] at h
  split at h
  · simpa [equals] using h
  · cases h

/-- An integer below the limit is rounded to a double that no other is rounded to. -/
theorem eq_of_ofInt_equals {i j : Int} (hi : i.natAbs < exactLimit)
    (h : (ofInt i).equals (ofInt j) = true) : i = j := by
  have hfinite : nearestCode (i.natAbs * unitsPerOne) 1 < codeCount :=
    Nat.lt_trans (nearestCode_of_lt hi).1 (by decide)
  obtain ⟨hcode, hsign⟩ := ofCode_equals hfinite h
  have hmagnitude := eq_of_nearestCode_eq hi hcode
  rcases hsign with hsign | hzero
  · have hsame : i < 0 ↔ j < 0 := decide_eq_decide.mp hsign
    omega
  · have hnone : nearestCode (0 * unitsPerOne) 1 = 0 := by
      rw [Nat.zero_mul]
      exact nearestCode_eq_zero (by decide)
    have hsame := eq_of_nearestCode_eq hi (hzero.trans hnone.symm)
    omega

end Stencil.Binary64
