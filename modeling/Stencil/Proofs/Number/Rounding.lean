import Mathlib.Algebra.Order.Ring.Nat
import Mathlib.Order.Compare
import Stencil.Number.Shortest

/-!
Rounding to doubles. A number that a code stands for is rounded to that code, and
rounding depends on the ratio of its arguments alone. So a decimal is rounded
alike however its digits and its exponent are chosen.
-/

namespace Stencil.Binary64

theorem units_of_lt {code : Nat} (h : code < fractionCount) : units code = code :=
  if_pos h

/-- A code past the first run is a power of two times its fraction. -/
theorem units_run (run fraction : Nat) (h : fraction < fractionCount) :
    units ((run + 1) * fractionCount + fraction) = (fractionCount + fraction) * 2 ^ run := by
  have hpositive : 0 < fractionCount := by decide
  have hquotient : ((run + 1) * fractionCount + fraction) / fractionCount = run + 1 := by
    rw [Nat.add_comm, Nat.add_mul_div_right _ _ hpositive, Nat.div_eq_of_lt h, Nat.zero_add]
  have hremainder : ((run + 1) * fractionCount + fraction) % fractionCount = fraction := by
    rw [Nat.add_comm, Nat.add_mul_mod_self_right, Nat.mod_eq_of_lt h]
  have hlarge : ¬(run + 1) * fractionCount + fraction < fractionCount := by
    rw [Nat.add_mul, Nat.one_mul]
    omega
  rw [units, if_neg hlarge, hquotient, hremainder, Nat.add_sub_cancel]
  rfl

/-- Every code is in the first run, or a fraction of a later one. -/
theorem exists_run (code : Nat) : code < fractionCount ∨
    ∃ run fraction, fraction < fractionCount ∧ code = (run + 1) * fractionCount + fraction := by
  rcases Nat.lt_or_ge code fractionCount with hlt | hge
  · exact Or.inl hlt
  · refine Or.inr ⟨code / fractionCount - 1, code % fractionCount, Nat.mod_lt _ (by decide), ?_⟩
    have hquotient : 1 ≤ code / fractionCount := (Nat.one_le_div_iff (by decide)).mpr hge
    rw [Nat.sub_add_cancel hquotient, Nat.mul_comm, Nat.div_add_mod]

theorem units_lt_succ (code : Nat) : units code < units (code + 1) := by
  rcases exists_run code with hlt | ⟨run, fraction, hfraction, rfl⟩
  · rw [units_of_lt hlt]
    rcases Nat.lt_or_ge (code + 1) fractionCount with hnext | hlast
    · rw [units_of_lt hnext]
      omega
    · have hrun := units_run 0 0 (by decide)
      have hcode : code + 1 = (0 + 1) * fractionCount + 0 := by omega
      rw [hcode, hrun]
      omega
  · rw [units_run run fraction hfraction]
    have hpower : 0 < 2 ^ run := Nat.two_pow_pos run
    rcases Nat.lt_or_ge (fraction + 1) fractionCount with hnext | hlast
    · rw [Nat.add_assoc, units_run run (fraction + 1) hnext]
      exact Nat.mul_lt_mul_of_pos_right (by omega) hpower
    · have hcode : (run + 1) * fractionCount + fraction + 1 =
          (run + 1 + 1) * fractionCount + 0 := by
        rw [Nat.add_mul (run + 1), Nat.one_mul]
        omega
      rw [hcode, units_run (run + 1) 0 (by decide), Nat.pow_succ, Nat.add_zero]
      calc (fractionCount + fraction) * 2 ^ run < (fractionCount * 2) * 2 ^ run :=
            Nat.mul_lt_mul_of_pos_right (by omega) hpower
        _ = fractionCount * (2 ^ run * 2) := by rw [Nat.mul_assoc, Nat.mul_comm 2]

theorem floorCode_of_lt {n : Nat} (h : n < fractionCount) : floorCode n = n := by
  have hlog : n.log2 - 52 = 0 := by
    by_cases hzero : n = 0
    · rw [hzero, Nat.log2_zero]
    · have hlt : n.log2 < 52 := (Nat.log2_lt hzero).mpr h
      omega
  rw [floorCode, hlog]
  simp

theorem floorCode_run (run fraction : Nat) (h : fraction < fractionCount) :
    floorCode ((fractionCount + fraction) * 2 ^ run) = (run + 1) * fractionCount + fraction := by
  have hpower : 0 < 2 ^ run := Nat.two_pow_pos run
  have hcount : fractionCount = 2 ^ 52 := rfl
  have hlog : ((fractionCount + fraction) * 2 ^ run).log2 = 52 + run := by
    have hsome : (fractionCount + fraction) * 2 ^ run ≠ 0 :=
      (Nat.mul_pos (by omega) hpower).ne'
    rw [Nat.log2_eq_iff hsome, Nat.pow_add, ← hcount]
    refine ⟨Nat.mul_le_mul_right _ (by omega), ?_⟩
    calc (fractionCount + fraction) * 2 ^ run < (2 * fractionCount) * 2 ^ run :=
          Nat.mul_lt_mul_of_pos_right (by omega) hpower
      _ = 2 ^ (52 + run + 1) := by rw [Nat.pow_succ, Nat.pow_add, hcount, Nat.mul_comm 2,
          Nat.mul_right_comm]
  have hquotient : (fractionCount + fraction) * 2 ^ run / Nat.pow 2 run =
      fractionCount + fraction := Nat.mul_div_cancel _ hpower
  rw [floorCode, hlog, Nat.add_sub_cancel_left]
  simp only [hquotient]
  rw [Nat.add_mul, Nat.one_mul, Nat.add_assoc]

/-- The code of a number of units that a code stands for is found again. -/
theorem floorCode_units (code : Nat) : floorCode (units code) = code := by
  rcases exists_run code with hlt | ⟨run, fraction, hfraction, rfl⟩
  · rw [units_of_lt hlt, floorCode_of_lt hlt]
  · rw [units_run run fraction hfraction, floorCode_run run fraction hfraction]

theorem nearestCode_units (code : Nat) {denominator : Nat} (hpositive : 0 < denominator) :
    nearestCode (units code * denominator) denominator = code := by
  have hless : compare (2 * (units code * denominator))
      ((units code + units (code + 1)) * denominator) = .lt := by
    rw [Nat.compare_eq_lt, ← Nat.mul_assoc]
    have hnext := units_lt_succ code
    exact Nat.mul_lt_mul_of_pos_right (by omega) hpositive
  rw [nearestCode, Nat.mul_div_cancel _ hpositive, floorCode_units]
  simp only [hless]
  rfl

theorem compare_mul_left {factor : Nat} (hpositive : 0 < factor) (a b : Nat) :
    compare (factor * a) (factor * b) = compare a b := by
  rcases Nat.lt_trichotomy a b with hlt | rfl | hgt
  · rw [Nat.compare_eq_lt.mpr hlt, Nat.compare_eq_lt]
    exact Nat.mul_lt_mul_of_pos_left hlt hpositive
  · rw [Nat.compare_eq_eq.mpr rfl, Nat.compare_eq_eq.mpr rfl]
  · rw [Nat.compare_eq_gt.mpr hgt, Nat.compare_eq_gt]
    exact Nat.mul_lt_mul_of_pos_left hgt hpositive

/-- Rounding depends on the ratio alone. -/
theorem nearestCode_mul {factor : Nat} (hpositive : 0 < factor) (numerator denominator : Nat) :
    nearestCode (factor * numerator) (factor * denominator) =
      nearestCode numerator denominator := by
  have hcompare (middle : Nat) : compare (2 * (factor * numerator))
      (middle * (factor * denominator)) = compare (2 * numerator) (middle * denominator) := by
    rw [Nat.mul_left_comm, Nat.mul_left_comm middle, compare_mul_left hpositive]
  simp only [nearestCode, Nat.mul_div_mul_left _ _ hpositive, hcompare]

/-- Less than half a unit is rounded to nothing. -/
theorem nearestCode_eq_zero {numerator denominator : Nat} (h : 2 * numerator < denominator) :
    nearestCode numerator denominator = 0 := by
  have hquotient : numerator / denominator = 0 := Nat.div_eq_of_lt (by omega)
  have hunits : units 0 = 0 ∧ units 1 = 1 := by decide
  have hless : compare (2 * numerator) ((units 0 + units (0 + 1)) * denominator) = .lt := by
    rw [hunits.1, hunits.2, Nat.zero_add, Nat.one_mul, Nat.compare_eq_lt]
    exact h
  rw [nearestCode, hquotient, floorCode_of_lt (by decide)]
  simp only [hless]
  rfl

theorem le_roundCode (low : Nat) (middle : Ordering) : low ≤ roundCode low middle := by
  cases middle with
  | lt => exact Nat.le_refl low
  | gt => exact Nat.le_succ low
  | eq =>
      simp only [roundCode]
      split
      · exact Nat.le_refl low
      · exact Nat.le_succ low

/-- A number is past as many runs as it has binary digits more than a fraction. -/
theorem run_le_floorCode (run : Nat) {n : Nat} (hsome : n ≠ 0) (hlog : 52 + run ≤ n.log2) :
    (run + 1) * fractionCount ≤ floorCode n := by
  have hpower : 2 ^ (n.log2 - 52) * fractionCount ≤ n := by
    have hcount : fractionCount = 2 ^ 52 := rfl
    rw [hcount, ← Nat.pow_add, Nat.sub_add_cancel (by omega)]
    exact Nat.log2_self_le hsome
  have hquotient : fractionCount ≤ n / 2 ^ (n.log2 - 52) := by
    rw [Nat.le_div_iff_mul_le (Nat.two_pow_pos _), Nat.mul_comm]
    exact hpower
  have hrun : run * fractionCount ≤ (n.log2 - 52) * fractionCount :=
    Nat.mul_le_mul_right _ (by omega)
  calc (run + 1) * fractionCount = run * fractionCount + fractionCount := Nat.succ_mul ..
    _ ≤ floorCode n := Nat.add_le_add hrun hquotient

theorem run_le_nearestCode (run : Nat) {n : Nat} (hsome : n ≠ 0) (hlog : 52 + run ≤ n.log2) :
    (run + 1) * fractionCount ≤ nearestCode n 1 := by
  have hfloor := run_le_floorCode run hsome hlog
  rw [nearestCode, Nat.div_one]
  exact Nat.le_trans hfloor (le_roundCode ..)

/-- So many units stand for no double. -/
theorem codeCount_le_nearestCode {n : Nat} (hsome : n ≠ 0) (hlog : 2098 ≤ n.log2) :
    codeCount ≤ nearestCode n 1 :=
  run_le_nearestCode 2046 hsome hlog

theorem ofCode_of_le {negative : Bool} {code : Nat} (h : codeCount ≤ code) :
    ofCode negative code = infinite negative :=
  dif_neg (Nat.not_lt.mpr h)

/-- Powers of ten grow at least as fast as powers of eight. -/
theorem two_pow_le_ten_pow {a b : Nat} (h : a ≤ 3 * b) : 2 ^ a ≤ 10 ^ b :=
  calc 2 ^ a ≤ 2 ^ (3 * b) := Nat.pow_le_pow_right (by decide) h
    _ = 8 ^ b := Nat.pow_mul ..
    _ ≤ 10 ^ b := Nat.pow_le_pow_left (by decide) b

theorem exists_unitBits : ∃ bits, bits = 1074 ∧ unitsPerOne = 2 ^ bits := by
  refine ⟨1074, rfl, ?_⟩
  unfold unitsPerOne
  generalize 1074 = bits
  rfl

/-- Past the upper guard no double is large enough. -/
theorem ofUnits_large (negative : Bool) {digits exponent : Nat} (hsome : digits ≠ 0)
    (h : 400 < exponent) :
    ofUnits negative (digits * 10 ^ exponent * unitsPerOne) 1 = infinite negative := by
  obtain ⟨bits, hbits, hunits⟩ := exists_unitBits
  have hpower : 2 ^ (3 * exponent + bits) ≤ digits * 10 ^ exponent * unitsPerOne := by
    rw [hunits]
    calc 2 ^ (3 * exponent + bits) = 1 * 2 ^ (3 * exponent) * 2 ^ bits := by
          rw [Nat.one_mul, Nat.pow_add]
      _ ≤ digits * 10 ^ exponent * 2 ^ bits :=
          Nat.mul_le_mul_right _ (Nat.mul_le_mul (Nat.one_le_iff_ne_zero.mpr hsome)
            (two_pow_le_ten_pow (Nat.le_refl _)))
  have hnumerator : digits * 10 ^ exponent * unitsPerOne ≠ 0 :=
    Nat.ne_of_gt (Nat.lt_of_lt_of_le (Nat.two_pow_pos _) hpower)
  have hlog := (Nat.le_log2 hnumerator).mpr hpower
  exact ofCode_of_le (codeCount_le_nearestCode hnumerator (by omega))

/-- Below the lower guard there is less than half a unit. -/
theorem ofUnits_small (negative : Bool) {digits exponent : Nat}
    (h : digits.log2 + 401 < exponent) :
    ofUnits negative (digits * unitsPerOne) (10 ^ exponent) = zero negative := by
  obtain ⟨bits, hbits, hunits⟩ := exists_unitBits
  have hless : 2 * (digits * unitsPerOne) < 10 ^ exponent := by
    rw [hunits]
    calc 2 * (digits * 2 ^ bits) = digits * 2 ^ (bits + 1) := by
          rw [Nat.mul_left_comm, ← Nat.pow_succ']
      _ < 2 ^ (digits.log2 + 1) * 2 ^ (bits + 1) :=
          Nat.mul_lt_mul_of_pos_right Nat.lt_log2_self (Nat.two_pow_pos _)
      _ = 2 ^ (digits.log2 + 1 + (bits + 1)) := by rw [← Nat.pow_add]
      _ ≤ 10 ^ exponent := two_pow_le_ten_pow (by omega)
  rw [ofUnits, nearestCode_eq_zero hless]
  rfl

/-- The guards change nothing: a decimal is rounded like its fraction. -/
theorem ofDecimal_eq (negative : Bool) {digits : Nat} (hsome : digits ≠ 0) (exponent : Int) :
    ofDecimal negative digits exponent =
      ofUnits negative (digits * 10 ^ exponent.toNat * unitsPerOne)
        (10 ^ (-exponent).toNat) := by
  rw [ofDecimal, if_neg hsome]
  split
  · rename_i hlarge
    have hnone : (-exponent).toNat = 0 := by omega
    rw [hnone, Nat.pow_zero, ofUnits_large negative hsome (by omega)]
  split
  · rename_i hsmall
    have hnone : exponent.toNat = 0 := by omega
    rw [hnone, Nat.pow_zero, Nat.mul_one, ofUnits_small negative (by omega)]
  split
  · have hnone : (-exponent).toNat = 0 := by omega
    rw [hnone]
    rfl
  · have hnone : exponent.toNat = 0 := by omega
    rw [hnone, Nat.pow_zero, Nat.mul_one]
    rfl

theorem ofDecimal_zero (negative : Bool) (exponent : Int) :
    ofDecimal negative 0 exponent = zero negative :=
  if_pos rfl

/-- A zero at the end of the digits counts as a power of ten. -/
theorem ofDecimal_ten (negative : Bool) (digits : Nat) (exponent : Int) :
    ofDecimal negative (digits * 10) exponent = ofDecimal negative digits (exponent + 1) := by
  by_cases hsome : digits = 0
  · rw [hsome, Nat.zero_mul, ofDecimal_zero, ofDecimal_zero]
  rw [ofDecimal_eq negative hsome, ofDecimal_eq negative (by omega)]
  rcases lt_or_ge exponent 0 with hnegative | hpositive
  · have hnone : exponent.toNat = 0 ∧ (exponent + 1).toNat = 0 := by omega
    have hpower : (-exponent).toNat = (-(exponent + 1)).toNat + 1 := by omega
    rw [hnone.1, hnone.2, hpower, Nat.pow_zero, Nat.mul_one, Nat.mul_one, ofUnits, ofUnits,
      Nat.pow_succ, Nat.mul_comm digits, Nat.mul_assoc, Nat.mul_comm _ 10,
      nearestCode_mul (by decide)]
  · have hnone : (-exponent).toNat = 0 ∧ (-(exponent + 1)).toNat = 0 := by omega
    have hpower : (exponent + 1).toNat = exponent.toNat + 1 := by omega
    rw [hnone.1, hnone.2, hpower, Nat.pow_succ', Nat.mul_assoc digits]

theorem ofDecimal_shift (negative : Bool) (digits zeros : Nat) (exponent : Int) :
    ofDecimal negative (digits * 10 ^ zeros) exponent =
      ofDecimal negative digits (exponent + zeros) := by
  induction zeros generalizing digits exponent with
  | zero => rw [Nat.pow_zero, Nat.mul_one, Int.natCast_zero, Int.add_zero]
  | succ zeros ih =>
      rw [Nat.pow_succ, ← Nat.mul_assoc, ofDecimal_ten, ih]
      congr 1
      omega

/-- The sign of a decimal is that of the double, and its code does not depend on it. -/
theorem exists_code (digits : Nat) (exponent : Int) :
    ∃ code, ∀ negative, ofDecimal negative digits exponent = ofCode negative code := by
  by_cases hsome : digits = 0
  · exact ⟨0, fun negative => by rw [hsome, ofDecimal_zero, zero]⟩
  · exact ⟨_, fun negative => by rw [ofDecimal_eq negative hsome, ofUnits]⟩

theorem ofCode_inj {negative : Bool} {a b : Nat} (hb : b < codeCount)
    (h : ofCode negative a = ofCode negative b) : a = b := by
  unfold ofCode at h
  rw [dif_pos hb] at h
  split at h
  · injection h with _ hcode
    exact congrArg Fin.val hcode
  · cases h

/-- A decimal that reads back as a positive number reads back with either sign. -/
theorem ofDecimal_of_readsBack {code digits : Nat} {exponent : Int} (negative : Bool)
    (hcode : code < codeCount) (h : readsBack code digits exponent = true) :
    ofDecimal negative digits exponent = ofCode negative code := by
  obtain ⟨code', hdecimal⟩ := exists_code digits exponent
  rw [readsBack, beq_iff_eq, hdecimal] at h
  rw [hdecimal, ofCode_inj hcode h]

end Stencil.Binary64
