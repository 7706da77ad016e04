import Stencil.Proofs.Formatter.Applicability
import Stencil.Proofs.Number.Integers

/-!
What doubles become where integers are asked for. A whole double of 64 bits becomes the
integer that it denotes. The guard against larger ones lets one of them pass: the limit
2^63 itself, which becomes the integer below it.
-/

namespace Stencil.ParamType

/-- Magnitudes up to the limit pass, and all but the limit itself as they are. -/
theorem saturate?_eq_some_iff {i : Int} {k : Int64} :
    saturate? i = some k ↔ k.toInt = i ∨ i = 2 ^ 63 ∧ k = Int64.maxValue := by
  have hlimit : Numeral.signedLimit = 2 ^ 63 := rfl
  have hmax : Int64.maxValue.toInt = 2 ^ 63 - 1 := rfl
  unfold saturate?
  rw [Option.ite_none_right_eq_some, hlimit, hmax, Option.some.injEq]
  constructor
  · rintro ⟨hmagnitude, rfl⟩
    by_cases htop : i = 2 ^ 63
    · right
      rw [htop]
      exact ⟨rfl, rfl⟩
    · left
      rw [Int.min_eq_left (by omega)]
      exact Int64.toInt_ofInt_of_le (by omega) (by omega)
  · rintro (rfl | ⟨rfl, rfl⟩)
    · have hlower := k.le_toInt
      have hupper := k.toInt_lt
      refine ⟨by omega, ?_⟩
      rw [Int.min_eq_left (by omega), Int64.ofInt_toInt]
    · exact ⟨by decide, rfl⟩

theorem convert_eq_ok_iff {param : ParamType} {value received : Value} :
    param.convert value = .ok received ↔ param.convert? value = some received := by
  unfold convert
  cases param.convert? value with
  | none => simp
  | some converted => simp

theorem cast_limit : ((2 ^ 63 : Int) : ℚ) = 2 ^ 63 := by
  norm_num

theorem cast_least : ((-2 ^ 63 : Int) : ℚ) = -2 ^ 63 := by
  norm_num

section

variable {negative : Bool} {code : Fin Binary64.codeCount}

/-- A double becomes the integer that it denotes, and the limit becomes the last one. -/
theorem int_convert_iff {received : Value} :
    int.convert (.float (.finite negative code)) = .ok received ↔
      ∃ k : Int64, received = .int k ∧ (Binary64.rational negative code = k.toInt ∨
        Binary64.rational negative code = 2 ^ 63 ∧ k = Int64.maxValue) := by
  simp only [convert_eq_ok_iff, convert?, Option.map_eq_map, Option.bind_eq_bind,
    Option.bind_eq_some_iff, Option.map_eq_some_iff, Binary64.integer?_eq_some_iff,
    saturate?_eq_some_iff]
  constructor
  · rintro ⟨i, hnumber, k, rfl | ⟨rfl, rfl⟩, rfl⟩
    · exact ⟨k, rfl, Or.inl hnumber⟩
    · exact ⟨_, rfl, Or.inr ⟨hnumber.trans cast_limit, rfl⟩⟩
  · rintro ⟨k, rfl, hnumber | ⟨hnumber, rfl⟩⟩
    · exact ⟨k.toInt, hnumber, k, Or.inl rfl, rfl⟩
    · exact ⟨2 ^ 63, hnumber.trans cast_limit.symm, _, Or.inr ⟨rfl, rfl⟩, rfl⟩

/-- Converting a finite double to an integer is exact unless the double is 2^63. What is
received is the integer that the double denotes, or the last one of 64 bits for 2^63; and
the conversion succeeds for every double that is one of the integers of 64 bits. -/
theorem convert_exact_below_limit (negative : Bool) (code : Fin Binary64.codeCount) :
    let source := Value.float (.finite negative code)
    let number := Binary64.rational negative code
    (∀ received, int.convert source = .ok received ↔ ∃ k : Int64, received = .int k ∧
      (number = k.toInt ∨ number = 2 ^ 63 ∧ k = Int64.maxValue)) ∧
    (number ≠ 2 ^ 63 → ∀ k : Int64, int.convert source = .ok (.int k) ↔ number = k.toInt) ∧
    (∀ i : Int, number = i → -2 ^ 63 ≤ number → number < 2 ^ 63 →
      ∃ k : Int64, int.convert source = .ok (.int k) ∧ k.toInt = i) := by
  intro source number
  refine ⟨fun received => int_convert_iff, ?_, ?_⟩
  · intro hother k
    rw [int_convert_iff]
    constructor
    · rintro ⟨k', hsame, hnumber | ⟨hlimit, -⟩⟩
      · obtain rfl := Value.int.inj hsame
        exact hnumber
      · exact absurd hlimit hother
    · intro hnumber
      exact ⟨k, rfl, Or.inl hnumber⟩
  · intro i hnumber hlower hupper
    rw [hnumber, ← cast_least, Int.cast_le] at hlower
    rw [hnumber, ← cast_limit, Int.cast_lt] at hupper
    have hexact : (Int64.ofInt i).toInt = i := Int64.toInt_ofInt_of_le hlower hupper
    refine ⟨Int64.ofInt i, int_convert_iff.mpr ⟨_, rfl, Or.inl ?_⟩, hexact⟩
    rw [hexact]
    exact hnumber

end

/-- The code of the double 2^63. -/
def limitCode : Fin Binary64.codeCount := ⟨1086 * Binary64.fractionCount, by decide⟩

theorem rational_limitCode (negative : Bool) : Binary64.rational negative limitCode =
    ((if negative then -2 ^ 63 else 2 ^ 63 : Int) : ℚ) := by
  rw [Binary64.rational_eq_iff]
  revert negative
  decide +kernel

/-- The least integer of 64 bits is received from the double that is equal to it. -/
theorem least_converts_exactly : Binary64.rational true limitCode = (-2 ^ 63 : Int) ∧
    ∃ k : Int64, int.convert (.float (.finite true limitCode)) = .ok (.int k) ∧
      k.toInt = -2 ^ 63 := by
  have hnumber : Binary64.rational true limitCode = (-2 ^ 63 : Int) := rational_limitCode true
  have hconverts := (convert_exact_below_limit true limitCode).2.2 _ hnumber
  refine ⟨hnumber, hconverts ?_ ?_⟩
  · rw [hnumber, cast_least]
  · rw [hnumber, ← cast_limit, Int.cast_lt]
    decide

/-- From the double 2^63 an integer is received that is not equal to it. -/
theorem limit_converts_inexactly :
    ¬∀ (negative : Bool) (code : Fin Binary64.codeCount) (k : Int64),
      int.convert (.float (.finite negative code)) = .ok (.int k) →
        Binary64.rational negative code = k.toInt := by
  intro hexact
  have hnumber : Binary64.rational false limitCode = (2 ^ 63 : Int) := rational_limitCode false
  have hconverts := int_convert_iff.mpr
    ⟨Int64.maxValue, rfl, Or.inr ⟨hnumber.trans cast_limit, rfl⟩⟩
  have hsame := hexact false limitCode _ hconverts
  rw [hnumber, Int.cast_inj] at hsame
  exact absurd hsame (by decide)

end Stencil.ParamType
