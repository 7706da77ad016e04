import Stencil.Proofs.Number.Decimal
import Stencil.Proofs.Number.Rounding
import Stencil.Proofs.Text.Blanks
import Stencil.Value.Text

/-!
Reading back doubles in decimal. Every grid point that is chosen for a double
reads back as it, the exact decimal does, and zeros at the end of the digits do
not matter. So the shortest decimal reads back, and so does its text.
-/

namespace Stencil

namespace Binary64

theorem ofDecimal_normalize (negative : Bool) (d : Decimal) :
    ofDecimal negative d.normalize.digits d.normalize.exponent =
      ofDecimal negative d.digits d.exponent := by
  induction d using Decimal.normalize.induct with
  | case1 d h ih =>
      have hdigits : d.digits = d.digits / 10 * 10 := by omega
      rw [Decimal.normalize, dif_pos h, ih, hdigits, ofDecimal_ten,
        Nat.mul_div_cancel _ (by decide)]
  | case2 d h => rw [Decimal.normalize, dif_neg h]

/-- Units in decimal: both powers of the power of ten cancel. -/
theorem nearestCode_exact (code bits : Nat) :
    nearestCode (units code * 5 ^ bits * 2 ^ bits) (10 ^ bits) = code := by
  have hten : (5 * 2) ^ bits = 10 ^ bits := rfl
  rw [Nat.mul_assoc, ← Nat.mul_pow, hten]
  exact nearestCode_units code (Nat.pow_pos (by decide))

theorem ofDecimal_exactDecimal (negative : Bool) (code : Nat) :
    ofDecimal negative (exactDecimal code).digits (exactDecimal code).exponent =
      ofCode negative code := by
  obtain ⟨bits, hbits, hunits⟩ := exists_unitBits
  have hexact : exactDecimal code = ⟨units code * 5 ^ bits, -bits⟩ := by
    have hexponent : (-1074 : Int) = -bits := by omega
    rw [exactDecimal, hexponent, ← hbits]
    rfl
  have hnone : (-(bits : Int)).toNat = 0 ∧ (- -(bits : Int)).toNat = bits := by omega
  rw [hexact]
  by_cases hzero : units code * 5 ^ bits = 0
  · have hcode : code = 0 := by
      rcases Nat.mul_eq_zero.mp hzero with hunit | hpower
      · rw [← floorCode_units code, hunit]
        rfl
      · exact absurd hpower (Nat.pow_pos (by decide)).ne'
    rw [hcode] at hzero ⊢
    simp only [hzero]
    exact ofDecimal_zero negative _
  · rw [ofDecimal_eq negative hzero, hnone.1, hnone.2, hunits, Nat.pow_zero, Nat.mul_one, ofUnits,
      nearestCode_exact]

theorem eq_some_of_either {α : Type} {a : α} {first : Bool} {x y : Option α}
    (h : (if first then x.or y else y.or x) = some a) : x = some a ∨ y = some a := by
  split at h
  · exact (Option.or_eq_some_iff.mp h).imp_right And.right
  · exact ((Option.or_eq_some_iff.mp h).imp_right And.right).symm

theorem readsBack_onGrid {tie : Tie} {code : Nat} {exponent : Int} {d : Decimal}
    (h : onGrid? tie code exponent = some d) : readsBack code d.digits d.exponent = true := by
  have hpoint {digits : Nat} (hsome : (if readsBack code digits exponent then
      some (⟨digits, exponent⟩ : Decimal) else none) = some d) :
      readsBack code d.digits d.exponent = true := by
    obtain ⟨hreads, hd⟩ := Option.ite_none_right_eq_some.mp hsome
    rwa [← Option.some.inj hd]
  exact (eq_some_of_either h).elim hpoint hpoint

/-- The shortest decimal of a double reads back as it. -/
theorem ofDecimal_shortest (negative : Bool) (tie : Tie) {code : Nat} (hcode : code < codeCount) :
    ofDecimal negative (shortest tie code).digits (shortest tie code).exponent =
      ofCode negative code := by
  unfold shortest
  rw [ofDecimal_normalize]
  generalize hfound : (List.range 17).findSome? _ = found
  cases found with
  | none => exact ofDecimal_exactDecimal negative code
  | some d =>
      obtain ⟨n, -, hgrid⟩ := List.exists_of_findSome?_eq_some hfound
      exact ofDecimal_of_readsBack negative hcode (readsBack_onGrid hgrid)

end Binary64

namespace Numeral

open Text

theorem isDigit_of_mem_zeros (n : Nat) : ∀ c ∈ List.replicate n '0', c.isDigit = true := by
  intro c hc
  rw [List.eq_of_mem_replicate hc]
  rfl

theorem ofDigits_append_zeros (digits : List Char) (n : Nat) :
    ofDigits (digits ++ List.replicate n '0') = ofDigits digits * 10 ^ n := by
  induction n with
  | zero => rw [List.replicate_zero, List.append_nil, Nat.pow_zero, Nat.mul_one]
  | succ n ih =>
      rw [List.replicate_succ', ← List.append_assoc, ofDigits, List.foldl_append, ← ofDigits, ih,
        Nat.pow_succ, ← Nat.mul_assoc, Nat.mul_comm _ 10]
      rfl

theorem ofDigits_zeros_append (n : Nat) (digits : List Char) :
    ofDigits (List.replicate n '0' ++ digits) = ofDigits digits := by
  induction n with
  | zero => rfl
  | succ n ih => exact ih

variable {whole fraction : List Char}

theorem magnitude?_whole (negative : Bool) (hwhole : ∀ c ∈ whole, c.isDigit = true)
    (hsome : whole ≠ []) :
    magnitude? negative whole = some (.ofDecimal negative (ofDigits whole) 0) := by
  have htake : whole.takeWhile Char.isDigit = whole := List.takeWhile_eq_self_iff.mpr hwhole
  have hdrop : whole.dropWhile Char.isDigit = [] := List.dropWhile_eq_nil_iff.mpr hwhole
  have hempty : whole.isEmpty = false := List.isEmpty_eq_false_iff.mpr hsome
  simp [magnitude?, htake, hdrop, hempty, exponent?]

theorem magnitude?_point (negative : Bool) (hwhole : ∀ c ∈ whole, c.isDigit = true)
    (hsome : whole ≠ []) (hfraction : ∀ c ∈ fraction, c.isDigit = true) :
    magnitude? negative (whole ++ '.' :: fraction) =
      some (.ofDecimal negative (ofDigits (whole ++ fraction)) (-fraction.length)) := by
  have hstop : ∀ c ∈ ('.' :: fraction).head?, c.isDigit = false := by simp
  have htake := takeWhile_append_stop hwhole hstop
  have hdrop := dropWhile_append_stop hwhole hstop
  have htake' : fraction.takeWhile Char.isDigit = fraction :=
    List.takeWhile_eq_self_iff.mpr hfraction
  have hdrop' : fraction.dropWhile Char.isDigit = [] := List.dropWhile_eq_nil_iff.mpr hfraction
  have hempty : whole.isEmpty = false := List.isEmpty_eq_false_iff.mpr hsome
  simp [magnitude?, htake, hdrop, htake', hdrop', hempty, exponent?]

theorem toLower_of_isDigit {d : Char} (hd : d.isDigit = true) : d.toLower = d := by
  apply dif_neg
  rintro ⟨hupper, -⟩
  simp only [Char.isDigit, Bool.and_eq_true, decide_eq_true_eq] at hd
  exact absurd (UInt32.le_trans hupper hd.2) (by decide)

/-- A text that starts with a digit, behind a minus sign or not, is a decimal and
not the name of a special double. -/
theorem double?_digit {d : Char} (hd : d.isDigit = true) (t : List Char) (negative : Bool) :
    double? ((if negative then ['-'] else []) ++ d :: t) = magnitude? negative (d :: t) := by
  have hsign : sign ((if negative then ['-'] else []) ++ d :: t) = (negative, d :: t) := by
    cases negative with
    | true => rfl
    | false =>
        rw [if_neg (by decide), List.nil_append, sign]
        · rintro s ⟨⟩
          cases hd
        · rintro s ⟨⟩
          cases hd
  have hword {c : Char} (hc : c.isDigit = false) (word : List Char) :
      String.ofList ((d :: t).map Char.toLower) ≠ String.ofList (c :: word) := by
    intro h
    have hhead := (List.cons.inj (String.ofList_injective h)).1
    rw [toLower_of_isDigit hd] at hhead
    rw [hhead, hc] at hd
    cases hd
  rw [double?, hsign]
  simp only []
  rw [if_neg (not_or.mpr ⟨hword rfl ['n', 'f'], hword rfl ['n', 'f', 'i', 'n', 'i', 't', 'y']⟩),
    if_neg (hword rfl ['a', 'n'])]

end Numeral

namespace Binary64

open Numeral

theorem positionalText_display (digits : List Char) (exponent : Int) :
    displayFormat.positionalText digits exponent =
      if 0 ≤ exponent then digits ++ List.replicate exponent.toNat '0'
      else if 0 < digits.length + exponent then
        digits.take (digits.length + exponent).toNat ++
          '.' :: digits.drop (digits.length + exponent).toNat
      else ['0'] ++ '.' :: (List.replicate (-(digits.length + exponent)).toNat '0' ++ digits) := by
  have hpoint : (if displayFormat.alwaysPoint then ['.', '0'] else []) = [] := rfl
  unfold DoubleFormat.positionalText
  rw [hpoint, List.append_nil]
  rfl

section

variable {digits : List Char} (hdigits : ∀ c ∈ digits, c.isDigit = true)

include hdigits

theorem mem_positionalText (exponent : Int) :
    ∀ c ∈ displayFormat.positionalText digits exponent, c.isDigit = true ∨ c = '.' := by
  intro c hc
  rw [positionalText_display] at hc
  split at hc
  · rcases List.mem_append.mp hc with hmem | hmem
    · exact Or.inl (hdigits c hmem)
    · exact Or.inl (isDigit_of_mem_zeros _ c hmem)
  split at hc
  · rcases List.mem_append.mp hc with hmem | hmem
    · exact Or.inl (hdigits c (List.mem_of_mem_take hmem))
    rcases List.mem_cons.mp hmem with rfl | hmem
    · exact Or.inr rfl
    · exact Or.inl (hdigits c (List.mem_of_mem_drop hmem))
  · rcases List.mem_append.mp hc with hmem | hmem
    · exact Or.inl (isDigit_of_mem_zeros 1 c hmem)
    rcases List.mem_cons.mp hmem with rfl | hmem
    · exact Or.inr rfl
    rcases List.mem_append.mp hmem with hmem | hmem
    · exact Or.inl (isDigit_of_mem_zeros _ c hmem)
    · exact Or.inl (hdigits c hmem)

variable (hsome : digits ≠ [])

include hsome

/-- Digits with a point in place denote the decimal. -/
theorem magnitude?_positionalText (negative : Bool) (exponent : Int) :
    magnitude? negative (displayFormat.positionalText digits exponent) =
      some (ofDecimal negative (ofDigits digits) exponent) := by
  rw [positionalText_display]
  split
  · have hexponent : (0 : Int) + exponent.toNat = exponent := by omega
    have hwhole := List.forall_mem_append.mpr
      ⟨hdigits, isDigit_of_mem_zeros exponent.toNat⟩
    rw [magnitude?_whole negative hwhole (by simp [hsome]), ofDigits_append_zeros,
      ofDecimal_shift, hexponent]
  split
  · rename_i hinside
    have hlength := List.length_pos_iff.mpr hsome
    have hwhole : digits.take (digits.length + exponent).toNat ≠ [] := by
      rw [ne_eq, List.take_eq_nil_iff, not_or]
      exact ⟨by omega, hsome⟩
    have hexponent :
        (-(digits.drop (digits.length + exponent).toNat).length : Int) = exponent := by
      rw [List.length_drop]
      omega
    rw [magnitude?_point negative (fun c hc => hdigits c (List.mem_of_mem_take hc)) hwhole
      (fun c hc => hdigits c (List.mem_of_mem_drop hc)), List.take_append_drop, hexponent]
  · have hzero : ['0'] = List.replicate 1 '0' := rfl
    have hexponent : (-(List.replicate (-(digits.length + exponent)).toNat '0' ++
        digits).length : Int) = exponent := by
      rw [List.length_append, List.length_replicate]
      omega
    have hfraction := List.forall_mem_append.mpr
      ⟨isDigit_of_mem_zeros (-(digits.length + exponent)).toNat, hdigits⟩
    rw [hzero, magnitude?_point negative (isDigit_of_mem_zeros 1) (by simp) hfraction,
      ← List.append_assoc, List.replicate_append_replicate, ofDigits_zeros_append, hexponent]

theorem positionalText_head (exponent : Int) :
    ∃ d t, displayFormat.positionalText digits exponent = d :: t ∧ d.isDigit = true := by
  obtain ⟨d, t, rfl⟩ := List.exists_cons_of_ne_nil hsome
  have hd := hdigits d (List.mem_cons_self ..)
  rw [positionalText_display]
  split
  · exact ⟨d, _, rfl, hd⟩
  split
  · rename_i hinside
    obtain ⟨n, hn⟩ := Nat.exists_eq_succ_of_ne_zero
      (n := ((d :: t).length + exponent).toNat) (by omega)
    rw [hn, List.take_succ_cons]
    exact ⟨d, _, rfl, hd⟩
  · exact ⟨'0', _, rfl, rfl⟩

end

/-- The text of a magnitude is a decimal with a point in place, which denotes it. -/
theorem exists_magnitudeText {code : Nat} (hcode : code < codeCount) :
    ∃ digits exponent, (∀ c ∈ digits, c.isDigit = true) ∧ digits ≠ [] ∧
      displayFormat.magnitudeText code = displayFormat.positionalText digits exponent ∧
      ∀ negative, ofDecimal negative (ofDigits digits) exponent = ofCode negative code := by
  by_cases hzero : code = 0
  · refine ⟨['0'], 0, by simp, by simp, ?_, fun negative => ?_⟩
    · rw [hzero]
      rfl
    · rw [hzero]
      exact ofDecimal_zero negative 0
  · let d := shortest displayFormat.tie code
    have htext : (toString d.digits).toList = Nat.toDigits 10 d.digits := Nat.toList_repr
    refine ⟨Nat.toDigits 10 d.digits, d.exponent, isDigit_of_mem_toDigits, Nat.toDigits_ne_nil, ?_,
      fun negative => ?_⟩
    · unfold DoubleFormat.magnitudeText
      rw [if_neg hzero, ← htext]
      rfl
    · rw [ofDigits_toDigits]
      exact ofDecimal_shortest negative displayFormat.tie hcode

theorem text_finite (negative : Bool) (code : Fin codeCount) :
    (finite negative code).text.toList =
      (if negative then ['-'] else []) ++ displayFormat.magnitudeText code :=
  String.toList_ofList

/-- The text of a finite double reads back as it. -/
theorem double?_text (negative : Bool) (code : Fin codeCount) :
    double? (finite negative code).text.toList = some (finite negative code) := by
  obtain ⟨digits, exponent, hdigits, hsome, htext, hreads⟩ := exists_magnitudeText code.isLt
  obtain ⟨d, t, hhead, hd⟩ := positionalText_head hdigits hsome exponent
  have hmagnitude := magnitude?_positionalText hdigits hsome negative exponent
  rw [hhead] at hmagnitude
  rw [text_finite, htext, hhead, double?_digit hd, hmagnitude, hreads, ofCode, dif_pos code.isLt]

end Binary64

end Stencil
