import Stencil.Formatter.Standard
import Stencil.Proofs.Number.Integers

/-!
Equality of values as a relation. It is symmetric, and it would be transitive if integers
were compared with doubles exactly. As they are rounded first, two integers may be equal to
one double and not to each other; that is the only way in which transitivity fails.
-/

namespace Stencil.Value

mutual

theorem equals_comm : (a b : Value) → a.equals b = b.equals a
  | list as, b => by
      cases b with
      | list bs => exact equalItems_comm as bs
      | _ => rfl
  | map as, b => by
      cases b with
      | map bs => exact equalEntries_comm as bs
      | _ => rfl
  | float x, b => by
      cases b with
      | float y => exact x.equals_comm y
      | _ => rfl
  | null, b | bool _, b | int _, b | string _, b | object _, b => by
      cases b <;> simp [equals, Bool.beq_comm]

theorem equalItems_comm : (as bs : List Value) → equalItems as bs = equalItems bs as
  | [], bs => by cases bs <;> rfl
  | a :: as, bs => by
      cases bs with
      | nil => rfl
      | cons b bs => rw [equalItems, equalItems, equals_comm a b, equalItems_comm as bs]

theorem equalEntries_comm : (as bs : List (String × Value)) →
    equalEntries as bs = equalEntries bs as
  | [], bs => by cases bs <;> rfl
  | (key, a) :: as, bs => by
      cases bs with
      | nil => rfl
      | cons b bs =>
          rw [equalEntries, equalEntries, equals_comm a, equalEntries_comm as,
            Bool.beq_comm]

end

mutual

/-- At one and the same place the first value holds the integer `i` and the second `j`. -/
def Pairs (i j : Int64) : Value → Value → Prop
  | int a, int b => a = i ∧ b = j
  | list as, list bs => PairsItems i j as bs
  | map as, map bs => PairsEntries i j as bs
  | _, _ => False

def PairsItems (i j : Int64) : List Value → List Value → Prop
  | a :: as, b :: bs => Pairs i j a b ∨ PairsItems i j as bs
  | _, _ => False

def PairsEntries (i j : Int64) : List (String × Value) → List (String × Value) → Prop
  | (_, a) :: as, (_, b) :: bs => Pairs i j a b ∨ PairsEntries i j as bs
  | _, _ => False

end

/-- Two integers that are rounded to one double, which takes a magnitude of 2^53. -/
structure RoundAlike (i j : Int64) : Prop where
  rounded : (Binary64.ofInt i.toInt).equals (Binary64.ofInt j.toInt) = true
  left_large : 2 ^ 53 ≤ i.toInt.natAbs
  right_large : 2 ^ 53 ≤ j.toInt.natAbs

theorem eq_or_roundAlike {i j : Int64} {x : Binary64}
    (hi : (Binary64.ofInt i.toInt).equals x = true)
    (hj : (Binary64.ofInt j.toInt).equals x = true) : i = j ∨ RoundAlike i j := by
  have hrounded : (Binary64.ofInt i.toInt).equals (Binary64.ofInt j.toInt) = true := by
    rw [Binary64.equals_comm] at hj
    exact Binary64.equals_trans hi hj
  rcases Nat.lt_or_ge i.toInt.natAbs Binary64.exactLimit with hsmall | hleft
  · exact Or.inl (Int64.toInt_inj.mp (Binary64.eq_of_ofInt_equals hsmall hrounded))
  rcases Nat.lt_or_ge j.toInt.natAbs Binary64.exactLimit with hsmall | hright
  · rw [Binary64.equals_comm] at hrounded
    exact Or.inl (Int64.toInt_inj.mp (Binary64.eq_of_ofInt_equals hsmall hrounded)).symm
  · exact Or.inr ⟨hrounded, hleft, hright⟩

/-- What is known of two values that are equal to a third one, of their equality and of the
pairs of integers in them: they are equal if all pairs agree, and pairs that do not are
rounded alike. -/
structure Meet (same : Bool) (pairs : Int64 → Int64 → Prop) : Prop where
  equal_iff : same = true ↔ ∀ i j, pairs i j → i = j
  rounded : ∀ i j, pairs i j → i = j ∨ RoundAlike i j

theorem Meet.of_none {same : Bool} {pairs : Int64 → Int64 → Prop} (hsame : same = true)
    (hpairs : ∀ i j, ¬pairs i j) : Meet same pairs := by
  refine ⟨?_, fun i j hpair => absurd hpair (hpairs i j)⟩
  simp [hsame, hpairs]

theorem Meet.and {same same' : Bool} {pairs pairs' : Int64 → Int64 → Prop}
    (h : Meet same pairs) (h' : Meet same' pairs') :
    Meet (same && same') fun i j => pairs i j ∨ pairs' i j := by
  refine ⟨?_, ?_⟩
  · rw [Bool.and_eq_true, h.equal_iff, h'.equal_iff]
    grind
  · rintro i j (hpair | hpair)
    · exact h.rounded i j hpair
    · exact h'.rounded i j hpair

theorem meet_integers {i j : Int64} (h : i = j ∨ RoundAlike i j) :
    Meet ((int i).equals (int j)) (Pairs · · (int i) (int j)) := by
  refine ⟨?_, ?_⟩
  · simp [equals, Pairs]
  · rintro i' j' ⟨rfl, rfl⟩
    exact h

variable {a c : Value}

/-- Numbers that are equal to an integer. -/
theorem meet_int {k : Int64} (hab : a.equals (int k) = true) (hbc : (int k).equals c = true) :
    Meet (a.equals c) (Pairs · · a c) := by
  cases a <;> simp only [equals, Bool.false_eq_true, beq_iff_eq] at hab
  case int i =>
    obtain rfl := hab
    cases c <;> simp only [equals, Bool.false_eq_true, beq_iff_eq] at hbc
    case int j => exact meet_integers (Or.inl hbc)
    case float y => exact .of_none hbc fun _ _ => id
  case float x =>
    cases c <;> simp only [equals, Bool.false_eq_true, beq_iff_eq] at hbc
    case int j => exact .of_none (hbc ▸ hab) fun _ _ => id
    case float y =>
      rw [Binary64.equals_comm] at hab
      exact .of_none (Binary64.equals_trans hab hbc) fun _ _ => id

/-- Numbers that are equal to a double. Only here two integers may meet that differ. -/
theorem meet_float {x : Binary64} (hab : a.equals (float x) = true)
    (hbc : (float x).equals c = true) : Meet (a.equals c) (Pairs · · a c) := by
  cases a <;> simp only [equals, Bool.false_eq_true] at hab
  case int i =>
    cases c <;> simp only [equals, Bool.false_eq_true] at hbc
    case int j => exact meet_integers (eq_or_roundAlike hab hbc)
    case float y => exact .of_none (Binary64.equals_trans hab hbc) fun _ _ => id
  case float y =>
    cases c <;> simp only [equals, Bool.false_eq_true] at hbc
    case int j =>
      rw [Binary64.equals_comm] at hab
      exact .of_none (Binary64.equals_trans hbc hab) fun _ _ => id
    case float z => exact .of_none (Binary64.equals_trans hab hbc) fun _ _ => id

mutual

/-- Two values that are equal to a third one, which is taken apart. -/
theorem meet : (b : Value) → {a c : Value} → a.equals b = true → b.equals c = true →
    Meet (a.equals c) (Pairs · · a c)
  | int _, _, _, hab, hbc => meet_int hab hbc
  | float _, _, _, hab, hbc => meet_float hab hbc
  | list bs, a, c, hab, hbc => by
      cases a <;> simp only [equals, Bool.false_eq_true] at hab
      cases c <;> simp only [equals, Bool.false_eq_true] at hbc
      exact meetItems bs hab hbc
  | map bs, a, c, hab, hbc => by
      cases a <;> simp only [equals, Bool.false_eq_true] at hab
      cases c <;> simp only [equals, Bool.false_eq_true] at hbc
      exact meetEntries bs hab hbc
  | null, a, c, hab, hbc | bool _, a, c, hab, hbc | string _, a, c, hab, hbc
  | object _, a, c, hab, hbc => by
      cases a <;> simp only [equals, Bool.false_eq_true, beq_iff_eq] at hab
      cases c <;> simp only [equals, Bool.false_eq_true, beq_iff_eq] at hbc
      exact .of_none (by simp [equals, hab, hbc]) fun _ _ => id

theorem meetItems : (bs : List Value) → {as cs : List Value} → equalItems as bs = true →
    equalItems bs cs = true → Meet (equalItems as cs) (PairsItems · · as cs)
  | [], as, cs, hab, hbc => by
      cases as <;> simp only [equalItems, Bool.false_eq_true] at hab
      cases cs <;> simp only [equalItems, Bool.false_eq_true] at hbc
      exact .of_none rfl fun i j => id
  | b :: bs, as, cs, hab, hbc => by
      cases as <;> simp only [equalItems, Bool.false_eq_true, Bool.and_eq_true] at hab
      cases cs <;> simp only [equalItems, Bool.false_eq_true, Bool.and_eq_true] at hbc
      exact (meet b hab.1 hbc.1).and (meetItems bs hab.2 hbc.2)

theorem meetEntries : (bs : List (String × Value)) → {as cs : List (String × Value)} →
    equalEntries as bs = true → equalEntries bs cs = true →
      Meet (equalEntries as cs) (PairsEntries · · as cs)
  | [], as, cs, hab, hbc => by
      cases as <;> simp only [equalEntries, Bool.false_eq_true] at hab
      cases cs <;> simp only [equalEntries, Bool.false_eq_true] at hbc
      exact .of_none rfl fun i j => id
  | (key, b) :: bs, as, cs, hab, hbc => by
      cases as <;> simp only [equalEntries, Bool.false_eq_true, Bool.and_eq_true, beq_iff_eq] at hab
      cases cs <;> simp only [equalEntries, Bool.false_eq_true, Bool.and_eq_true, beq_iff_eq] at hbc
      rename_i first as last cs
      obtain ⟨⟨hkey, hfirst⟩, hrest⟩ := hab
      obtain ⟨⟨hkey', hfirst'⟩, hrest'⟩ := hbc
      have hboth := (meet b hfirst hfirst').and (meetEntries bs hrest hrest')
      rw [equalEntries, hkey, hkey', beq_self_eq_true, Bool.true_and]
      exact hboth

end

/-- The formatter `equals` has one overload, which takes any two values. -/
theorem rank_equals (a b : Value) : Registry.standard.rank "equals" a [b] =
    [(2, ⟨"equals", ⟨.any, [.any], 0, none⟩, Formatter.Standard.onFirst fun value other =>
      .ok (.bool (value.equals other))⟩)] :=
  List.mergeSort_singleton _

theorem invoke_equals (a b : Value) :
    Registry.standard.invoke "equals" a [b] = (.ok (.bool (a.equals b)), false) := by
  rw [Registry.invoke, Registry.select, rank_equals]
  rfl

/-- Equality is symmetric, and the formatter `equals` tells it. Two values that are equal to
a third one are equal to each other, unless they hold at the same place two integers that
are not the same and are rounded to the same double, both at least 2^53 in magnitude. -/
theorem equality_transitive_unless_rounded (a b c : Value) :
    a.equals b = b.equals a ∧
    Registry.standard.invoke "equals" a [b] = (.ok (.bool (a.equals b)), false) ∧
    (a.equals b = true → b.equals c = true →
      (a.equals c = false ↔ ∃ i j, Pairs i j a c ∧ i ≠ j ∧ RoundAlike i j)) := by
  refine ⟨equals_comm a b, invoke_equals a b, ?_⟩
  intro hab hbc
  have hmeet := meet b hab hbc
  rw [← Bool.not_eq_true, hmeet.equal_iff]
  push Not
  constructor
  · rintro ⟨i, j, hpair, hother⟩
    exact ⟨i, j, hpair, hother, (hmeet.rounded i j hpair).resolve_left hother⟩
  · rintro ⟨i, j, hpair, hother, -⟩
    exact ⟨i, j, hpair, hother⟩

/-- Three numbers in maps, of which the middle one is a double. -/
theorem small_numbers_meet :
    let whole := Value.map [("n", .int 3)]
    let double := Value.map [("n", .float (.ofInt 3))]
    whole.equals double = true ∧ double.equals whole = true ∧ whole.equals whole = true := by
  intro whole double
  have hleft : whole.equals double = true := by decide +kernel
  have hright : double.equals whole = true := by decide +kernel
  refine ⟨hleft, hright, ?_⟩
  have hunless := (equality_transitive_unless_rounded whole double whole).2.2 hleft hright
  rw [← Bool.not_eq_false, hunless]
  rintro ⟨i, j, ⟨rfl, rfl⟩ | hnone, hother, -⟩
  · exact hother rfl
  · exact hnone

/-- The double 2^53 is equal to two integers that are not equal. -/
theorem integers_meet_in_double :
    ¬∀ a b c : Value, a.equals b = true → b.equals c = true → a.equals c = true := by
  intro htransitive
  have hodd : (int 9007199254740993).equals (float (.ofInt 9007199254740992)) = true := by
    decide +kernel
  have heven : (float (.ofInt 9007199254740992)).equals (int 9007199254740992) = true := by
    decide +kernel
  have hequal := htransitive _ _ _ hodd heven
  exact absurd hequal (by decide)

end Stencil.Value
