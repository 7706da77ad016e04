import Stencil.Text.Search

/-!
Where `cut?` finds a mark: behind the text in which the mark does not begin. Before a
mark that starts with one character twice, as `{{` does, may stand any text that
neither holds the character twice in a row nor ends in it.
-/

namespace Stencil.Text

variable {mark s t before after : List Char} {c : Char}

/-- The mark begins nowhere in a text that is followed by another; it may end behind the
text. -/
def NoneBegins (mark inside after : List Char) : Prop :=
  ∀ first second, inside = first ++ second → second ≠ [] → ¬mark <+: second ++ after

theorem noneBegins_nil (mark after : List Char) : NoneBegins mark [] after := by
  intro first second hinside hsecond
  exact absurd (List.append_eq_nil_iff.mp hinside.symm).2 hsecond

theorem noneBegins_cons :
    NoneBegins mark (c :: s) after ↔ ¬mark <+: c :: (s ++ after) ∧ NoneBegins mark s after := by
  refine ⟨fun h => ⟨h [] (c :: s) rfl (by simp), ?_⟩, ?_⟩
  · intro first second hinside
    exact h (c :: first) second (by rw [hinside, List.cons_append])
  · rintro ⟨hhere, hlater⟩ first second hinside hsecond
    cases first with
    | nil =>
        rw [List.nil_append] at hinside
        rw [← hinside]
        exact hhere
    | cons d first => exact hlater first second (List.cons.inj hinside).2 hsecond

theorem noneBegins_append :
    NoneBegins mark (s ++ t) after ↔ NoneBegins mark s (t ++ after) ∧ NoneBegins mark t after := by
  induction s with
  | nil => simp [noneBegins_nil]
  | cons c s ih =>
      rw [List.cons_append, noneBegins_cons, noneBegins_cons, ih, and_assoc, List.append_assoc]

/-- A mark does not begin in a text without its first character. -/
theorem noneBegins_of_not_mem (hc : c ∉ s) (mark after : List Char) :
    NoneBegins (c :: mark) s after := by
  rintro first second rfl hsecond hbegins
  obtain ⟨d, rest, rfl⟩ := List.exists_cons_of_ne_nil hsecond
  obtain ⟨rfl, -⟩ := List.cons_prefix_cons.mp hbegins
  exact hc (by simp)

/-- A mark that is nowhere in a text does not begin in it either, if what follows does not
go on with a character of the mark. -/
theorem noneBegins_of_not_isInfix (hno : ¬mark <:+: s) (hafter : ∀ d ∈ after.head?, d ∉ mark) :
    NoneBegins mark s after := by
  rintro first second rfl hsecond hbegins
  rcases List.prefix_or_prefix_of_prefix hbegins (List.prefix_append second after) with
    ⟨more, rfl⟩ | ⟨more, rfl⟩
  · exact hno ⟨first, more, by rw [List.append_assoc]⟩
  · cases more with
    | nil => exact hno ⟨first, [], by rw [List.append_nil, List.append_nil]⟩
    | cons d more =>
        obtain ⟨rest, hrest⟩ := (List.prefix_append_right_inj second).mp hbegins
        exact hafter d (by rw [← hrest]; rfl) (by simp)

/-- The text before the first mark is one in which none begins. -/
theorem noneBegins_of_cut? (h : cut? mark s = some (before, after)) :
    NoneBegins mark before (mark ++ after) := by
  induction s generalizing before after with
  | nil =>
      simp only [cut?] at h
      split at h
      · obtain ⟨rfl, -⟩ := Prod.mk.inj (Option.some.inj h)
        exact noneBegins_nil mark _
      · cases h
  | cons c s ih =>
      have happend := append_of_cut? h
      simp only [cut?] at h
      split at h
      · obtain ⟨rfl, -⟩ := Prod.mk.inj (Option.some.inj h)
        exact noneBegins_nil mark _
      · rename_i hstart
        obtain ⟨⟨rest, after'⟩, hcut, hparts⟩ := Option.map_eq_some_iff.mp h
        obtain ⟨rfl, rfl⟩ := Prod.mk.inj hparts
        refine noneBegins_cons.mpr ⟨?_, ih hcut⟩
        rw [List.isPrefixOf_iff_prefix, happend] at hstart
        simpa using hstart

theorem noneBegins_of_cut?_none (h : cut? mark s = none) : NoneBegins mark s [] := by
  induction s with
  | nil => exact noneBegins_nil mark _
  | cons c s ih =>
      simp only [cut?] at h
      split at h
      · cases h
      · rename_i hstart
        refine noneBegins_cons.mpr ⟨?_, ih (Option.map_eq_none_iff.mp h)⟩
        rw [List.isPrefixOf_iff_prefix] at hstart
        simpa using hstart

namespace NoneBegins

/-- If the mark begins nowhere in a text, it begins nowhere in the front of it. -/
theorem front {inside more : List Char} (h : NoneBegins mark (inside ++ more) after) :
    NoneBegins mark inside (more ++ after) := by
  intro first second hinside hsecond hbegins
  refine h first (second ++ more) (by rw [hinside, List.append_assoc]) (by simp [hsecond]) ?_
  rwa [List.append_assoc]

theorem not_isInfix (h : NoneBegins mark s after) (hmark : mark ≠ []) : ¬mark <:+: s := by
  rintro ⟨first, rest, rfl⟩
  refine h first (mark ++ rest) (List.append_assoc ..) (by simp [hmark]) ?_
  rw [List.append_assoc]
  exact List.prefix_append _ _

/-- What comes after the last place where the mark could still begin is of no matter. -/
theorem extend {inside : List Char} (h : NoneBegins mark inside after)
    (hlength : mark.length ≤ after.length + 1) (more : List Char) :
    NoneBegins mark inside (after ++ more) := by
  intro first second hinside hsecond hbegins
  have hpos := List.length_pos_iff.mpr hsecond
  refine h first second hinside hsecond
    (List.prefix_of_prefix_length_le hbegins ?_ (by rw [List.length_append]; omega))
  rw [← List.append_assoc]
  exact List.prefix_append _ _

theorem of_append {inside more : List Char} (h : NoneBegins mark inside (after ++ more)) :
    NoneBegins mark inside after := by
  intro first second hinside hsecond hbegins
  refine h first second hinside hsecond (hbegins.trans ?_)
  rw [← List.append_assoc]
  exact List.prefix_append _ _

/-- The first mark is the one behind a text in which none begins. -/
theorem cut? (h : NoneBegins mark before (mark ++ after)) :
    cut? mark (before ++ (mark ++ after)) = some (before, after) := by
  induction before with
  | nil =>
      cases hsource : mark ++ after with
      | nil =>
          obtain ⟨rfl, rfl⟩ := List.append_eq_nil_iff.mp hsource
          rfl
      | cons c s =>
          have hstart : mark.isPrefixOf (c :: s) = true :=
            List.isPrefixOf_iff_prefix.mpr (hsource ▸ List.prefix_append _ _)
          rw [List.nil_append, Text.cut?, if_pos hstart, ← hsource, List.drop_left]
  | cons c before ih =>
      obtain ⟨hhere, hlater⟩ := noneBegins_cons.mp h
      have hno : ¬mark.isPrefixOf (c :: (before ++ (mark ++ after))) = true := by
        rwa [List.isPrefixOf_iff_prefix]
      rw [List.cons_append, Text.cut?, if_neg hno, ih hlater]
      rfl

theorem cut?_none (hmark : mark ≠ []) (h : NoneBegins mark s []) : Text.cut? mark s = none := by
  cases hcut : Text.cut? mark s with
  | none => rfl
  | some parts =>
      obtain ⟨before, rest⟩ := parts
      exact absurd ⟨before, rest, (append_of_cut? hcut).symm⟩ (h.not_isInfix hmark)

/-- The first mark of a source begins behind a front of it in which none begins. -/
theorem length_le {inside rest : List Char} (h : NoneBegins mark inside after)
    (hcut : Text.cut? mark (inside ++ after) = some (before, rest)) :
    inside.length ≤ before.length := by
  have happend := append_of_cut? hcut
  rw [List.append_assoc] at happend
  rcases List.append_eq_append_iff.mp happend with ⟨more, hbefore, -⟩ | ⟨more, hinside, hmore⟩
  · rw [hbefore, List.length_append]
    omega
  · cases more with
    | nil => exact Nat.le_of_eq (by rw [hinside, List.append_nil])
    | cons d more =>
        exact absurd (hmore ▸ List.prefix_append _ _) (h before (d :: more) hinside (by simp))

end NoneBegins

/-- The text holds the character twice in a row. -/
def HasPair (c : Char) (s : List Char) : Prop :=
  [c, c] <:+: s

instance (c : Char) (s : List Char) : Decidable (HasPair c s) :=
  inferInstanceAs (Decidable (_ <:+: _))

/-- The text does not run into the pair of this character that follows it. -/
def ClearOf (c : Char) (s : List Char) : Prop :=
  ¬HasPair c s ∧ s.getLast? ≠ some c

instance (c : Char) (s : List Char) : Decidable (ClearOf c s) :=
  inferInstanceAs (Decidable (_ ∧ _))

theorem not_hasPair_nil : ¬HasPair c [] := by
  rintro ⟨before, rest, h⟩
  simp at h

theorem hasPair_cons {d : Char} :
    HasPair c (d :: s) ↔ (d = c ∧ s.head? = some c) ∨ HasPair c s := by
  rw [HasPair, List.infix_cons_iff]
  refine or_congr ?_ Iff.rfl
  cases s with
  | nil => simp
  | cons e s => simp [eq_comm]

/-- A pair in two texts after each other is in one of them, or one half of it
is. -/
theorem hasPair_append :
    HasPair c (s ++ t) ↔
      HasPair c s ∨ HasPair c t ∨ (s.getLast? = some c ∧ t.head? = some c) := by
  induction s with
  | nil =>
      have hnil : ¬HasPair c [] := not_hasPair_nil
      simp [hnil]
  | cons d s ih =>
      rw [List.cons_append, hasPair_cons, ih, hasPair_cons]
      cases s with
      | nil =>
          have hnil : ¬HasPair c [] := not_hasPair_nil
          simp only [List.nil_append, hnil, List.head?_nil, List.getLast?_nil,
            List.getLast?_singleton, Option.some.injEq]
          grind
      | cons e s =>
          simp only [List.cons_append, List.head?_cons, List.getLast?_cons_cons]
          grind

theorem ClearOf.tail {d : Char} (h : ClearOf c (d :: s)) : ClearOf c s := by
  obtain ⟨hpair, hlast⟩ := h
  refine ⟨fun hs => hpair (hasPair_cons.mpr (Or.inr hs)), ?_⟩
  cases s with
  | nil => simp
  | cons e s => rwa [List.getLast?_cons_cons] at hlast

/-- A mark that starts with a pair begins nowhere in a text that is clear of it and
followed by such a mark. -/
theorem ClearOf.noneBegins (hclear : ClearOf c s) (mark after : List Char) :
    NoneBegins (c :: c :: mark) s (c :: c :: mark ++ after) := by
  induction s with
  | nil => exact noneBegins_nil _ _
  | cons d s ih =>
      refine noneBegins_cons.mpr ⟨fun hbegins => hclear.1 ?_, ih hclear.tail⟩
      obtain ⟨hfirst, hrest⟩ := List.cons_prefix_cons.mp hbegins
      cases s with
      | nil => exact absurd (by rw [hfirst]; rfl) hclear.2
      | cons e s =>
          obtain ⟨hsecond, -⟩ := List.cons_prefix_cons.mp hrest
          exact hasPair_cons.mpr (Or.inl ⟨hfirst.symm, by rw [hsecond]; rfl⟩)

end Stencil.Text
