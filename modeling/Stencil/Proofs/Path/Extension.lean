import Stencil.Proofs.Path.Segments

/-!
Paths with one more part. Reading a path, a point and a run of name characters is reading
the path and then the run.
-/

namespace Stencil

theorem Text.splitOn_append (separator : Char) (s t : List Char) :
    splitOn separator (s ++ separator :: t) = splitOn separator s ++ splitOn separator t := by
  induction s with
  | nil =>
      rw [List.nil_append, splitOn.eq_2, if_pos rfl]
      rfl
  | cons c s ih =>
      rw [List.cons_append, splitOn, splitOn, ih]
      split
      · rfl
      · cases hs : splitOn separator s with
        | nil => exact absurd hs (Path.splitOn_ne_nil separator s)
        | cons part parts => rfl

theorem Text.splitOn_of_not_mem {separator : Char} {s : List Char} (h : separator ∉ s) :
    splitOn separator s = [s] := by
  induction s with
  | nil => rfl
  | cons c s ih =>
      obtain ⟨hc, hs⟩ := List.ne_and_not_mem_of_not_mem_cons h
      rw [splitOn, if_neg (Ne.symm hc), ih hs]

/-- The text that a segment is read for matters to errors only. -/
theorem Segment.read_congr {text other : String} {part : List Char} {segment : Segment}
    (h : Segment.read text part = .ok segment) : Segment.read other part = .ok segment :=
  Segment.read_eq_ok_iff.mpr (Segment.read_eq_ok_iff.mp h)

namespace Path

/-- What a part is written as: at least one name character. -/
structure IsPartText (s : List Char) : Prop where
  nonempty : s ≠ []
  chars : ∀ c ∈ s, isNameChar c = true

variable {k : List Char}

theorem IsPartText.exists_cons (hk : IsPartText k) :
    ∃ c s, k = c :: s ∧ c ≠ '.' ∧ c ≠ '/' ∧ c ≠ '~' := by
  obtain ⟨c, s, rfl⟩ := List.exists_cons_of_ne_nil hk.nonempty
  have hc := hk.chars c (List.mem_cons_self ..)
  refine ⟨c, s, rfl, ?_, ?_, ?_⟩
  all_goals
    rintro rfl
    revert hc
    decide +kernel

theorem IsPartText.not_mem (hk : IsPartText k) : '.' ∉ k := by
  intro hmem
  have hpoint := hk.chars '.' hmem
  revert hpoint
  decide +kernel

theorem climb_eq_self {s : List Char} (hstep : ∀ t, s ≠ '.' :: '.' :: '/' :: t)
    (hlast : s ≠ ['.', '.']) : climb s = ([], s) := by
  unfold climb
  split
  · exact absurd rfl (hstep _)
  · exact absurd rfl hlast
  · rfl

/-- A further part does not change the anchor before it, unless a part before it is empty. -/
theorem climb_extended (hk : IsPartText k) (s : List Char) :
    (climb (s ++ '.' :: k)).2.head? = some '.' ∨
      (climb s).2 ≠ [] ∧ climb (s ++ '.' :: k) = ((climb s).1, (climb s).2 ++ '.' :: k) := by
  obtain ⟨c, u, rfl, hpoint, hslash, -⟩ := hk.exists_cons
  fun_induction climb s with
  | case1 s steps rest hclimb ih =>
      rw [hclimb] at ih
      rcases ih with hhead | ⟨hrest, hmore⟩
      · exact Or.inl hhead
      · refine Or.inr ⟨hrest, ?_⟩
        simp only [List.cons_append, climb, hmore]
  | case2 =>
      left
      rw [climb_eq_self]
      · rfl
      · simp
      · simp
  | case3 s hstep hlast =>
      have hsame : climb (s ++ '.' :: c :: u) = ([], s ++ '.' :: c :: u) := by
        apply climb_eq_self
        · intro t heq
          rcases s with _ | ⟨d, _ | ⟨e, _ | ⟨f, s⟩⟩⟩ <;>
            simp only [List.nil_append, List.cons_append, List.cons.injEq] at heq
          · exact hpoint heq.2.1
          · exact hslash heq.2.2.1
          · exact absurd heq.2.2.1 (by decide)
          · obtain ⟨rfl, rfl, rfl, -⟩ := heq
            exact hstep s rfl
        · intro heq
          rcases s with _ | ⟨d, s⟩ <;>
            simp only [List.nil_append, List.cons_append, List.cons.injEq] at heq
          · exact hpoint heq.2.1
          · have hlength := congrArg List.length heq.2
            simp at hlength
            omega
      cases s with
      | nil =>
          left
          rw [hsame]
          rfl
      | cons d s => exact Or.inr ⟨List.cons_ne_nil _ _, hsame⟩

theorem anchor_eq_climb {s : List Char} (h : s.head? ≠ some '~') : anchor s = climb s := by
  unfold anchor
  split
  · exact absurd rfl h
  · exact absurd rfl h
  · rfl

theorem anchor_of_part (hk : IsPartText k) : anchor k = ([], k) := by
  obtain ⟨c, u, rfl, hpoint, -, hroot⟩ := hk.exists_cons
  rw [anchor_eq_climb (by simpa using hroot), climb_eq_self]
  · exact fun t heq => hpoint (List.cons.inj heq).1
  · exact fun heq => hpoint (List.cons.inj heq).1

/-- The same for every anchor; a point after the root sign belongs to it. -/
theorem anchor_extended (hk : IsPartText k) (s : List Char) :
    (anchor (s ++ '.' :: k)).2.head? = some '.' ∨
      (anchor (s ++ '.' :: k)).1 = (anchor s).1 ∧
        ((anchor s).2 = [] ∧ (anchor (s ++ '.' :: k)).2 = k ∨
          (anchor s).2 ≠ [] ∧ (anchor (s ++ '.' :: k)).2 = (anchor s).2 ++ '.' :: k) := by
  by_cases hroot : s.head? = some '~'
  · obtain ⟨c, s, rfl⟩ := List.exists_cons_of_ne_nil (l := s) (by rintro rfl; cases hroot)
    obtain rfl := Option.some.inj hroot
    rcases s with _ | ⟨d, s⟩
    · exact Or.inr ⟨rfl, Or.inl ⟨rfl, rfl⟩⟩
    · by_cases hd : d = '.'
      · subst hd
        cases s with
        | nil => exact Or.inl rfl
        | cons e s => exact Or.inr ⟨rfl, Or.inr ⟨List.cons_ne_nil _ _, rfl⟩⟩
      · have hread (t : List Char) : anchor ('~' :: d :: t) = ([.root], d :: t) := by
          unfold anchor
          split
          · rename_i heq
            exact absurd (List.cons.inj (List.cons.inj heq).2).1 hd
          · rename_i heq
            rw [(List.cons.inj heq).2]
          · rename_i heq
            exact absurd rfl (heq _)
        rw [List.cons_append, List.cons_append, hread, hread]
        exact Or.inr ⟨rfl, Or.inr ⟨List.cons_ne_nil _ _, rfl⟩⟩
  · have happend : (s ++ '.' :: k).head? ≠ some '~' := by
      cases s with
      | nil => simp
      | cons c s => exact hroot
    rw [anchor_eq_climb hroot, anchor_eq_climb happend]
    refine (climb_extended hk s).imp_right fun ⟨hrest, hclimb⟩ => ?_
    rw [hclimb]
    exact ⟨rfl, Or.inr ⟨hrest, rfl⟩⟩

/-- No part is empty. -/
theorem not_areRead_of_head? {text : String} {rest : List Char} {parts : List Segment}
    (h : rest.head? = some '.') : ¬AreRead text rest parts := by
  obtain ⟨c, s, rfl⟩ := List.exists_cons_of_ne_nil (l := rest) (by rintro rfl; cases h)
  obtain rfl := Option.some.inj h
  rintro (⟨hnil, -⟩ | ⟨-, hread⟩)
  · cases hnil
  · rw [Text.splitOn, if_pos rfl, List.mapM_cons] at hread
    cases hread

theorem mapM_read_congr {text other : String} {parts : List (List Char)}
    {segments : List Segment} (h : parts.mapM (Segment.read text) = .ok segments) :
    parts.mapM (Segment.read other) = .ok segments :=
  mapM_read_iff.mpr ((mapM_read_iff.mp h).imp fun _ _ => Segment.read_congr)

theorem areRead_part {text : String} (hk : IsPartText k) {parts : List Segment}
    (h : AreRead text k parts) : ∃ part, Segment.read text k = .ok part ∧ parts = [part] := by
  obtain ⟨hnil, -⟩ | ⟨-, hread⟩ := h
  · exact absurd hnil hk.nonempty
  · rw [Text.splitOn_of_not_mem hk.not_mem, List.mapM_cons] at hread
    cases hpart : Segment.read text k with
    | error cause =>
        rw [hpart] at hread
        cases hread
    | ok part =>
        rw [hpart] at hread
        exact ⟨part, rfl, (Except.ok.inj hread).symm⟩

/-- One more part is read after the others. -/
theorem areRead_append {text other : String} (hk : IsPartText k) {rest : List Char}
    {parts extended : List Segment} (hrest : rest ≠ []) (h : AreRead text rest parts)
    (hextended : AreRead other (rest ++ '.' :: k) extended) :
    ∃ part, Segment.read other k = .ok part ∧ extended = parts ++ [part] := by
  obtain ⟨hnil, -⟩ | ⟨-, hread⟩ := h
  · exact absurd hnil hrest
  obtain ⟨hnil, -⟩ | ⟨-, hall⟩ := hextended
  · simp at hnil
  rw [Text.splitOn_append, Text.splitOn_of_not_mem hk.not_mem, List.mapM_append,
    mapM_read_congr hread, List.mapM_cons] at hall
  cases hpart : Segment.read other k with
  | error cause =>
      rw [hpart] at hall
      cases hall
  | ok part =>
      rw [hpart] at hall
      exact ⟨part, rfl, (Except.ok.inj hall).symm⟩

theorem extended_ne_current {part : String} (hpart : IsPartText part.toList) (text : String) :
    ¬(text ++ "." ++ part = "." ∨ text ++ "." ++ part = "this") := by
  have hlength := List.length_pos_iff.mpr hpart.nonempty
  rintro (h | h)
  · have hchars := congrArg (List.length ∘ String.toList) h
    simp at hchars
    omega
  · have hpoint : '.' ∈ (text ++ "." ++ part).toList := by simp
    rw [h] at hpoint
    revert hpoint
    decide

/-- A path that is written as another one, a point and a part has the same anchor and one
more part. -/
theorem parse_extended {text part : String} {path extended : Path}
    (hpart : IsPartText part.toList) (hself : text ≠ "this") (hpath : parse text = .ok path)
    (hextended : parse (text ++ "." ++ part) = .ok extended) :
    ∃ parts last, AreRead text (anchor text.toList).2 parts ∧
      Segment.read part part.toList = .ok last ∧
      path.segments = (anchor text.toList).1 ++ parts ∧
      extended.segments = (anchor text.toList).1 ++ (parts ++ [last]) := by
  have hchars : (text ++ "." ++ part).toList = text.toList ++ '.' :: part.toList := by
    simp
  obtain ⟨hcurrent, -⟩ | ⟨-, -, all, hall, hsegments⟩ := parse_cases hextended
  · exact absurd hcurrent (extended_ne_current hpart text)
  rw [hchars] at hall hsegments
  obtain ⟨rfl | hthis, -⟩ | ⟨-, -, parts, hparts, hpathSegments⟩ := parse_cases hpath
  · -- Two points after another are no step, so that a part would be empty.
    have hhead : (anchor ('.' :: '.' :: part.toList)).2.head? = some '.' := by
      rcases anchor_extended hpart ['.'] with hhead | ⟨-, ⟨hnil, -⟩ | ⟨-, hrest⟩⟩
      · exact hhead
      · cases hnil
      · exact congrArg List.head? hrest
    exact absurd hall (not_areRead_of_head? hhead)
  · exact absurd hthis hself
  rcases anchor_extended hpart text.toList with hhead | ⟨hsteps, hcases⟩
  · exact absurd hall (not_areRead_of_head? hhead)
  rw [hsteps] at hsegments
  obtain ⟨last, hlast, rfl⟩ : ∃ last, Segment.read (text ++ "." ++ part) part.toList = .ok last ∧
      all = parts ++ [last] := by
    rcases hcases with ⟨hnil, hrest⟩ | ⟨hrest, happend⟩
    · obtain ⟨-, rfl⟩ | ⟨hsome, -⟩ := hparts
      · rw [hrest] at hall
        exact areRead_part hpart hall
      · exact absurd hnil hsome
    · rw [happend] at hall
      exact areRead_append hpart hrest hparts hall
  exact ⟨parts, last, hparts, Segment.read_congr hlast, hpathSegments, hsegments⟩

end Path

end Stencil
