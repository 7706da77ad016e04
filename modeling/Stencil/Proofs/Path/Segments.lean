import Stencil.Proofs.Path.Characters

/-!
The segments of a path. A path that was read has at least one segment, its names
are no positions, and `.` stands alone.
-/

namespace Stencil

/-- The names among segments. -/
def Segment.names (segments : List Segment) : List String :=
  segments.filterMap fun
    | .name text => some text
    | _ => none

/-- Names that no list takes for a position. -/
def Segment.AreNames (segments : List Segment) : Prop :=
  ∀ name ∈ names segments, Numeral.unsigned? name.toList = none

theorem Segment.mem_names {segments : List Segment} {text : String}
    (h : text ∈ names segments) : .name text ∈ segments := by
  obtain ⟨segment, hmem, htext⟩ := List.mem_filterMap.mp h
  cases segment with
  | name other =>
      obtain rfl := Option.some.inj htext
      exact hmem
  | index | self | parent | root => cases htext

/-- A position, or a name that no list takes for one. -/
inductive Segment.IsPart : Segment → Prop where
  | index (position : Nat) : IsPart (.index position)
  | name {text : String} (notPosition : Numeral.unsigned? text.toList = none) :
      IsPart (.name text)

/-- What is read between points is a position or a name that is none. -/
theorem Segment.isPart_of_read {path : String} {part : List Char} {segment : Segment}
    (h : Segment.read path part = .ok segment) : segment.IsPart := by
  obtain ⟨-, ⟨-, -, rfl⟩ | ⟨hdigits, hchars, rfl⟩⟩ := Segment.read_eq_ok_iff.mp h
  · exact .index _
  · have hnatural : Numeral.natural? part = none := by
      simp [Numeral.natural?, hdigits]
    have notSigned : ∀ digits, part ≠ '+' :: digits := by
      rintro digits rfl
      have hplus := hchars '+' (List.mem_cons_self ..)
      revert hplus
      decide
    apply IsPart.name
    rw [String.toList_ofList, Numeral.unsigned?, hnatural]
    · rfl
    · exact notSigned

namespace Path

/-- The path is one that the reader of paths makes. -/
def IsRead (path : Path) : Prop :=
  ∃ text, parse text = .ok path

/-- What is known about the segments of a path. -/
structure IsWellFormed (segments : List Segment) : Prop where
  nonempty : segments ≠ []
  alone : ∀ rest, segments = .self :: rest → rest = []
  names : Segment.AreNames segments

theorem climb_parents (s : List Char) : ∀ step ∈ (climb s).1, step = .parent := by
  fun_induction climb s with
  | case1 s steps rest hclimb ih =>
      rw [hclimb] at ih
      exact List.forall_mem_cons.mpr ⟨rfl, ih⟩
  | case2 => simp
  | case3 => simp

/-- An anchor is the root or steps to enclosing scopes, and if it is empty then
nothing was taken for it. -/
theorem anchor_steps (s : List Char) :
    (∀ step ∈ (anchor s).1, step = .root ∨ step = .parent) ∧
      ((anchor s).1 = [] → (anchor s).2 = s) := by
  unfold anchor
  split
  · simp
  · simp
  · refine ⟨fun step hstep => Or.inr (climb_parents s step hstep), ?_⟩
    unfold climb
    split <;> simp

theorem splitOn_ne_nil (separator : Char) (s : List Char) : Text.splitOn separator s ≠ [] := by
  cases s with
  | nil => exact List.cons_ne_nil _ _
  | cons c s =>
      rw [Text.splitOn]
      split
      · exact List.cons_ne_nil _ _
      · split <;> exact List.cons_ne_nil _ _

/-- Segments that are read from parts are positions and names. -/
theorem forall_of_mapM_read {text : String} {parts : List (List Char)} {segments : List Segment}
    (h : parts.mapM (Segment.read text) = .ok segments) :
    segments.length = parts.length ∧ ∀ segment ∈ segments, segment.IsPart := by
  have hparts := mapM_read_iff.mp h
  refine ⟨hparts.length_eq.symm, ?_⟩
  clear h
  induction hparts with
  | nil => simp
  | cons hread _ ih => exact List.forall_mem_cons.mpr ⟨Segment.isPart_of_read hread, ih⟩

/-- An anchor and what follows it are well-formed together. -/
theorem wellFormed_append {steps segments : List Segment} (nonempty : steps ++ segments ≠ [])
    (hsteps : ∀ step ∈ steps, step = .root ∨ step = .parent)
    (hsegments : ∀ segment ∈ segments, segment.IsPart) : IsWellFormed (steps ++ segments) := by
  refine ⟨nonempty, ?_, ?_⟩
  · intro rest hself
    have hmem : Segment.self ∈ steps ++ segments := by
      rw [hself]
      exact List.mem_cons_self ..
    rcases List.mem_append.mp hmem with hstep | hsegment
    · rcases hsteps _ hstep with heq | heq <;> cases heq
    · cases hsegments _ hsegment
  · intro text htext
    rcases List.mem_append.mp (Segment.mem_names htext) with hstep | hsegment
    · rcases hsteps _ hstep with heq | heq <;> cases heq
    · cases hsegments _ hsegment with
      | name notPosition => exact notPosition

/-- What is after the anchor is read as these parts: none if there is nothing, else one
between any two points. -/
def AreRead (text : String) (rest : List Char) (parts : List Segment) : Prop :=
  rest = [] ∧ parts = [] ∨
    rest ≠ [] ∧ (Text.splitOn '.' rest).mapM (Segment.read text) = .ok parts

theorem AreRead.isPart {text : String} {rest : List Char} {parts : List Segment}
    (h : AreRead text rest parts) : ∀ part ∈ parts, part.IsPart := by
  obtain ⟨-, rfl⟩ | ⟨-, hread⟩ := h
  · simp
  · exact (forall_of_mapM_read hread).2

theorem AreRead.nonempty {text : String} {rest : List Char} {parts : List Segment}
    (h : AreRead text rest parts) (hrest : rest ≠ []) : parts ≠ [] := by
  obtain ⟨hnone, -⟩ | ⟨-, hread⟩ := h
  · exact absurd hnone hrest
  · rintro rfl
    have hlength := (forall_of_mapM_read hread).1
    exact splitOn_ne_nil _ _ (List.length_eq_zero_iff.mp hlength.symm)

/-- A path that was read is the current value, or an anchor and parts. -/
theorem parse_cases {text : String} {path : Path} (h : parse text = .ok path) :
    (text = "." ∨ text = "this") ∧ path.segments = [.self] ∨
      text ≠ "" ∧ ¬(text = "." ∨ text = "this") ∧
        ∃ parts, AreRead text (anchor text.toList).2 parts ∧
          path.segments = (anchor text.toList).1 ++ parts := by
  unfold parse at h
  split at h
  · cases h
  rename_i hempty
  have nonempty : text ≠ "" := fun heq => hempty (String.isEmpty_iff.mpr heq)
  split at h
  · rename_i hself
    obtain rfl := Except.ok.inj h
    exact Or.inl ⟨hself, rfl⟩
  · rename_i hself
    refine Or.inr ⟨nonempty, hself, ?_⟩
    simp only [] at h
    split at h
    · rename_i hrest
      obtain rfl := Except.ok.inj h
      exact ⟨[], Or.inl ⟨List.isEmpty_iff.mp hrest, rfl⟩, rfl⟩
    · rename_i hrest
      cases hparts : (Text.splitOn '.' (anchor text.toList).2).mapM (Segment.read text) with
      | error cause =>
          rw [hparts] at h
          cases h
      | ok parts =>
          rw [hparts] at h
          obtain rfl := Except.ok.inj h
          exact ⟨parts, Or.inr ⟨fun hnil => hrest (List.isEmpty_iff.mpr hnil), hparts⟩, rfl⟩

theorem IsRead.wellFormed {path : Path} (h : path.IsRead) : IsWellFormed path.segments := by
  obtain ⟨text, hparse⟩ := h
  rcases parse_cases hparse with ⟨-, hself⟩ | ⟨hempty, -, parts, hparts, hsegments⟩
  · rw [hself]
    refine ⟨List.cons_ne_nil _ _, ?_, ?_⟩
    · intro rest hself
      exact (List.cons.inj hself).2.symm
    · intro name hname
      cases Segment.mem_names hname with
      | tail _ hmem => cases hmem
  · obtain ⟨hsteps, hnone⟩ := anchor_steps text.toList
    rw [hsegments]
    refine wellFormed_append ?_ hsteps hparts.isPart
    intro hnil
    obtain ⟨hanchor, hpartless⟩ := List.append_eq_nil_iff.mp hnil
    refine hparts.nonempty ?_ hpartless
    rw [hnone hanchor]
    exact fun hchars => hempty (String.toList_eq_nil_iff.mp hchars)

end Path

end Stencil
