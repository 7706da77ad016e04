import Mathlib.Data.List.Forall2
import Stencil.Path.Reader
import Stencil.Proofs.Text.Blanks

/-!
The characters of a path. A text that is read as a path consists of path
characters only, so that a reader that takes such characters as long as they
come takes the whole of it, and it does not start with a slash.
-/

namespace Stencil

open Text

theorem not_isBlank_of_isPathChar {c : Char} (h : isPathChar c = true) :
    isBlank c = false := by
  simp only [isPathChar, isNameChar, Bool.or_eq_true, beq_iff_eq] at h
  rcases h with ((((((halpha | rfl) | rfl) | rfl) | rfl) | rfl) | rfl) | rfl
  · exact not_isBlank_of_isAlphanumeric halpha
  all_goals rfl

theorem isNameChar_of_isDigit {c : Char} (h : c.isDigit = true) : isNameChar c = true := by
  have hrange : 48 ≤ c.toNat ∧ c.toNat ≤ 57 := Char.isDigit_iff_toNat.mp h
  have hascii : c.toNat < 0x80 := by omega
  have halpha : c.isAlphanum = true := by simp [Char.isAlphanum, h]
  simp [isNameChar, isAlphanumeric, hascii, halpha]

/-- What is read as a segment is a run of digits that is not too large, or name characters
that are not all digits. The path that it is in matters to errors only. -/
theorem Segment.read_eq_ok_iff {path : String} {part : List Char} {segment : Segment} :
    Segment.read path part = .ok segment ↔ part ≠ [] ∧
      (part.all Char.isDigit ∧ Numeral.ofDigits part < Numeral.unsignedLimit ∧
          segment = .index (Numeral.ofDigits part) ∨
        ¬part.all Char.isDigit ∧ (∀ c ∈ part, isNameChar c = true) ∧
          segment = .name (String.ofList part)) := by
  have hfind : part.find? (!isNameChar ·) = none ↔ ∀ c ∈ part, isNameChar c = true := by
    simp [List.find?_eq_none]
  by_cases hempty : part = []
  · simp [Segment.read, hempty]
  have hsome : ¬part.isEmpty := fun h => hempty (List.isEmpty_iff.mp h)
  rw [Segment.read, if_neg hsome]
  constructor
  · intro h
    refine ⟨hempty, ?_⟩
    split at h
    · rename_i hdigits
      simp only [] at h
      split at h
      · rename_i hlimit
        exact Or.inl ⟨hdigits, hlimit, (Except.ok.inj h).symm⟩
      · cases h
    · rename_i hdigits
      split at h
      · cases h
      · rename_i hnone
        exact Or.inr ⟨hdigits, hfind.mp hnone, (Except.ok.inj h).symm⟩
  · rintro ⟨-, ⟨hdigits, hlimit, rfl⟩ | ⟨hdigits, hchars, rfl⟩⟩
    · rw [if_pos hdigits]
      exact if_pos hlimit
    · rw [if_neg hdigits, hfind.mpr hchars]

theorem Segment.isNameChar_of_read {path : String} {part : List Char} {segment : Segment}
    (h : Segment.read path part = .ok segment) : ∀ c ∈ part, isNameChar c = true := by
  obtain ⟨-, ⟨hdigits, -, -⟩ | ⟨-, hchars, -⟩⟩ := Segment.read_eq_ok_iff.mp h
  · exact fun c hc => isNameChar_of_isDigit (List.all_eq_true.mp hdigits c hc)
  · exact hchars

/-- A character of a text is a separator or in one of the parts. -/
theorem Text.mem_splitOn (separator : Char) {c : Char} {s : List Char} (hc : c ∈ s) :
    c = separator ∨ ∃ part ∈ splitOn separator s, c ∈ part := by
  induction s with
  | nil => cases hc
  | cons d s ih =>
      rw [splitOn]
      rcases List.mem_cons.mp hc with rfl | hmem
      · split
        · rename_i heq
          exact Or.inl heq
        split
        · exact Or.inr ⟨[c], List.mem_cons_self .., List.mem_cons_self ..⟩
        · rename_i part parts _
          exact Or.inr ⟨c :: part, List.mem_cons_self .., List.mem_cons_self ..⟩
      · rcases ih hmem with heq | ⟨part, hpart, hin⟩
        · exact Or.inl heq
        right
        split
        · exact ⟨part, List.mem_cons_of_mem _ hpart, hin⟩
        split
        · rename_i hnil
          rw [hnil] at hpart
          cases hpart
        · rename_i first parts hcons
          rw [hcons] at hpart
          rcases List.mem_cons.mp hpart with rfl | hmore
          · exact ⟨d :: part, List.mem_cons_self .., List.mem_cons_of_mem _ hin⟩
          · exact ⟨part, List.mem_cons_of_mem _ hmore, hin⟩

namespace Path

/-- Parts are read one by one. -/
theorem mapM_read_iff {path : String} {parts : List (List Char)} {segments : List Segment} :
    parts.mapM (Segment.read path) = .ok segments ↔
      List.Forall₂ (fun part segment => Segment.read path part = .ok segment) parts segments := by
  induction parts generalizing segments with
  | nil =>
      rw [List.mapM_nil, List.forall₂_nil_left_iff]
      exact ⟨fun h => (Except.ok.inj h).symm, fun h => h ▸ rfl⟩
  | cons part parts ih =>
      rw [List.mapM_cons, List.forall₂_cons_left_iff]
      constructor
      · intro h
        cases hfirst : Segment.read path part with
        | error cause =>
            rw [hfirst] at h
            cases h
        | ok segment =>
            rw [hfirst] at h
            cases hmore : parts.mapM (Segment.read path) with
            | error cause =>
                rw [hmore] at h
                cases h
            | ok more =>
                rw [hmore] at h
                exact ⟨segment, more, rfl, ih.mp hmore, (Except.ok.inj h).symm⟩
      · rintro ⟨segment, more, hfirst, hmore, rfl⟩
        rw [hfirst, ih.mpr hmore]
        rfl

/-- Every part of what was read was read. -/
theorem exists_read_of_mem {path : String} {parts : List (List Char)} {segments : List Segment}
    (h : List.Forall₂ (fun part segment => Segment.read path part = .ok segment) parts segments) :
    ∀ part ∈ parts, ∃ segment, Segment.read path part = .ok segment := by
  induction h with
  | nil => simp
  | cons hfirst _ ih => exact List.forall_mem_cons.mpr ⟨⟨_, hfirst⟩, ih⟩

/-- Segments between points are made of points and name characters. -/
theorem chars_of_mapM_read {path : String} {s : List Char} {segments : List Segment}
    (h : (splitOn '.' s).mapM (Segment.read path) = .ok segments) :
    ∀ c ∈ s, c = '.' ∨ isNameChar c = true := by
  intro c hc
  rcases mem_splitOn '.' hc with heq | ⟨part, hpart, hin⟩
  · exact Or.inl heq
  · obtain ⟨segment, hread⟩ := exists_read_of_mem (mapM_read_iff.mp h) part hpart
    exact Or.inr (Segment.isNameChar_of_read hread c hin)

/-- Steps to enclosing scopes are points and slashes, a point first. -/
theorem climb_append (s : List Char) :
    ∃ steps, s = steps ++ (climb s).2 ∧ (∀ c ∈ steps, c = '.' ∨ c = '/') ∧
      ∀ c ∈ steps.head?, c = '.' := by
  fun_induction climb s with
  | case1 s steps rest hclimb ih =>
      obtain ⟨before, happend, hchars, -⟩ := ih
      rw [hclimb] at happend
      refine ⟨'.' :: '.' :: '/' :: before, by rw [happend]; rfl, ?_, by simp⟩
      intro c hc
      simp only [List.mem_cons] at hc
      rcases hc with rfl | rfl | rfl | hmem
      · exact Or.inl rfl
      · exact Or.inl rfl
      · exact Or.inr rfl
      · exact hchars c hmem
  | case2 => exact ⟨['.', '.'], rfl, by simp, by simp⟩
  | case3 => exact ⟨[], rfl, by simp, by simp⟩

theorem anchor_append (s : List Char) :
    ∃ sign, s = sign ++ (anchor s).2 ∧ (∀ c ∈ sign, c = '.' ∨ c = '/' ∨ c = '~') ∧
      ∀ c ∈ sign.head?, c ≠ '/' := by
  unfold anchor
  split
  · exact ⟨['~', '.'], rfl, by simp, by simp⟩
  · exact ⟨['~'], rfl, by simp, by simp⟩
  · obtain ⟨steps, happend, hchars, hfirst⟩ := climb_append s
    refine ⟨steps, happend, ?_, ?_⟩
    · intro c hc
      rcases hchars c hc with h | h
      · exact Or.inl h
      · exact Or.inr (Or.inl h)
    · intro c hc
      rw [hfirst c hc]
      decide

variable {text : String} {path : Path}

/-- What is known about the text of a path. -/
structure IsPathText (s : List Char) : Prop where
  nonempty : s ≠ []
  chars : ∀ c ∈ s, isPathChar c = true
  first : ∀ c ∈ s.head?, c ≠ '/'

/-- A text that is read as a path is kept as its text, consists of path
characters and does not start with a slash. -/
theorem isPathText_of_parse (h : parse text = .ok path) :
    path.text = text ∧ IsPathText text.toList := by
  unfold parse at h
  split at h
  · cases h
  rename_i hempty
  have hnonempty : text.toList ≠ [] := by
    intro hnil
    exact hempty (by rw [String.isEmpty_iff, ← String.toList_inj, hnil]; rfl)
  split at h
  · rename_i hself
    obtain rfl := Except.ok.inj h
    refine ⟨rfl, hnonempty, ?_, ?_⟩
    · rcases hself with rfl | rfl <;> exact List.all_eq_true.mp rfl
    · rcases hself with rfl | rfl <;> simp
  · simp only [] at h
    obtain ⟨sign, happend, hsign, hfirst⟩ := anchor_append text.toList
    obtain ⟨htext, hrest⟩ : path.text = text ∧
        ∀ c ∈ (anchor text.toList).2, c = '.' ∨ isNameChar c = true := by
      split at h
      · rename_i hnil
        obtain rfl := Except.ok.inj h
        rw [List.isEmpty_iff] at hnil
        exact ⟨rfl, by simp [hnil]⟩
      · cases hsegments : (splitOn '.' (anchor text.toList).2).mapM (Segment.read text) with
        | error cause =>
            rw [hsegments] at h
            cases h
        | ok segments =>
            rw [hsegments] at h
            obtain rfl := Except.ok.inj h
            exact ⟨rfl, chars_of_mapM_read hsegments⟩
    refine ⟨htext, hnonempty, ?_, ?_⟩
    · intro c hc
      rw [happend] at hc
      rcases List.mem_append.mp hc with hmem | hmem
      · rcases hsign c hmem with rfl | rfl | rfl <;> rfl
      · rcases hrest c hmem with rfl | hname
        · rfl
        · simp [isPathChar, hname]
    · intro c hc
      rw [happend] at hc
      cases sign with
      | nil =>
          rw [List.nil_append] at hc
          rcases hrest c (List.mem_of_mem_head? hc) with rfl | hname
          · decide
          · rintro rfl
            revert hname
            decide
      | cons d sign => exact hfirst c hc

end Path

end Stencil
