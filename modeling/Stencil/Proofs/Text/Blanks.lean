import Mathlib.Data.List.TakeWhile
import Stencil.Text.Alphanumeric
import Stencil.Text.Blank

/-!
Runs of one class of characters, and trimming. White space is never part of a
name, so that a run of name characters ends where white space starts.
-/

namespace Stencil.Text

variable {p : Char → Bool} {s rest : List Char}

/-- A run of a class that is followed by a character outside it, or by nothing. -/
theorem takeWhile_append_stop (hrun : ∀ c ∈ s, p c = true)
    (hstop : ∀ c ∈ rest.head?, p c = false) : (s ++ rest).takeWhile p = s := by
  rw [List.takeWhile_append_of_pos hrun]
  cases rest with
  | nil => simp
  | cons c rest => simp [hstop c rfl]

theorem dropWhile_append_stop (hrun : ∀ c ∈ s, p c = true)
    (hstop : ∀ c ∈ rest.head?, p c = false) : (s ++ rest).dropWhile p = rest := by
  rw [List.dropWhile_append_of_pos hrun]
  cases rest with
  | nil => rfl
  | cons c rest => simp [hstop c rfl]

theorem forall_of_any_eq_false (h : s.any p = false) : ∀ c ∈ s, p c = false := by
  intro c hc
  simpa using List.any_eq_false.mp h c hc

def AllBlank (s : List Char) : Prop :=
  ∀ c ∈ s, isBlank c = true

theorem allBlank_nil : AllBlank [] := by
  intro c hc
  cases hc

theorem allBlank_space : AllBlank [' '] := by
  intro c hc
  rw [List.mem_singleton.mp hc]
  rfl

theorem AllBlank.append {before after : List Char} (hbefore : AllBlank before)
    (hafter : AllBlank after) : AllBlank (before ++ after) := by
  intro c hc
  rcases List.mem_append.mp hc with hmem | hmem
  · exact hbefore c hmem
  · exact hafter c hmem

@[simp] theorem trimStart_nil : trimStart [] = [] := rfl

theorem trimStart_append (hblank : AllBlank s) : trimStart (s ++ rest) = trimStart rest :=
  List.dropWhile_append_of_pos hblank

theorem trimStart_of_allBlank (hblank : AllBlank s) : trimStart s = [] := by
  have h : trimStart (s ++ []) = trimStart [] := trimStart_append hblank
  rwa [List.append_nil] at h

theorem trimStart_cons {c : Char} (hc : isBlank c = false) :
    trimStart (c :: s) = c :: s := by
  simp [trimStart, hc]

theorem trimStart_eq_self (h : ∀ c ∈ s.head?, isBlank c = false) : trimStart s = s := by
  cases s with
  | nil => rfl
  | cons c s => exact trimStart_cons (h c rfl)

/-- The text after the white space does not start with white space. -/
theorem head_trimStart (s : List Char) : ∀ c ∈ (trimStart s).head?, isBlank c = false := by
  intro c hc
  have hhead := List.head?_dropWhile_not isBlank s
  rw [trimStart, Option.mem_def] at hc
  rw [hc] at hhead
  exact hhead

theorem trimStart_trimStart (s : List Char) : trimStart (trimStart s) = trimStart s :=
  trimStart_eq_self (head_trimStart s)

/-- Only white space is trimmed. -/
theorem exists_blanks (h : trimStart s = rest) : ∃ blanks, AllBlank blanks ∧ s = blanks ++ rest :=
  ⟨s.takeWhile isBlank, fun _ hc => List.mem_takeWhile_imp hc, by
    rw [← h, trimStart, List.takeWhile_append_dropWhile]⟩

theorem trimEnd_append {blanks : List Char} (hlast : ∀ c ∈ s.getLast?, isBlank c = false)
    (hblank : AllBlank blanks) : trimEnd (s ++ blanks) = s := by
  have hreverse : AllBlank blanks.reverse := by
    intro c hc
    exact hblank c (List.mem_reverse.mp hc)
  have hstop : trimStart s.reverse = s.reverse := by
    apply trimStart_eq_self
    rwa [List.head?_reverse]
  have htrim : trimStart (blanks.reverse ++ s.reverse) = trimStart s.reverse :=
    trimStart_append hreverse
  rw [hstop] at htrim
  rw [trimEnd, List.reverse_append, ← trimStart, htrim, List.reverse_reverse]

/-- Trimming removes the white space around a text that neither starts nor ends
with it. -/
theorem trim_append {before after : List Char} (hfirst : ∀ c ∈ s.head?, isBlank c = false)
    (hlast : ∀ c ∈ s.getLast?, isBlank c = false) (hbefore : AllBlank before)
    (hafter : AllBlank after) : trim (before ++ (s ++ after)) = s := by
  rw [trim, trimStart_append hbefore]
  cases s with
  | nil =>
      rw [List.nil_append, trimStart_of_allBlank hafter]
      rfl
  | cons c s =>
      rw [List.cons_append, trimStart_cons (hfirst c rfl), ← List.cons_append,
        trimEnd_append hlast hafter]

theorem trim_append_blanks {after : List Char} (hfirst : ∀ c ∈ s.head?, isBlank c = false)
    (hlast : ∀ c ∈ s.getLast?, isBlank c = false) (hafter : AllBlank after) :
    trim (s ++ after) = s :=
  trim_append hfirst hlast allBlank_nil hafter

theorem trim_eq_self (hfirst : ∀ c ∈ s.head?, isBlank c = false)
    (hlast : ∀ c ∈ s.getLast?, isBlank c = false) : trim s = s := by
  have h := trim_append_blanks hfirst hlast allBlank_nil
  rwa [List.append_nil] at h

theorem allBlank_of_trim (h : trim s = []) : AllBlank s := by
  have hall {t : List Char} (ht : trimStart t = []) : AllBlank t := by
    intro c hc
    simpa using List.dropWhile_eq_nil_iff.mp ht c hc
  apply hall
  have hblank : AllBlank (trimStart s).reverse := by
    apply hall
    rw [trim, trimEnd, List.reverse_eq_nil_iff] at h
    exact h
  cases hstart : trimStart s with
  | nil => rfl
  | cons c t =>
      have hc := head_trimStart s c (by rw [hstart]; rfl)
      have hc' := hblank c (by rw [hstart]; simp)
      rw [hc] at hc'
      cases hc'

/-- A trimmed text neither starts nor ends with white space. -/
theorem edges_of_trim (h : trim s = s) :
    (∀ c ∈ s.head?, isBlank c = false) ∧ ∀ c ∈ s.getLast?, isBlank c = false := by
  have hshort : (trimEnd (trimStart s)).length ≤ (trimStart s).length := by
    rw [trimEnd, List.length_reverse]
    exact (List.dropWhile_suffix _).length_le.trans_eq List.length_reverse
  have hstart : trimStart s = s := by
    apply (List.dropWhile_suffix isBlank).eq_of_length_le
    rw [trim] at h
    rw [h] at hshort
    exact hshort
  have hend : trimStart s.reverse = s.reverse := by
    rw [trim, hstart, trimEnd] at h
    rw [trimStart, ← List.reverse_eq_iff]
    exact h
  constructor
  · rw [← hstart]
    exact head_trimStart s
  · rw [← List.head?_reverse, ← hend]
    exact head_trimStart s.reverse

/-- A text is white space, the trimmed text, which neither starts nor ends with white
space, and white space. -/
theorem exists_trim (s : List Char) :
    (∃ before after, AllBlank before ∧ AllBlank after ∧ s = before ++ (trim s ++ after)) ∧
      (∀ c ∈ (trim s).head?, isBlank c = false) ∧
      ∀ c ∈ (trim s).getLast?, isBlank c = false := by
  obtain ⟨before, hbefore, hs⟩ := exists_blanks (s := s) rfl
  obtain ⟨after, hafter, hreverse⟩ := exists_blanks (s := (trimStart s).reverse) rfl
  have hend : trimStart s = trim s ++ after.reverse := by
    rw [trim, trimEnd, ← List.reverse_append, ← trimStart, ← hreverse, List.reverse_reverse]
  have hblank : AllBlank after.reverse := fun c hc => hafter c (List.mem_reverse.mp hc)
  refine ⟨⟨before, after.reverse, hbefore, hblank, hs.trans (by rw [← hend])⟩, ?_, ?_⟩
  · intro c hc
    have hfirst := head_trimStart s
    rw [hend, List.head?_append] at hfirst
    rw [Option.mem_def] at hc
    exact hfirst c (by rw [hc]; rfl)
  · rw [trim, trimEnd, List.getLast?_reverse]
    exact head_trimStart (trimStart s).reverse

theorem trim_trim (s : List Char) : trim (trim s) = trim s :=
  trim_eq_self (exists_trim s).2.1 (exists_trim s).2.2

theorem isInfix_trim (s : List Char) : trim s <:+: s := by
  obtain ⟨⟨before, after, -, -, hs⟩, -⟩ := exists_trim s
  exact ⟨before, after, by rw [List.append_assoc, ← hs]⟩

/-- Behind a character that is no white space only the end of a text is trimmed. -/
theorem trim_cons {c : Char} (hc : isBlank c = false) (s : List Char) :
    ∃ rest, trim (c :: s) = c :: rest ∧ trim rest = trim s := by
  obtain ⟨⟨before, after, hbefore, hafter, hs⟩, hfirst, hlast⟩ := exists_trim s
  cases htrim : trim s with
  | nil =>
      refine ⟨[], ?_, rfl⟩
      have hblank : AllBlank s := allBlank_of_trim htrim
      exact trim_append_blanks (s := [c]) (by simpa using hc) (by simpa using hc) hblank
  | cons d t =>
      rw [htrim] at hs hfirst hlast
      refine ⟨before ++ d :: t, ?_, ?_⟩
      · have hends : (c :: (before ++ d :: t)).getLast? = (d :: t).getLast? := by
          rw [← List.cons_append, List.getLast?_append, List.getLast?_cons]
          rfl
        have hsame := trim_append_blanks (s := c :: (before ++ d :: t)) (by simpa using hc)
          (by rwa [hends]) hafter
        rw [hs]
        simpa using hsame
      · have hsame := trim_append hfirst hlast hbefore allBlank_nil
        rwa [List.append_nil] at hsame

private def blankPoints : List Nat :=
  [0x09, 0x0a, 0x0b, 0x0c, 0x0d, 0x20, 0x85, 0xa0, 0x1680, 0x2000, 0x2001, 0x2002, 0x2003,
    0x2004, 0x2005, 0x2006, 0x2007, 0x2008, 0x2009, 0x200a, 0x2028, 0x2029, 0x202f, 0x205f,
    0x3000]

private theorem mem_blankPoints {c : Char} (h : isBlank c = true) :
    c.toNat ∈ blankPoints := by
  simp only [isBlank, Bool.or_eq_true, Bool.and_eq_true, decide_eq_true_eq, beq_iff_eq] at h
  simp only [blankPoints, List.mem_cons, List.not_mem_nil, or_false]
  omega

private theorem blankPoints_not_alphanumeric :
    ∀ n ∈ blankPoints, isAlphanumeric (Char.ofNat n) = false := by
  decide +kernel

theorem isAlphanumeric_of_isBlank {c : Char} (h : isBlank c = true) :
    isAlphanumeric c = false := by
  have hpoint := blankPoints_not_alphanumeric c.toNat (mem_blankPoints h)
  rwa [Char.ofNat_toNat] at hpoint

theorem not_isBlank_of_isAlphanumeric {c : Char} (h : isAlphanumeric c = true) :
    isBlank c = false := by
  cases hblank : isBlank c with
  | false => rfl
  | true => exact absurd h (by simp [isAlphanumeric_of_isBlank hblank])

end Stencil.Text
