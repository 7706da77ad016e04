/-!
Finding and cutting text on character lists.
-/

namespace Stencil.Text

/-- The text before the first occurrence of `pattern`, and the text after it. -/
def cut? (pattern : List Char) : List Char → Option (List Char × List Char)
  | [] => if pattern.isEmpty then some ([], []) else none
  | c :: s =>
      if pattern.isPrefixOf (c :: s) then some ([], (c :: s).drop pattern.length)
      else (cut? pattern s).map fun (before, after) => (c :: before, after)

/-- The parts between the occurrences of a character; one more than there are
occurrences. -/
def splitOn (separator : Char) : List Char → List (List Char)
  | [] => [[]]
  | c :: s =>
      if c = separator then [] :: splitOn separator s
      else match splitOn separator s with
        | [] => [[c]]
        | part :: parts => (c :: part) :: parts

/-- Splits at the first character of a class, which belongs to neither part. -/
def cutAtFirst? (isCut : Char → Bool) : List Char → Option (List Char × List Char)
  | [] => none
  | c :: s =>
      if isCut c then some ([], s)
      else (cutAtFirst? isCut s).map fun (before, after) => (c :: before, after)

/-- What `cut?` returns is the text around one occurrence. -/
theorem append_of_cut? {pattern s before after : List Char}
    (h : cut? pattern s = some (before, after)) : s = before ++ pattern ++ after := by
  induction s generalizing before after with
  | nil =>
      simp only [cut?] at h
      split at h
      · simp_all
      · simp at h
  | cons c s ih =>
      simp only [cut?] at h
      split at h
      · rename_i start
        obtain ⟨rest, hrest⟩ := List.isPrefixOf_iff_prefix.1 start
        simp only [Option.some.injEq, Prod.mk.injEq] at h
        obtain ⟨rfl, rfl⟩ := h
        simp [← hrest]
      · simp only [Option.map_eq_some_iff, Prod.exists, Prod.mk.injEq] at h
        obtain ⟨b, a, hcut, rfl, rfl⟩ := h
        simp [ih hcut]

theorem length_lt_of_cut? {pattern s before after : List Char} (ne : pattern ≠ [])
    (h : cut? pattern s = some (before, after)) : after.length < s.length := by
  have positive := List.length_pos_iff.2 ne
  rw [append_of_cut? h]
  simp only [List.length_append]
  omega

end Stencil.Text
