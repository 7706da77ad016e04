import Mathlib.Data.Nat.PSub
import Stencil.Proofs.Span.Position

/-!
Finding a place by halving the table of line starts. The search asks for entries of the
table only and no difference that it takes is negative. It finds the line and the column
that counting through the text in front of the place gives, and so a later place has a
later line, or the same line and a later column.
-/

namespace Stencil

open Text

namespace LineIndex

/-- How many entries of an ascending table are no greater than `bound`, found by halving the
stretch from `low` to `high`. There is no answer if an entry outside the table is asked for. -/
def countUpTo? (table : List Nat) (bound low high : Nat) : Option Nat :=
  if low < high then do
    let middle := (low + high) / 2
    let entry ← table[middle]?
    if entry ≤ bound then countUpTo? table bound (middle + 1) high
    else countUpTo? table bound low middle
  else some low
termination_by high - low

/-- The span from `start` to `stop` by a search in the table. There is no answer if an entry
outside the table is asked for or an offset is subtracted from a smaller one. -/
def lookup? (index : LineIndex) (start stop : Nat) : Option Span := do
  let line ← countUpTo? index.starts start 0 index.starts.length
  let lineStart ← index.starts[← Nat.psub line 1]?
  let bytes ← Nat.psub start lineStart
  let column := ((slice? lineStart start index.source).map List.length).getD bytes + 1
  return ⟨start, stop, line, column⟩

section Search

variable {reached later : List Nat} {bound low high : Nat}

/-- In a table that is cut at the bound the search finds the cut. -/
theorem countUpTo?_append (hreached : ∀ entry ∈ reached, entry ≤ bound)
    (hlater : ∀ entry ∈ later, bound < entry) (hlow : low ≤ reached.length)
    (hhigh : reached.length ≤ high) (hlength : high ≤ (reached ++ later).length) :
    countUpTo? (reached ++ later) bound low high = some reached.length := by
  fun_induction countUpTo? (reached ++ later) bound low high with
  | case1 low high hless middle ihright ihleft =>
      -- the entry in the middle tells on which side of it the cut is
      by_cases hside : middle < reached.length
      · have hentry : (reached ++ later)[middle]? = some reached[middle] := by
          rw [List.getElem?_append_left hside, List.getElem?_eq_getElem hside]
        have hle : reached[middle] ≤ bound := hreached _ (List.getElem_mem hside)
        rw [hentry, Option.bind_eq_bind, Option.bind_some, if_pos hle]
        exact ihright hside hhigh hlength
      · have hside : reached.length ≤ middle := Nat.le_of_not_lt hside
        have hmiddle : middle - reached.length < later.length := by
          rw [List.length_append] at hlength
          omega
        have hentry : (reached ++ later)[middle]? = some later[middle - reached.length] := by
          rw [List.getElem?_append_right hside, List.getElem?_eq_getElem hmiddle]
        have hlt : bound < later[middle - reached.length] := hlater _ (List.getElem_mem hmiddle)
        rw [hentry, Option.bind_eq_bind, Option.bind_some, if_neg (Nat.not_le_of_lt hlt)]
        exact ihleft hlow hside (by omega)
  | case2 low high hless => exact congrArg some (by omega)

end Search

variable (before after : List Char)

/-- The search succeeds at a place between two characters, with the span that the index
gives by reading its table from the front. -/
theorem lookup?_eq (stop : Nat) :
    (ofSource (before ++ after)).lookup? (byteSize before) stop =
      some ((ofSource (before ++ after)).span (byteSize before) stop) := by
  have hreached := le_of_mem_starts before
  have hline := countUpTo?_append hreached (lt_of_mem_startsAfter before after) (Nat.zero_le _)
    (by rw [List.length_append]; omega) (Nat.le_refl _)
  have hlast : (0 :: startsAfter 0 before).getLastD 0 ∈ 0 :: startsAfter 0 before := by
    rw [List.getLastD_cons]
    exact List.getLastD_mem_cons
  have hentry : ((0 :: startsAfter 0 before) ++ startsAfter (byteSize before) after)[
      (startsAfter 0 before).length]? = some ((0 :: startsAfter 0 before).getLastD 0) := by
    rw [List.getElem?_append_left (Nat.lt_succ_self _), List.getLastD_cons,
      List.getLastD_eq_getLast?, ← List.getLast?_cons]
    exact List.getLast?_eq_getElem?.symm
  have hbytes := Nat.psub_eq_sub (hreached _ hlast)
  rw [lookup?, starts_append, hline]
  simp only [Option.bind_eq_bind, Option.bind_some, List.length_cons, Nat.psub_succ, Nat.psub_zero,
    Nat.ppred_succ, hentry, hbytes]
  rw [span, startsUpTo_eq]
  -- whether or not the text since the start of the line is a slice, both take the same of it
  cases slice? ((0 :: startsAfter 0 before).getLastD 0) (byteSize before)
      (ofSource (before ++ after)).source with
  | some text => rfl
  | none => rfl

end LineIndex

/-- Behind a further text the line is later, or it is the same line and a later column. -/
theorem Text.place_lt (before : List Char) {inside : List Char} (h : inside ≠ []) :
    lineAfter before < lineAfter (before ++ inside) ∨
      lineAfter before = lineAfter (before ++ inside) ∧
        columnAfter before < columnAfter (before ++ inside) := by
  by_cases hbreak : '\n' ∈ inside
  · left
    have hcount : 0 < inside.count '\n' := List.count_pos_iff.mpr hbreak
    rw [lineAfter, lineAfter, List.count_append]
    omega
  · right
    have hcount : inside.count '\n' = 0 := List.count_eq_zero.mpr hbreak
    have hplain : ∀ c ∈ inside.reverse, decide (c ≠ '\n') = true := by
      intro c hc
      rw [decide_eq_true_eq]
      rintro rfl
      exact hbreak (List.mem_reverse.mp hc)
    have hlength : 0 < inside.length := List.length_pos_iff.mpr h
    constructor
    · rw [lineAfter, lineAfter, List.count_append, hcount, Nat.add_zero]
    · rw [columnAfter, columnAfter, List.rtakeWhile, List.rtakeWhile, List.reverse_append,
        List.takeWhile_append_of_pos hplain]
      simp only [List.length_reverse, List.length_append]
      omega

namespace LineIndex

/-- The index of the lines agrees with counting. At each offset between two characters of a
source the line is one more than the line breaks in front of it and the column one more than
the characters since the last of them. The search by halving finds this span: it asks for no
entry outside its table and subtracts no offset from a smaller one. So the place of a later
offset is on a later line, or on the same line in a later column. -/
theorem lookup_agrees_with_counting (source : String) :
    (∀ start stop, (String.Pos.Raw.mk start).IsValid source →
      ∃ before, slice? 0 start source.toList = some before ∧
        (ofSource source.toList).lookup? start stop =
          some ⟨start, stop, 1 + before.count '\n', 1 + (before.rtakeWhile (· ≠ '\n')).length⟩ ∧
        (ofSource source.toList).lookup? start stop =
          some ((ofSource source.toList).span start stop)) ∧
    ∀ start stop start' stop', (String.Pos.Raw.mk start).IsValid source →
      (String.Pos.Raw.mk start').IsValid source → start < start' →
        let earlier := (ofSource source.toList).span start stop
        let later := (ofSource source.toList).span start' stop'
        earlier.line < later.line ∨
          earlier.line = later.line ∧ earlier.column < later.column := by
  refine ⟨?_, ?_⟩
  · intro start stop hvalid
    obtain ⟨before, after, hsource, rfl⟩ := isValid_iff.mp hvalid
    have hslice := slice?_append [] before after
    rw [byteSize_nil, Nat.zero_add, List.nil_append] at hslice
    refine ⟨before, hsource ▸ hslice, ?_, ?_⟩
    · rw [hsource, lookup?_eq, span_eq, lineAfter, columnAfter, Nat.add_comm 1, Nat.add_comm 1]
    · rw [hsource, lookup?_eq]
  · intro start stop start' stop' hstart hstart' hless
    obtain ⟨before, after, hsource, rfl⟩ := isValid_iff.mp hstart
    obtain ⟨before', after', hsource', rfl⟩ := isValid_iff.mp hstart'
    obtain ⟨inside, rfl⟩ := prefix_of_byteSize_le ⟨after, hsource.symm⟩ ⟨after', hsource'.symm⟩
      (Nat.le_of_lt hless)
    have hinside : inside ≠ [] := by
      rintro rfl
      rw [List.append_nil] at hless
      exact Nat.lt_irrefl _ hless
    have hearlier := span_eq before after stop
    have hlater := span_eq (before ++ inside) after' stop'
    rw [← hsource] at hearlier
    rw [← hsource'] at hlater
    rw [hearlier, hlater]
    exact place_lt before hinside

/-- Behind an accented letter, which has two bytes, stands the second column; behind the line
break after it the second line starts. -/
theorem lookup_agrees_behind_accent :
    (String.Pos.Raw.mk 2).IsValid "é\na" ∧ (String.Pos.Raw.mk 3).IsValid "é\na" ∧ 2 < 3 ∧
      (ofSource "é\na".toList).lookup? 2 3 = some ⟨2, 3, 1, 2⟩ ∧
      (ofSource "é\na".toList).lookup? 3 4 = some ⟨3, 4, 2, 1⟩ ∧
      let earlier := (ofSource "é\na".toList).span 2 3
      let later := (ofSource "é\na".toList).span 3 4
      earlier.line < later.line ∨
        earlier.line = later.line ∧ earlier.column < later.column := by
  have hbreak : (String.Pos.Raw.mk 2).IsValid "é\na" :=
    isValid_iff.mpr ⟨['é'], ['\n', 'a'], by decide, by decide⟩
  have hletter : (String.Pos.Raw.mk 3).IsValid "é\na" :=
    isValid_iff.mpr ⟨['é', '\n'], ['a'], by decide, by decide⟩
  obtain ⟨before, hslice, hlookup, -⟩ := (lookup_agrees_with_counting "é\na").1 2 3 hbreak
  obtain ⟨before', hslice', hlookup', -⟩ := (lookup_agrees_with_counting "é\na").1 3 4 hletter
  have hfront : slice? 0 2 "é\na".toList = some ['é'] := by decide
  have hfront' : slice? 0 3 "é\na".toList = some ['é', '\n'] := by decide
  obtain rfl := Option.some.inj (hfront.symm.trans hslice)
  obtain rfl := Option.some.inj (hfront'.symm.trans hslice')
  exact ⟨hbreak, hletter, by decide, hlookup, hlookup',
    (lookup_agrees_with_counting "é\na").2 2 3 3 4 hbreak hletter (by decide)⟩

end LineIndex

end Stencil
