import Stencil.Formatter.Registry

/-!
The choice between overloads: what is selected is a candidate that fits the call,
and none fits it better.
-/

namespace Stencil.Registry

variable {registry : Registry} {name : String} {source : Value} {arguments : List Value}
  {formatter : Formatter}

theorem mem_rank_iff {fit : Nat} : (fit, formatter) ∈ registry.rank name source arguments ↔
    formatter ∈ registry.candidates name ∧
      formatter.signature.score source arguments = some fit := by
  rw [rank, List.mem_mergeSort, List.mem_filterMap]
  constructor
  · rintro ⟨candidate, hmem, hranked⟩
    obtain ⟨fit, hfit, heq⟩ := Option.map_eq_some_iff.mp hranked
    obtain ⟨rfl, rfl⟩ := Prod.mk.inj heq
    exact ⟨List.mem_reverse.mp hmem, hfit⟩
  · rintro ⟨hmem, hfit⟩
    refine ⟨formatter, List.mem_reverse.mpr hmem, ?_⟩
    rw [hfit]
    rfl

/-- What is selected is a candidate that fits. -/
theorem fits_of_select (h : registry.select name source arguments = .ok formatter) :
    formatter ∈ registry.candidates name ∧
      (formatter.signature.score source arguments).isSome = true := by
  unfold select at h
  split at h
  · rename_i fit selected others hrank
    obtain rfl := Except.ok.inj h
    have hmem : (fit, selected) ∈ registry.rank name source arguments := by
      rw [hrank]
      exact List.mem_cons_self ..
    obtain ⟨hcandidate, hfit⟩ := mem_rank_iff.mp hmem
    exact ⟨hcandidate, by rw [hfit]; rfl⟩
  · cases h

/-- Some overload is selected if some candidate fits. -/
theorem exists_select (hmem : formatter ∈ registry.candidates name)
    (hfits : (formatter.signature.score source arguments).isSome = true) :
    ∃ selected, registry.select name source arguments = .ok selected := by
  obtain ⟨fit, hfit⟩ := Option.isSome_iff_exists.mp hfits
  have hrank := mem_rank_iff.mpr ⟨hmem, hfit⟩
  unfold select
  split
  · rename_i selected others _
    exact ⟨selected, rfl⟩
  · rename_i hnone
    rw [hnone] at hrank
    cases hrank

theorem sorted_rank (registry : Registry) (name : String) (source : Value)
    (arguments : List Value) :
    (registry.rank name source arguments).Pairwise fun a b => b.1 ≤ a.1 := by
  have hsorted : (registry.rank name source arguments).Pairwise
      fun a b => decide (b.1 ≤ a.1) = true := by
    apply List.pairwise_mergeSort
    · intro a b c hab hbc
      simp at *
      omega
    · intro a b
      simp
      omega
  exact hsorted.imp fun h => of_decide_eq_true h

/-- No candidate fits better than what is selected. -/
theorem best_of_select (h : registry.select name source arguments = .ok formatter)
    {other : Formatter} (hmem : other ∈ registry.candidates name) {fit : Nat}
    (hfit : other.signature.score source arguments = some fit) :
    ∃ best, formatter.signature.score source arguments = some best ∧ fit ≤ best := by
  have hsorted := registry.sorted_rank name source arguments
  have hother := mem_rank_iff.mpr ⟨hmem, hfit⟩
  unfold select at h
  split at h
  · rename_i best selected others hrank
    obtain rfl := Except.ok.inj h
    rw [hrank] at hother hsorted
    have hselected : (best, selected) ∈ registry.rank name source arguments := by
      rw [hrank]
      exact List.mem_cons_self ..
    refine ⟨best, (mem_rank_iff.mp hselected).2, ?_⟩
    rcases List.mem_cons.mp hother with heq | hlater
    · exact Nat.le_of_eq (Prod.mk.inj heq).1
    · exact List.rel_of_pairwise_cons hsorted hlater
  · cases h

end Stencil.Registry
