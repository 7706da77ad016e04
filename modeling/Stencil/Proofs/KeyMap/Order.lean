import Stencil.KeyMap

/-!
Maps in the order of their keys. Putting a value under a key keeps the order, and two maps
in order that find the same values are the same list.
-/

namespace Stencil.KeyMap

variable {α : Type} {key other : String} {value : α} {entries others : List (String × α)}

/-- Each key is before those behind it. -/
def IsSorted (entries : List (String × α)) : Prop :=
  entries.Pairwise fun first second => first.1 < second.1

theorem isSorted_nil : IsSorted ([] : List (String × α)) :=
  .nil

theorem isSorted_cons {entry : String × α} :
    IsSorted (entry :: entries) ↔ (∀ later ∈ entries, entry.1 < later.1) ∧ IsSorted entries :=
  List.pairwise_cons

/-- Whether entries are in order is a matter of their keys. -/
theorem IsSorted.of_keys {β : Type} {pairs : List (String × β)} (h : IsSorted entries)
    (hkeys : entries.map Prod.fst = pairs.map Prod.fst) : IsSorted pairs := by
  have hsorted := List.pairwise_map.mpr h
  rw [hkeys] at hsorted
  exact List.pairwise_map.mp hsorted

theorem lt_or_lt_of_ne (ne : key ≠ other) : key < other ∨ other < key := by
  by_cases hless : key < other
  · exact Or.inl hless
  · exact Or.inr (String.not_le.mp fun hle => ne (String.le_antisymm hle (String.not_lt.mp hless)))

/-- A key before all others is not among them. -/
theorem lookup_eq_none_of_lt (h : ∀ later ∈ entries, key < later.1) :
    entries.lookup key = none := by
  rw [List.lookup_eq_none_iff]
  intro later hlater
  have hless := h later hlater
  rw [bne_iff_ne]
  intro heq
  exact String.lt_irrefl _ (heq ▸ hless)

theorem IsSorted.lookup_eq_none {first : String × α} (h : IsSorted (first :: entries))
    (hless : key < first.1) : (first :: entries).lookup key = none := by
  apply lookup_eq_none_of_lt
  refine List.forall_mem_cons.mpr ⟨hless, fun later hlater => ?_⟩
  exact String.lt_trans hless ((isSorted_cons.mp h).1 later hlater)

/-- No key of a map in order is before the first one. -/
theorem IsSorted.le_of_lookup {first : String × α} (h : IsSorted (first :: entries))
    (hsome : (first :: entries).lookup key = some value) : first.1 ≤ key := by
  apply String.not_lt.mp
  intro hless
  cases hsome.symm.trans (h.lookup_eq_none hless)

/-- An entry of a map that a value was put into is of that map or under the key. -/
theorem key_of_mem_insertWith {combine : α → α → α} {entry : String × α}
    (h : entry ∈ insertWith combine key value entries) :
    entry.1 = key ∨ ∃ old ∈ entries, old.1 = entry.1 := by
  induction entries with
  | nil =>
      rw [insertWith, List.mem_singleton] at h
      exact Or.inl (congrArg Prod.fst h)
  | cons first rest ih =>
      -- the value goes into the first entry, in front of it, or further in
      rw [insertWith] at h
      split at h
      · rcases List.mem_cons.mp h with rfl | hrest
        · exact Or.inr ⟨first, List.mem_cons_self .., rfl⟩
        · exact Or.inr ⟨entry, List.mem_cons_of_mem _ hrest, rfl⟩
      split at h
      · rcases List.mem_cons.mp h with rfl | hmore
        · exact Or.inl rfl
        · exact Or.inr ⟨entry, hmore, rfl⟩
      · rcases List.mem_cons.mp h with rfl | hrest
        · exact Or.inr ⟨_, List.mem_cons_self .., rfl⟩
        · rcases ih hrest with hkey | ⟨old, hold, hkey⟩
          · exact Or.inl hkey
          · exact Or.inr ⟨old, List.mem_cons_of_mem _ hold, hkey⟩

theorem IsSorted.insertWith (h : IsSorted entries) (combine : α → α → α) (key : String)
    (value : α) : IsSorted (insertWith combine key value entries) := by
  induction entries with
  | nil => exact List.pairwise_singleton _ _
  | cons first rest ih =>
      obtain ⟨hfirst, hrest⟩ := isSorted_cons.mp h
      rw [KeyMap.insertWith]
      split
      · exact isSorted_cons.mpr ⟨hfirst, hrest⟩
      rename_i hne
      split
      · rename_i hless
        refine isSorted_cons.mpr ⟨List.forall_mem_cons.mpr ⟨hless, ?_⟩, h⟩
        exact fun later hlater => String.lt_trans hless (hfirst later hlater)
      · rename_i hnotLess
        refine isSorted_cons.mpr ⟨?_, ih hrest⟩
        intro entry hentry
        rcases key_of_mem_insertWith hentry with hkey | ⟨old, hold, hkey⟩
        · rw [hkey]
          exact (lt_or_lt_of_ne hne).resolve_left hnotLess
        · rw [← hkey]
          exact hfirst old hold

theorem lookup_insertWith_self (h : IsSorted entries) (combine : α → α → α) :
    (insertWith combine key value entries).lookup key =
      some ((entries.lookup key).elim value (combine · value)) := by
  induction entries with
  | nil => simp [insertWith]
  | cons first rest ih =>
      obtain ⟨hfirst, hrest⟩ := isSorted_cons.mp h
      rw [insertWith]
      split
      · rename_i hsame
        rw [hsame, List.lookup_cons_self, List.lookup_cons_self]
        rfl
      rename_i hne
      split
      · rename_i hless
        rw [h.lookup_eq_none hless, List.lookup_cons_self]
        rfl
      · rw [List.lookup_cons, List.lookup_cons, beq_false_of_ne hne]
        exact ih hrest

theorem lookup_insertWith_of_ne (combine : α → α → α) (ne : other ≠ key) :
    (insertWith combine key value entries).lookup other = entries.lookup other := by
  induction entries with
  | nil => simp [insertWith, List.lookup_cons, beq_false_of_ne ne]
  | cons first rest ih =>
      rw [insertWith]
      split
      · rename_i hsame
        rw [List.lookup_cons, List.lookup_cons, ← hsame, beq_false_of_ne ne]
      · split
        · rw [List.lookup_cons, beq_false_of_ne ne]
        · rw [List.lookup_cons, List.lookup_cons, ih]

/-- A map in order finds each of its entries. -/
theorem IsSorted.lookup_of_mem (h : IsSorted entries) {entry : String × α}
    (hmem : entry ∈ entries) : entries.lookup entry.1 = some entry.2 := by
  induction entries with
  | nil => cases hmem
  | cons first rest ih =>
      obtain ⟨hfirst, hrest⟩ := isSorted_cons.mp h
      rcases List.mem_cons.mp hmem with rfl | hlater
      · exact List.lookup_cons_self ..
      · have hne : entry.1 ≠ first.1 := by
          intro heq
          exact String.lt_irrefl _ (heq ▸ hfirst entry hlater)
        rw [List.lookup_cons, beq_false_of_ne hne]
        exact ih hrest hlater

/-- Maps in order that find the same values under all keys are the same. -/
theorem IsSorted.ext (h : IsSorted entries) (h' : IsSorted others)
    (hlookup : ∀ key, entries.lookup key = others.lookup key) : entries = others := by
  induction entries generalizing others with
  | nil =>
      cases others with
      | nil => rfl
      | cons other rest =>
          have hother := hlookup other.1
          rw [List.lookup_cons_self] at hother
          cases hother
  | cons first rest ih =>
      obtain ⟨hfirst, hrest⟩ := isSorted_cons.mp h
      cases others with
      | nil =>
          have hnone := hlookup first.1
          rw [List.lookup_cons_self] at hnone
          cases hnone
      | cons other more =>
          obtain ⟨hother, hmore⟩ := isSorted_cons.mp h'
          -- each map finds the least key of the other one
          have hkey : first.1 = other.1 := by
            have hleast := hlookup other.1
            have hleast' := hlookup first.1
            rw [List.lookup_cons_self] at hleast hleast'
            exact String.le_antisymm (h.le_of_lookup hleast) (h'.le_of_lookup hleast'.symm)
          obtain ⟨name, value⟩ := first
          obtain ⟨name', value'⟩ := other
          obtain rfl : name = name' := hkey
          have hvalue := hlookup name
          rw [List.lookup_cons_self, List.lookup_cons_self] at hvalue
          obtain rfl := Option.some.inj hvalue
          rw [ih hrest hmore]
          intro key
          by_cases hsame : key = name
          · subst hsame
            rw [lookup_eq_none_of_lt hfirst, lookup_eq_none_of_lt hother]
          · have hboth := hlookup key
            rwa [List.lookup_cons, List.lookup_cons, beq_false_of_ne hsame] at hboth

/-- A key behind all others is put at the end. -/
theorem insert_eq_append (h : ∀ entry ∈ entries, entry.1 < key) :
    insert key value entries = entries ++ [(key, value)] := by
  induction entries with
  | nil => rfl
  | cons first rest ih =>
      obtain ⟨hfirst, hrest⟩ := List.forall_mem_cons.mp h
      have hne : key ≠ first.1 := by
        rintro rfl
        exact String.lt_irrefl _ hfirst
      have hnotLess : ¬key < first.1 := fun hless =>
        String.lt_irrefl _ (String.lt_trans hless hfirst)
      rw [insert, insertWith, if_neg hne, if_neg hnotLess, List.cons_append]
      exact congrArg (first :: ·) (ih hrest)

theorem IsSorted.foldl_insert (h : IsSorted (entries ++ others)) :
    others.foldl (fun entries (key, value) => insert key value entries) entries =
      entries ++ others := by
  induction others generalizing entries with
  | nil => exact (List.append_nil _).symm
  | cons next rest ih =>
      have hbefore : ∀ entry ∈ entries, entry.1 < next.1 := fun entry hentry =>
        (List.pairwise_append.mp h).2.2 entry hentry next (List.mem_cons_self ..)
      have hnext : insert next.1 next.2 entries = entries ++ [next] := insert_eq_append hbefore
      show rest.foldl _ (insert next.1 next.2 entries) = _
      rw [List.append_cons] at h ⊢
      rw [hnext]
      exact ih h

/-- The map of entries that are in order is these entries. -/
theorem IsSorted.ofList_eq (h : IsSorted entries) : ofList entries = entries :=
  IsSorted.foldl_insert (List.nil_append entries ▸ h)

end Stencil.KeyMap
