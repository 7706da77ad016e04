import Stencil.Proofs.Model.Listing

/-!
The model of a forest is put together from the models of its items. It is the union of the
models of any two parts of the forest, so that neither the order of the items at its top
nor their number matters, but only which items there are.
-/

namespace Stencil.Model

/-- The model of all these steps depends on the steps, not on their order. -/
theorem ofReads_perm {reads others : List (List Step)} (h : reads.Perm others) :
    ofReads reads = ofReads others := by
  induction h with
  | nil => rfl
  | cons steps _ ih => rw [← List.singleton_append, ofReads_append, ih, ← ofReads_append]; rfl
  | swap first second rest =>
      have hpair (a b : List Step) : ofReads (a :: b :: rest) =
          ((ofReads [a]).union (ofReads [b])).union (ofReads rest) := by
        rw [← ofReads_append, ← ofReads_append]
        rfl
      rw [hpair, hpair, union_comm (isOrdered_ofReads [second]) (isOrdered_ofReads [first])]
  | trans _ _ ih ih' => exact ih.trans ih'

/-- Steps that are there already add nothing. -/
theorem ofReads_append_of_subset {reads more : List (List Step)} (h : more ⊆ reads) :
    ofReads (reads ++ more) = ofReads reads := by
  induction more with
  | nil => rw [List.append_nil]
  | cons steps more ih =>
      obtain ⟨hsteps, hmore⟩ := List.cons_subset.mp h
      obtain ⟨before, after, rfl⟩ := List.append_of_mem hsteps
      have hfirst : (before ++ steps :: after).Perm ([steps] ++ (before ++ after)) :=
        List.perm_middle
      have htwice : (before ++ steps :: after ++ steps :: more).Perm
          ([steps] ++ (before ++ steps :: after ++ more)) := List.perm_middle
      -- the steps are put in front twice, and once is enough
      have hsingle := isOrdered_ofReads [steps]
      rw [ofReads_perm htwice, ofReads_append, ih hmore, ofReads_perm hfirst, ofReads_append,
        ← union_assoc hsingle hsingle (isOrdered_ofReads _), union_self hsingle]

theorem ofReads_congr {reads others : List (List Step)}
    (h : ∀ steps, steps ∈ reads ↔ steps ∈ others) : ofReads reads = ofReads others := by
  rw [← ofReads_append_of_subset fun steps hsteps => (h steps).mpr hsteps,
    ofReads_perm List.perm_append_comm,
    ofReads_append_of_subset fun steps hsteps => (h steps).mp hsteps]

/-- What the items of a forest read, one item after another. -/
theorem readsOfItems_eq_flatMap (places : Places) (items : List Item) :
    readsOfItems places items = items.flatMap (readsOfItem places) := by
  induction items with
  | nil => rfl
  | cons item items ih => rw [readsOfItems, ih, List.flatMap_cons]

theorem ofItems_append (first second : List Item) :
    ofItems (first ++ second) = (ofItems first).union (ofItems second) := by
  simp only [ofItems, readsOfItems_eq_flatMap, List.flatMap_append, ofReads_append]

/-- The model of a forest depends on which items it has. -/
theorem ofItems_congr {first second : List Item} (h : ∀ item, item ∈ first ↔ item ∈ second) :
    ofItems first = ofItems second := by
  apply ofReads_congr
  intro steps
  simp only [readsOfItems_eq_flatMap, List.mem_flatMap, h]

/-- The node that some keys lead to is a sequence. -/
def isSequenceAt (model : Model) (keys : List String) : Bool :=
  (model.reach? keys).any isSequence

section Union

variable {model other : Model}

theorem has_union (h : model.IsOrdered) (h' : other.IsOrdered) (keys : List String) :
    (model.union other).Has keys ↔ model.Has keys ∨ other.Has keys := by
  simp only [Has, ← Option.isSome_iff_exists, reach?_union h h']
  cases model.reach? keys <;> cases other.reach? keys <;> simp

theorem isSequenceAt_union (h : model.IsOrdered) (h' : other.IsOrdered) (keys : List String) :
    (model.union other).isSequenceAt keys =
      (model.isSequenceAt keys || other.isSequenceAt keys) := by
  simp only [isSequenceAt, reach?_union h h']
  cases model.reach? keys <;> cases other.reach? keys <;> simp

end Union

/-- The model of two forests after each other is the union of their models: it has a node at
some keys if either has, and the node is a sequence if it is one in either. So a forest of the
same items, in any order and however often, has the same model. The listing of the paths of
a model has that of each node below the root once, and these are different texts if no key
hides where it ends. -/
theorem ofItems_is_union (first second : List Item) :
    ofItems (first ++ second) = (ofItems first).union (ofItems second) ∧
    (∀ keys, (ofItems (first ++ second)).Has keys ↔
      (ofItems first).Has keys ∨ (ofItems second).Has keys) ∧
    (∀ keys, (ofItems (first ++ second)).isSequenceAt keys =
      ((ofItems first).isSequenceAt keys || (ofItems second).isSequenceAt keys)) ∧
    ((∀ item, item ∈ first ↔ item ∈ second) → ofItems first = ofItems second) ∧
    (ofItems first).paths = (ofItems first).nodes.map ((ofItems first).pathTo "") ∧
    (ofItems first).nodes.Nodup ∧
    (∀ keys, keys ∈ (ofItems first).nodes ↔ keys ≠ [] ∧ (ofItems first).Has keys) ∧
    ((∀ keys, (ofItems first).Has keys → ∀ key ∈ keys, IsPlainKey key) →
      (ofItems first).paths.Nodup) := by
  have hfirst := isOrdered_ofReads (readsOfItems [[]] first)
  have hsecond := isOrdered_ofReads (readsOfItems [[]] second)
  refine ⟨ofItems_append first second, ?_, ?_, ofItems_congr, paths_eq hfirst,
    nodup_nodes _ hfirst, mem_nodes _ hfirst, nodup_paths hfirst⟩
  · rw [ofItems_append]
    exact has_union hfirst hsecond
  · rw [ofItems_append]
    exact isSequenceAt_union hfirst hsecond

/-- `{{ title }}` -/
def titleItem : Item :=
  .output ⟨⟨[.name "title"], "title"⟩, [], ⟨0, 11, 1, 1⟩⟩ true ⟨0, 11, 1, 1⟩

/-- `{{#each rows}}{{ name | pad_left(~.width) }}{{/each}}` -/
def rowsItem : Item :=
  let width : Expression := ⟨⟨[.root, .name "width"], "~.width"⟩, [], ⟨14, 44, 1, 15⟩⟩
  .block .each ⟨⟨[.name "rows"], "rows"⟩, [], ⟨0, 53, 1, 1⟩⟩
    [.output ⟨⟨[.name "name"], "name"⟩, [⟨"pad_left", [.nested width]⟩], ⟨14, 44, 1, 15⟩⟩ true
      ⟨14, 44, 1, 15⟩] [] ⟨0, 53, 1, 1⟩

/-- Two items, and the same ones in another order with one of them repeated. -/
theorem ofItems_rows_repeated :
    (∀ item, item ∈ [titleItem, rowsItem] ↔ item ∈ [rowsItem, titleItem, rowsItem]) ∧
    ofItems [titleItem, rowsItem] = ofItems [rowsItem, titleItem, rowsItem] ∧
    (ofItems [titleItem, rowsItem]).paths = ["rows[]", "rows[].name", "title", "width"] ∧
    (ofItems [titleItem, rowsItem]).paths.Nodup := by
  obtain ⟨-, -, -, hsame, -, -, hmem, hnodup⟩ :=
    ofItems_is_union [titleItem, rowsItem] [rowsItem, titleItem, rowsItem]
  have hitems : ∀ item, item ∈ [titleItem, rowsItem] ↔ item ∈ [rowsItem, titleItem, rowsItem] := by
    intro item
    simp only [List.mem_cons, List.not_mem_nil, or_false]
    tauto
  have hnodes : (ofItems [titleItem, rowsItem]).nodes =
      [["rows"], ["rows", "name"], ["title"], ["width"]] := by
    decide +kernel
  have hplain : ∀ keys, (ofItems [titleItem, rowsItem]).Has keys →
      ∀ key ∈ keys, IsPlainKey key := by
    intro keys hhas key hkey
    have hlisted := (hmem keys).mpr ⟨List.ne_nil_of_mem hkey, hhas⟩
    have hkeys : ∀ keys ∈ [["rows"], ["rows", "name"], ["title"], ["width"]],
        ∀ key ∈ keys, key ≠ "" ∧ '.' ∉ key.toList ∧ '[' ∉ key.toList := by
      decide +kernel
    rw [hnodes] at hlisted
    obtain ⟨hsome, hpoint, hbracket⟩ := hkeys keys hlisted key hkey
    exact ⟨hsome, hpoint, hbracket⟩
  exact ⟨hitems, hsame hitems, by decide +kernel, hnodup hplain⟩

end Stencil.Model
