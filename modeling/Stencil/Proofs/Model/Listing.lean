import Mathlib.Data.List.Nodup
import Stencil.Proofs.Model.Union
import Stencil.Proofs.Text.Blanks

/-!
The listing of the paths of a model. The nodes below the root are known by the keys that
lead to them, and the listing has the text of each of them once, a node before the nodes
below it. The texts tell the nodes apart if no key is empty or has a point or a bracket.
-/

namespace Stencil.Model

mutual

/-- The keys that lead to the nodes below the root, each node before those below it. -/
def nodes : Model → List (List String)
  | node children _ => nodesOf children

/-- The keys that lead to children and to the nodes below them. -/
def nodesOf : List (String × Model) → List (List String)
  | [] => []
  | (key, child) :: children => [key] :: child.nodes.map (key :: ·) ++ nodesOf children

end

/-- The path of a child of a node whose own path is given. -/
def childPath (path key : String) (child : Model) : String :=
  (if path.isEmpty then key else path ++ "." ++ key) ++ (if child.isSequence then "[]" else "")

/-- The path of the node that some keys lead to, below a node whose own path is given. -/
def pathTo (path : String) (model : Model) : List String → String
  | [] => path
  | key :: keys =>
      match model.get? key with
      | some child => child.pathTo (childPath path key child) keys
      | none => path

theorem pathTo_cons (path : String) {model child : Model} {key : String}
    (h : model.get? key = some child) (keys : List String) :
    model.pathTo path (key :: keys) = child.pathTo (childPath path key child) keys := by
  rw [pathTo, h]

/-- Children in the order of their keys, with their own children in order. -/
structure AreOrdered (children : List (String × Model)) : Prop where
  sorted : KeyMap.IsSorted children
  inner : ∀ entry ∈ children, entry.2.IsOrdered

namespace AreOrdered

variable {first : String × Model} {children : List (String × Model)}

theorem tail (h : AreOrdered (first :: children)) : AreOrdered children :=
  ⟨(KeyMap.isSorted_cons.mp h.sorted).2, fun entry hentry =>
    h.inner entry (List.mem_cons_of_mem _ hentry)⟩

/-- The first key is not among the others. -/
theorem ne_first (h : AreOrdered (first :: children)) {key : String} {child : Model}
    (hchild : children.lookup key = some child) : key ≠ first.1 := by
  rintro rfl
  have hnone := KeyMap.lookup_eq_none_of_lt (KeyMap.isSorted_cons.mp h.sorted).1
  cases hchild.symm.trans hnone

end AreOrdered

theorem IsOrdered.areOrdered {children : List (String × Model)} {isSequence : Bool}
    (h : (Model.node children isSequence).IsOrdered) : AreOrdered children :=
  ⟨h.sorted, fun _ hentry => h.child (h.sorted.lookup_of_mem hentry)⟩

mutual

/-- The listed nodes are those below the root. -/
theorem mem_nodes : (model : Model) → model.IsOrdered → (keys : List String) →
    (keys ∈ model.nodes ↔ keys ≠ [] ∧ model.Has keys)
  | node children isSequence, h, keys => by
      rw [nodes, mem_nodesOf children h.areOrdered keys]
      constructor
      · rintro ⟨key, rest, child, rfl, hchild, hrest⟩
        exact ⟨List.cons_ne_nil _ _, has_cons.mpr ⟨child, hchild, hrest⟩⟩
      · rintro ⟨hsome, hhas⟩
        obtain ⟨key, rest, rfl⟩ := List.exists_cons_of_ne_nil hsome
        obtain ⟨child, hchild, hrest⟩ := has_cons.mp hhas
        exact ⟨key, rest, child, rfl, hchild, hrest⟩

theorem mem_nodesOf : (children : List (String × Model)) → AreOrdered children →
    (keys : List String) →
    (keys ∈ nodesOf children ↔ ∃ key rest child, keys = key :: rest ∧
      children.lookup key = some child ∧ child.Has rest)
  | [], h, keys => by simp [nodesOf]
  | (name, first) :: children, h, keys => by
      have hfirst := mem_nodes first (h.inner _ (List.mem_cons_self ..))
      rw [nodesOf, List.mem_append, mem_nodesOf children h.tail keys]
      constructor
      · rintro (hmem | ⟨key, rest, child, rfl, hchild, hrest⟩)
        · rcases List.mem_cons.mp hmem with rfl | hbelow
          · exact ⟨name, [], first, rfl, List.lookup_cons_self .., has_nil first⟩
          · obtain ⟨rest, hrest, rfl⟩ := List.mem_map.mp hbelow
            exact ⟨name, rest, first, rfl, List.lookup_cons_self .., ((hfirst rest).mp hrest).2⟩
        · refine ⟨key, rest, child, rfl, ?_, hrest⟩
          rwa [List.lookup_cons, beq_false_of_ne (h.ne_first hchild)]
      · rintro ⟨key, rest, child, rfl, hchild, hrest⟩
        by_cases heq : key = name
        · subst heq
          rw [List.lookup_cons_self, Option.some.injEq] at hchild
          subst hchild
          left
          rw [List.mem_cons]
          by_cases hnil : rest = []
          · exact Or.inl (by rw [hnil])
          · exact Or.inr (List.mem_map.mpr ⟨rest, (hfirst rest).mpr ⟨hnil, hrest⟩, rfl⟩)
        · rw [List.lookup_cons, beq_false_of_ne heq] at hchild
          exact Or.inr ⟨key, rest, child, rfl, hchild, hrest⟩

end

mutual

/-- No node is listed twice. -/
theorem nodup_nodes : (model : Model) → model.IsOrdered → model.nodes.Nodup
  | node children _, h => nodup_nodesOf children h.areOrdered

theorem nodup_nodesOf : (children : List (String × Model)) → AreOrdered children →
    (nodesOf children).Nodup
  | [], h => List.nodup_nil
  | (name, first) :: children, h => by
      have hordered := h.inner _ (List.mem_cons_self ..)
      have hbelow : [name] ∉ first.nodes.map (name :: ·) := by
        intro hmem
        obtain ⟨rest, hrest, heq⟩ := List.mem_map.mp hmem
        obtain rfl := (List.cons.inj heq).2
        exact ((mem_nodes first hordered []).mp hrest).1 rfl
      have hfirst : (first.nodes.map (name :: ·)).Nodup :=
        (nodup_nodes first hordered).map (List.cons_injective)
      refine List.nodup_append.mpr ⟨List.nodup_cons.mpr ⟨hbelow, hfirst⟩,
        nodup_nodesOf children h.tail, ?_⟩
      -- the key of the first child leads to none of the nodes behind it
      rintro keys hkeys _ hlater rfl
      obtain ⟨key, rest, child, rfl, hchild, -⟩ := (mem_nodesOf children h.tail keys).mp hlater
      refine h.ne_first hchild ?_
      rcases List.mem_cons.mp hkeys with hsame | hmem
      · exact (List.cons.inj hsame).1
      · obtain ⟨_, -, hsame⟩ := List.mem_map.mp hmem
        exact (List.cons.inj hsame).1.symm

end

mutual

/-- The paths of a model are those of its nodes. -/
theorem pathsUnder_eq : (path : String) → (model : Model) → model.IsOrdered →
    pathsUnder path model = model.nodes.map (model.pathTo path)
  | path, node children isSequence, h => by
      rw [pathsUnder, nodes]
      exact pathsOfChildren_eq path isSequence children h.areOrdered

theorem pathsOfChildren_eq : (path : String) → (isSequence : Bool) →
    (children : List (String × Model)) → AreOrdered children →
    pathsOfChildren path children =
      (nodesOf children).map ((node children isSequence).pathTo path)
  | path, isSequence, [], h => rfl
  | path, isSequence, (name, first) :: children, h => by
      have hget : (node ((name, first) :: children) isSequence).get? name = some first :=
        List.lookup_cons_self ..
      have hfirst := pathsUnder_eq (childPath path name first) first
        (h.inner _ (List.mem_cons_self ..))
      have hlater : ∀ keys ∈ nodesOf children,
          (node children isSequence).pathTo path keys =
            (node ((name, first) :: children) isSequence).pathTo path keys := by
        intro keys hkeys
        obtain ⟨key, rest, child, rfl, hchild, -⟩ := (mem_nodesOf children h.tail keys).mp hkeys
        have hget' : (node ((name, first) :: children) isSequence).get? key = some child := by
          rw [get?, Model.children, List.lookup_cons, beq_false_of_ne (h.ne_first hchild)]
          exact hchild
        have hown : (node children isSequence).get? key = some child := hchild
        rw [pathTo_cons path hown, pathTo_cons path hget']
      rw [pathsOfChildren, nodesOf, List.map_append, List.map_cons, List.map_map,
        pathsOfChildren_eq path isSequence children h.tail, List.map_congr_left hlater,
        pathTo_cons path hget, List.cons_append, List.cons_append]
      congr 2
      rw [← childPath, hfirst]
      refine List.map_congr_left fun keys _ => ?_
      exact (pathTo_cons path hget keys).symm

end

/-- A key whose end can be seen in the text of a path. -/
structure IsPlainKey (key : String) : Prop where
  nonempty : key ≠ ""
  noPoint : '.' ∉ key.toList
  noBracket : '[' ∉ key.toList

/-- What a path is before the key of a child. -/
def childStart (path : String) : List Char :=
  if path.isEmpty then [] else path.toList ++ ['.']

variable {model child : Model} {path key : String}

theorem toList_childPath (path key : String) (child : Model) :
    (childPath path key child).toList = childStart path ++
      (key.toList ++ (if child.isSequence then ['[', ']'] else [])) := by
  unfold childPath childStart
  split <;> split <;> simp

theorem childPath_ne_empty (path : String) (child : Model) (h : key ≠ "") :
    childPath path key child ≠ "" := by
  intro heq
  have hchars := congrArg String.toList heq
  rw [toList_childPath] at hchars
  have hkey := (List.append_eq_nil_iff.mp (List.append_eq_nil_iff.mp hchars).2).1
  exact h (String.toList_eq_nil_iff.mp hkey)

/-- The path of a node below another one goes on with a point. -/
theorem toList_pathTo (model : Model) {keys : List String} (hpath : path ≠ "")
    (hkeys : ∀ key ∈ keys, IsPlainKey key) :
    ∃ more, (model.pathTo path keys).toList = path.toList ++ more ∧
      ∀ c ∈ more.head?, c = '.' := by
  induction keys generalizing model path with
  | nil => exact ⟨[], (List.append_nil _).symm, nofun⟩
  | cons key keys ih =>
      obtain ⟨hkey, hrest⟩ := List.forall_mem_cons.mp hkeys
      rw [pathTo]
      split
      · rename_i child hchild
        obtain ⟨more, hmore, -⟩ := ih child (childPath_ne_empty path child hkey.nonempty) hrest
        have hstart : childStart path = path.toList ++ ['.'] := by
          rw [childStart, if_neg (by simpa using hpath)]
        refine ⟨'.' :: (key.toList ++ ((if child.isSequence then ['[', ']'] else []) ++ more)),
          ?_, by simp⟩
        rw [hmore, toList_childPath, hstart]
        simp
      · exact ⟨[], (List.append_nil _).symm, nofun⟩

/-- The path of a node has the first of its keys at its start, up to a point or a bracket. -/
theorem toList_pathTo_cons (path : String) {keys : List String} (hget : model.get? key = some child)
    (hkeys : ∀ name ∈ key :: keys, IsPlainKey name) :
    ∃ more, (model.pathTo path (key :: keys)).toList = childStart path ++ (key.toList ++ more) ∧
      ∀ c ∈ more.head?, c = '.' ∨ c = '[' := by
  obtain ⟨hkey, hrest⟩ := List.forall_mem_cons.mp hkeys
  obtain ⟨more, hmore, hhead⟩ :=
    toList_pathTo child (childPath_ne_empty path child hkey.nonempty) hrest
  refine ⟨(if child.isSequence then ['[', ']'] else []) ++ more, ?_, ?_⟩
  · rw [pathTo_cons path hget, hmore, toList_childPath]
    simp only [List.append_assoc]
  · split
    · simp
    · exact fun c hc => Or.inl (hhead c hc)

theorem IsPlainKey.eq_of_append {name : String} {more others : List Char}
    (hkey : IsPlainKey key) (hname : IsPlainKey name)
    (hmore : ∀ c ∈ more.head?, c = '.' ∨ c = '[')
    (hothers : ∀ c ∈ others.head?, c = '.' ∨ c = '[')
    (h : key.toList ++ more = name.toList ++ others) : key = name := by
  have hchars {text : String} (htext : IsPlainKey text) :
      ∀ c ∈ text.toList, decide (c ≠ '.' ∧ c ≠ '[') = true := by
    intro c hc
    rw [decide_eq_true_eq]
    exact ⟨fun heq => htext.noPoint (heq ▸ hc), fun heq => htext.noBracket (heq ▸ hc)⟩
  have hstop {rest : List Char} (hrest : ∀ c ∈ rest.head?, c = '.' ∨ c = '[') :
      ∀ c ∈ rest.head?, decide (c ≠ '.' ∧ c ≠ '[') = false := by
    intro c hc
    rw [decide_eq_false_iff_not]
    rintro ⟨hpoint, hbracket⟩
    exact (hrest c hc).elim hpoint hbracket
  have htaken := Text.takeWhile_append_stop (hchars hkey) (hstop hmore)
  rw [h, Text.takeWhile_append_stop (hchars hname) (hstop hothers)] at htaken
  exact (String.toList_injective htaken).symm

/-- Nodes with the same path have the same keys. -/
theorem pathTo_injective {keys others : List String} (hkeys : ∀ key ∈ keys, IsPlainKey key)
    (hothers : ∀ key ∈ others, IsPlainKey key) (hhas : model.Has keys)
    (hhas' : model.Has others) (h : model.pathTo path keys = model.pathTo path others) :
    keys = others := by
  -- a path is shorter than those of the nodes below it
  have hlonger {model : Model} {path key : String} {keys : List String}
      (hkeys : ∀ name ∈ key :: keys, IsPlainKey name) (hhas : model.Has (key :: keys)) :
      path ≠ model.pathTo path (key :: keys) := by
    obtain ⟨child, hchild, -⟩ := has_cons.mp hhas
    obtain ⟨more, hmore, -⟩ := toList_pathTo_cons path hchild hkeys
    have hkey : key.toList ≠ [] := fun hnil =>
      (hkeys key (List.mem_cons_self ..)).nonempty (String.toList_eq_nil_iff.mp hnil)
    have hpositive := List.length_pos_iff.mpr hkey
    intro heq
    have hlength := congrArg (List.length ∘ String.toList) heq
    rw [Function.comp, Function.comp, hmore] at hlength
    unfold childStart at hlength
    split at hlength
    · rename_i hempty
      rw [String.isEmpty_iff.mp hempty] at hlength
      simp only [List.length_append] at hlength
      simp at hlength
      omega
    · simp only [List.length_append, List.length_singleton] at hlength
      omega
  induction keys generalizing model path others with
  | nil =>
      cases others with
      | nil => rfl
      | cons other others => exact absurd h (hlonger hothers hhas')
  | cons key keys ih =>
      cases others with
      | nil => exact absurd h.symm (hlonger hkeys hhas)
      | cons other others =>
          obtain ⟨child, hchild, hrest⟩ := has_cons.mp hhas
          obtain ⟨child', hchild', hrest'⟩ := has_cons.mp hhas'
          obtain ⟨more, hmore, hhead⟩ := toList_pathTo_cons path hchild hkeys
          obtain ⟨more', hmore', hhead'⟩ := toList_pathTo_cons path hchild' hothers
          obtain ⟨hkey, hbelow⟩ := List.forall_mem_cons.mp hkeys
          obtain ⟨hother, hbelow'⟩ := List.forall_mem_cons.mp hothers
          have hsame : key = other := by
            rw [← h, hmore] at hmore'
            exact hkey.eq_of_append hother hhead hhead' (List.append_cancel_left hmore')
          subst hsame
          obtain rfl := Option.some.inj (hchild.symm.trans hchild')
          rw [pathTo_cons path hchild, pathTo_cons path hchild] at h
          rw [ih hbelow hbelow' hrest hrest' h]

/-- The paths of a model are those of its nodes, each of which is listed once. -/
theorem paths_eq (h : model.IsOrdered) : model.paths = model.nodes.map (model.pathTo "") :=
  pathsUnder_eq "" model h

/-- No path is listed twice, if the keys are plain. -/
theorem nodup_paths (h : model.IsOrdered)
    (hkeys : ∀ keys, model.Has keys → ∀ key ∈ keys, IsPlainKey key) : model.paths.Nodup := by
  rw [paths_eq h]
  refine (nodup_nodes model h).map_on ?_
  intro keys hmem others hmem' heq
  have hhas := ((mem_nodes model h keys).mp hmem).2
  have hhas' := ((mem_nodes model h others).mp hmem').2
  exact pathTo_injective (hkeys keys hhas) (hkeys others hhas') hhas hhas' heq

end Stencil.Model
