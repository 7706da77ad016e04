import Stencil.Model.Inference

/-!
What a model that was put together from steps has: the node at the end of each
list of steps, found by the keys among them.
-/

namespace Stencil.Model

/-- The keys among steps. -/
def keysOf (steps : List Step) : List String :=
  steps.filterMap fun
    | .key name => some name
    | .element => none

/-- The node that some keys lead to. -/
def reach? (model : Model) (keys : List String) : Option Model :=
  keys.foldlM get? model

/-- A model has a node under these keys. -/
def Has (model : Model) (keys : List String) : Prop :=
  ∃ node, model.reach? keys = some node

variable {model child : Model} {name : String} {keys : List String}

theorem has_nil (model : Model) : model.Has [] :=
  ⟨model, rfl⟩

theorem has_cons :
    model.Has (name :: keys) ↔ ∃ child, model.get? name = some child ∧ child.Has keys := by
  simp only [Has, reach?, List.foldlM_cons, Option.bind_eq_bind, Option.bind_eq_some_iff]
  constructor
  · rintro ⟨node, child, hchild, hnode⟩
    exact ⟨child, hchild, node, hnode⟩
  · rintro ⟨child, hchild, node, hnode⟩
    exact ⟨node, child, hchild, hnode⟩

theorem insert_key (steps : List Step) :
    (insert (.key name :: steps) model).children =
      KeyMap.insert name (insert steps ((model.get? name).getD empty)) model.children := by
  obtain ⟨children, isSequence⟩ := model
  rfl

theorem get?_insert_self (steps : List Step) :
    (insert (.key name :: steps) model).get? name =
      some (insert steps ((model.get? name).getD empty)) := by
  rw [get?, insert_key, KeyMap.lookup_insert_self]

theorem get?_insert_of_ne {other : String} (steps : List Step) (ne : other ≠ name) :
    (insert (.key name :: steps) model).get? other = model.get? other := by
  rw [get?, insert_key, KeyMap.lookup_insert_of_ne _ _ ne]
  rfl

/-- Inserting steps takes no node away. -/
theorem Has.insert (h : model.Has keys) (steps : List Step) : (insert steps model).Has keys := by
  induction steps generalizing model keys with
  | nil => exact h
  | cons step steps ih =>
      cases step with
      | element =>
          obtain ⟨children, isSequence⟩ := model
          refine ih ?_
          cases keys with
          | nil => exact has_nil _
          | cons key keys => exact has_cons.mpr (has_cons.mp h)
      | key name =>
          cases keys with
          | nil => exact has_nil _
          | cons key keys =>
              obtain ⟨child, hchild, hrest⟩ := has_cons.mp h
              by_cases heq : key = name
              · subst heq
                refine has_cons.mpr ⟨_, get?_insert_self steps, ?_⟩
                rw [hchild]
                exact ih hrest
              · exact has_cons.mpr ⟨child, (get?_insert_of_ne steps heq).trans hchild, hrest⟩

/-- The node at the end of inserted steps is there. -/
theorem has_insert (steps : List Step) (model : Model) :
    (Model.insert steps model).Has (keysOf steps) := by
  induction steps generalizing model with
  | nil => exact has_nil model
  | cons step steps ih =>
      cases step with
      | element =>
          obtain ⟨children, isSequence⟩ := model
          exact ih _
      | key name => exact has_cons.mpr ⟨_, get?_insert_self steps, ih _⟩

/-- A model has the nodes at the ends of all steps that it was made of. -/
theorem has_ofReads {reads : List (List Step)} {steps : List Step} (h : steps ∈ reads) :
    (ofReads reads).Has (keysOf steps) := by
  have hfold (reads : List (List Step)) (model : Model)
      (h : steps ∈ reads ∨ model.Has (keysOf steps)) :
      (reads.foldl (fun model steps => Model.insert steps model) model).Has (keysOf steps) := by
    induction reads generalizing model with
    | nil =>
        rcases h with hmem | hmodel
        · cases hmem
        · exact hmodel
    | cons first reads ih =>
        apply ih
        rcases h with hmem | hmodel
        · rcases List.mem_cons.mp hmem with rfl | hlater
          · exact Or.inr (has_insert _ model)
          · exact Or.inl hlater
        · exact Or.inr (hmodel.insert first)
  exact hfold reads empty (Or.inl h)

end Stencil.Model
