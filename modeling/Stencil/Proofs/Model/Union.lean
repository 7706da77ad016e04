import Mathlib.Data.List.Induction
import Stencil.Proofs.KeyMap.Order
import Stencil.Proofs.Model.Insertion

/-!
The union of models. Children are merged key by key, and a node is a sequence in the union
if it is one in either model. On models with their children in order the union does not
depend on the order of its parts or on how often a part occurs.
-/

namespace Stencil.Model

mutual

/-- The model of what either model has. -/
def union (model : Model) : Model → Model
  | node children isSequence =>
      node (mergeInto model.children children) (model.isSequence || isSequence)

/-- Children with others merged into them. -/
def mergeInto (own : List (String × Model)) : List (String × Model) → List (String × Model)
  | [] => own
  | (key, child) :: others =>
      mergeInto (KeyMap.insertWith (fun mine _ => mine.union child) key child own) others

end

/-- The children of every node are in the order of their keys. -/
inductive IsOrdered : Model → Prop where
  | node {children : List (String × Model)} {isSequence : Bool}
      (sorted : KeyMap.IsSorted children)
      (inner : ∀ key child, children.lookup key = some child → IsOrdered child) :
      IsOrdered (node children isSequence)

variable {model other third : Model}

theorem isOrdered_empty : empty.IsOrdered :=
  .node KeyMap.isSorted_nil nofun

namespace IsOrdered

theorem sorted (h : model.IsOrdered) : KeyMap.IsSorted model.children := by
  cases h with
  | node sorted inner => exact sorted

theorem child (h : model.IsOrdered) {key : String} {child : Model}
    (hchild : model.get? key = some child) : child.IsOrdered := by
  cases h with
  | node sorted inner => exact inner key child hchild

/-- Models are the same if they are sequences alike and have the same children. -/
theorem ext (h : model.IsOrdered) (h' : other.IsOrdered)
    (hsequence : model.isSequence = other.isSequence)
    (hchildren : ∀ key, model.get? key = other.get? key) : model = other := by
  obtain ⟨children, isSequence⟩ := model
  obtain ⟨children', isSequence'⟩ := other
  obtain rfl : isSequence = isSequence' := hsequence
  obtain rfl : children = children' := h.sorted.ext h'.sorted hchildren
  rfl

theorem insert (h : model.IsOrdered) (steps : List Step) : (insert steps model).IsOrdered := by
  induction steps generalizing model with
  | nil => exact h
  | cons step steps ih =>
      obtain ⟨children, isSequence⟩ := model
      cases step with
      | element => exact ih (.node h.sorted fun key child => h.child)
      | key name =>
          refine .node (h.sorted.insertWith _ _ _) ?_
          intro key child hchild
          have hsame : (Model.insert (.key name :: steps)
              (Model.node children isSequence)).get? key = some child := hchild
          by_cases heq : key = name
          · subst heq
            rw [get?_insert_self, Option.some.injEq] at hsame
            subst hsame
            apply ih
            cases hold : (Model.node children isSequence).get? key with
            | none => exact isOrdered_empty
            | some old => exact h.child hold
          · rw [get?_insert_of_ne steps heq] at hsame
            exact h.child hsame

end IsOrdered

section Merging

variable {own others : List (String × Model)}

theorem isSorted_mergeInto (h : KeyMap.IsSorted own) (others : List (String × Model)) :
    KeyMap.IsSorted (mergeInto own others) := by
  induction others generalizing own with
  | nil => exact h
  | cons first others ih => exact ih (h.insertWith _ _ _)

theorem lookup_mergeInto (h : KeyMap.IsSorted own) (h' : KeyMap.IsSorted others) (key : String) :
    (mergeInto own others).lookup key = (own.lookup key).merge union (others.lookup key) := by
  induction others generalizing own with
  | nil =>
      rw [mergeInto]
      cases own.lookup key <;> rfl
  | cons first others ih =>
      obtain ⟨hfirst, hothers⟩ := KeyMap.isSorted_cons.mp h'
      rw [mergeInto, ih (h.insertWith _ _ _) hothers]
      by_cases heq : key = first.1
      · subst heq
        rw [KeyMap.lookup_insertWith_self h, KeyMap.lookup_eq_none_of_lt hfirst,
          List.lookup_cons_self]
        cases own.lookup first.1 <;> rfl
      · rw [KeyMap.lookup_insertWith_of_ne _ heq, List.lookup_cons, beq_false_of_ne heq]

end Merging

@[simp] theorem isSequence_union (model other : Model) :
    (model.union other).isSequence = (model.isSequence || other.isSequence) := by
  cases other
  rfl

theorem union_empty (model : Model) : model.union empty = model := by
  obtain ⟨children, isSequence⟩ := model
  simp [union, mergeInto, empty, Model.children, Model.isSequence]

/-- The union has the children of both models, and the union of the children that both
have. -/
theorem get?_union (h : model.IsOrdered) (h' : other.IsOrdered) (key : String) :
    (model.union other).get? key = (model.get? key).merge union (other.get? key) := by
  cases other with
  | node children isSequence => exact lookup_mergeInto h.sorted h'.sorted key

/-- A child of the union is a child of one of the models, or the union of children of
both. -/
theorem get?_union_cases (h : model.IsOrdered) (h' : other.IsOrdered) {key : String}
    {child : Model} (hchild : (model.union other).get? key = some child) :
    model.get? key = some child ∨ other.get? key = some child ∨
      ∃ mine theirs, model.get? key = some mine ∧ other.get? key = some theirs ∧
        child = mine.union theirs := by
  rw [get?_union h h'] at hchild
  cases hmine : model.get? key with
  | none =>
      cases htheirs : other.get? key with
      | none =>
          rw [hmine, htheirs] at hchild
          cases hchild
      | some theirs =>
          rw [hmine, htheirs] at hchild
          exact Or.inr (Or.inl hchild)
  | some mine =>
      cases htheirs : other.get? key with
      | none =>
          rw [hmine, htheirs] at hchild
          exact Or.inl hchild
      | some theirs =>
          rw [hmine, htheirs] at hchild
          exact Or.inr (Or.inr ⟨mine, theirs, rfl, rfl, (Option.some.inj hchild).symm⟩)

theorem IsOrdered.union (h : model.IsOrdered) (h' : other.IsOrdered) :
    (model.union other).IsOrdered := by
  induction h' generalizing model with
  | @node children isSequence sorted inner ih =>
      have h' : (Model.node children isSequence).IsOrdered := .node sorted inner
      refine .node (isSorted_mergeInto h.sorted children) ?_
      intro key child hchild
      rcases get?_union_cases h h' hchild with hmine | htheirs | ⟨mine, theirs, hmine, htheirs, rfl⟩
      · exact h.child hmine
      · exact h'.child htheirs
      · exact ih key theirs htheirs (h.child hmine)

theorem union_comm (h : model.IsOrdered) (h' : other.IsOrdered) :
    model.union other = other.union model := by
  induction h generalizing other with
  | @node children isSequence sorted inner ih =>
      have h : (node children isSequence).IsOrdered := .node sorted inner
      refine (h.union h').ext (h'.union h) ?_ ?_
      · rw [isSequence_union, isSequence_union, Bool.or_comm]
      · intro key
        rw [get?_union h h', get?_union h' h]
        cases hown : (node children isSequence).get? key with
        | none => cases other.get? key <;> rfl
        | some mine =>
            cases hother : other.get? key with
            | none => rfl
            | some theirs => exact congrArg some (ih key mine hown (h'.child hother))

theorem union_assoc (h : model.IsOrdered) (h' : other.IsOrdered) (h'' : third.IsOrdered) :
    (model.union other).union third = model.union (other.union third) := by
  induction h generalizing other third with
  | @node children isSequence sorted inner ih =>
      have h : (node children isSequence).IsOrdered := .node sorted inner
      refine ((h.union h').union h'').ext (h.union (h'.union h'')) ?_ ?_
      · simp only [isSequence_union, Bool.or_assoc]
      · intro key
        rw [get?_union (h.union h') h'', get?_union h h', get?_union h (h'.union h''),
          get?_union h' h'']
        cases hown : (node children isSequence).get? key with
        | none => cases other.get? key <;> cases third.get? key <;> rfl
        | some mine =>
            cases htheirs : other.get? key with
            | none => cases third.get? key <;> rfl
            | some theirs =>
                cases hlast : third.get? key with
                | none => rfl
                | some last =>
                    exact congrArg some (ih key mine hown (h'.child htheirs) (h''.child hlast))

theorem union_self (h : model.IsOrdered) : model.union model = model := by
  induction h with
  | @node children isSequence sorted inner ih =>
      have h : (node children isSequence).IsOrdered := .node sorted inner
      refine (h.union h).ext h (by simp) ?_
      intro key
      rw [get?_union h h]
      cases hown : (node children isSequence).get? key with
      | none => rfl
      | some mine => exact congrArg some (ih key mine hown)

/-- What is put into one model is put into the union. -/
theorem union_insert (h : model.IsOrdered) (h' : other.IsOrdered) (steps : List Step) :
    model.union (insert steps other) = insert steps (model.union other) := by
  induction steps generalizing model other with
  | nil => rfl
  | cons step steps ih =>
      cases step with
      | element =>
          obtain ⟨children, isSequence⟩ := other
          have hmarked : (node children true).IsOrdered := .node h'.sorted fun key child => h'.child
          have hstep := ih h hmarked
          rw [union, Bool.or_true] at hstep
          exact hstep
      | key name =>
          have hinserted := h'.insert (.key name :: steps)
          refine (h.union hinserted).ext ((h.union h').insert _) ?_ ?_
          · obtain ⟨children, isSequence⟩ := other
            rfl
          · intro key
            rw [get?_union h hinserted]
            by_cases heq : key = name
            · subst heq
              rw [get?_insert_self, get?_insert_self, get?_union h h']
              cases hown : model.get? key with
              | none => cases other.get? key <;> rfl
              | some mine =>
                  cases hother : other.get? key with
                  | none =>
                      have hstep := ih (h.child hown) isOrdered_empty
                      rw [union_empty] at hstep
                      exact congrArg some hstep
                  | some theirs => exact congrArg some (ih (h.child hown) (h'.child hother))
            · rw [get?_insert_of_ne steps heq, get?_insert_of_ne steps heq, get?_union h h']

/-- The union of two models has what is found at some keys in either, or the union of what
is found in both. -/
theorem reach?_union (h : model.IsOrdered) (h' : other.IsOrdered) (keys : List String) :
    (model.union other).reach? keys = (model.reach? keys).merge union (other.reach? keys) := by
  induction keys generalizing model other with
  | nil => rfl
  | cons key keys ih =>
      simp only [reach?, List.foldlM_cons, Option.bind_eq_bind, get?_union h h'] at ih ⊢
      cases hown : model.get? key with
      | none =>
          cases hother : other.get? key with
          | none => rfl
          | some theirs => cases hrest : keys.foldlM get? theirs <;> simp [hrest]
      | some mine =>
          cases hother : other.get? key with
          | none => cases hrest : keys.foldlM get? mine <;> simp [hrest]
          | some theirs => exact ih (h.child hown) (h'.child hother)

theorem isOrdered_ofReads (reads : List (List Step)) : (ofReads reads).IsOrdered := by
  induction reads using List.reverseRecOn with
  | nil => exact isOrdered_empty
  | append_singleton reads steps ih =>
      rw [ofReads, List.foldl_append]
      exact ih.insert steps

/-- Steps after others make the model of the others with these put into it. -/
theorem ofReads_append (reads more : List (List Step)) :
    ofReads (reads ++ more) = (ofReads reads).union (ofReads more) := by
  induction more using List.reverseRecOn with
  | nil => rw [List.append_nil, ofReads.eq_1 [], List.foldl_nil, union_empty]
  | append_singleton more steps ih =>
      have hlast (front : List (List Step)) :
          ofReads (front ++ [steps]) = insert steps (ofReads front) := by
        rw [ofReads, List.foldl_append]
        rfl
      rw [← List.append_assoc, hlast, ih, hlast,
        union_insert (isOrdered_ofReads reads) (isOrdered_ofReads more)]

end Stencil.Model
