import Stencil.Document.Basic

/-!
Inferring the model of a template's data: every expression contributes the
steps from the root to what it reads, and every iteration those to its
elements.
-/

namespace Stencil.Model

/-- The steps to the data of the enclosing scopes, innermost first. -/
abbrev Places := List (List Step)

/-- Leaves as many scopes as the path has leading parent segments. -/
def leave : List Segment → Places → List Segment × Places
  | .parent :: segments, places => leave segments (places.drop 1)
  | segments, places => (segments, places)

/-- The steps of segments from a place. Positions lead to elements; a name with
a dollar sign is no data of the template. -/
def follow (place : List Step) : List Segment → Option (List Step)
  | [] => some place
  | .name name :: segments =>
      if name.toList.head? = some '$' then none else follow (place ++ [.key name]) segments
  | .index _ :: segments => follow (place ++ [.element]) segments
  | _ :: segments => follow place segments

def stepsOf (places : Places) (path : Path) : Option (List Step) :=
  match path.segments with
  | [] => none
  | .root :: segments => follow (places.getLastD []) segments
  | segments => do
      let (rest, places) := leave segments places
      follow (← places.head?) rest

mutual

/-- What an expression reads: its path and the paths among its arguments. -/
def readsOf (places : Places) : Expression → List (List Step)
  | ⟨path, calls, _⟩ => readsOfCalls places calls ++ (stepsOf places path).toList

def readsOfCalls (places : Places) : List FormatterCall → List (List Step)
  | [] => []
  | ⟨_, arguments⟩ :: calls => readsOfArguments places arguments ++ readsOfCalls places calls

def readsOfArguments (places : Places) : List Argument → List (List Step)
  | [] => []
  | .literal _ :: arguments => readsOfArguments places arguments
  | .nested expression :: arguments =>
      readsOf places expression ++ readsOfArguments places arguments

end

def bodyPlaces (kind : SectionKind) (places : Places) (path : Path) : Places :=
  match kind, stepsOf places path with
  | .each, some steps => (steps ++ [.element]) :: places
  | .within, some steps | .plain, some steps => steps :: places
  | _, _ => places

/-- What a section reads besides its expression: the elements it iterates. -/
def iterated (kind : SectionKind) (places : Places) (path : Path) : List (List Step) :=
  match kind, stepsOf places path with
  | .each, some steps => [steps ++ [.element]]
  | _, _ => []

mutual

def readsOfItem (places : Places) : Item → List (List Step)
  | .literal _ | .reference .. => []
  | .output expression _ _ => readsOf places expression
  | .block kind expression body otherwise _ =>
      readsOf places expression ++ iterated kind places expression.path ++
        readsOfItems (bodyPlaces kind places expression.path) body ++
        readsOfItems places otherwise
  | .declaration _ body _ => readsOfItems places body
  | .custom tag children =>
      (match tag.expression with
        | some expression => readsOf places expression
        | none => []) ++ readsOfItems places children

/-- What the items of a forest read, in document order. -/
def readsOfItems (places : Places) : List Item → List (List Step)
  | [] => []
  | item :: items => readsOfItem places item ++ readsOfItems places items

end

/-- The model with the nodes at the ends of all these steps. -/
def ofReads (reads : List (List Step)) : Model :=
  reads.foldl (fun model steps => insert steps model) empty

def ofItems (items : List Item) : Model :=
  ofReads (readsOfItems [[]] items)

end Stencil.Model
