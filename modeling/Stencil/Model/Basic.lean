import Stencil.KeyMap

/-!
Models: which parts of its data a template reads, as a tree of keys. A node is
a sequence if it is iterated.
-/

namespace Stencil

/-- A node of a model. Children are in key order. -/
inductive Model where
  | node (children : List (String × Model)) (isSequence : Bool)

namespace Model

/-- A step from a node: to a child, or to the elements of the node itself. -/
inductive Step where
  | key (name : String)
  | element
  deriving DecidableEq

def empty : Model := node [] false

def children : Model → List (String × Model)
  | node children _ => children

def isSequence : Model → Bool
  | node _ isSequence => isSequence

def get? (model : Model) (key : String) : Option Model :=
  model.children.lookup key

/-- The model that also has the node at the end of some steps. -/
def insert : List Step → Model → Model
  | [], model => model
  | .element :: steps, node children _ => insert steps (node children true)
  | .key name :: steps, node children isSequence =>
      let child := insert steps ((children.lookup name).getD empty)
      node (KeyMap.insert name child children) isSequence

mutual

/-- The paths of the nodes below one whose own path is given, each node before
its children. Names are joined with points and sequences marked by brackets. -/
def pathsUnder (path : String) : Model → List String
  | node children _ => pathsOfChildren path children

/-- The paths of children and of the nodes below them. -/
def pathsOfChildren (path : String) : List (String × Model) → List String
  | [] => []
  | (key, child) :: children =>
      let own := (if path.isEmpty then key else path ++ "." ++ key) ++
        (if child.isSequence then "[]" else "")
      own :: pathsUnder own child ++ pathsOfChildren path children

end

def paths (model : Model) : List String :=
  pathsUnder "" model

end Model

end Stencil
