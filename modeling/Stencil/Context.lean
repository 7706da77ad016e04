import Stencil.Path.Basic
import Stencil.Value.Basic

/-!
Scopes during a render, and what a path means in them. Only the first segment
of a path that is not anchored looks into enclosing scopes: it is answered by
the innermost scope that has it, and the remaining segments are followed from
there.
-/

namespace Stencil

/-- What an expression is evaluated for. -/
inductive Expectation where
  | value
  | condition
  | sequence
  | scope
  | argument
  deriving DecidableEq

/-- The name of an expectation in records of paths that found nothing. -/
def Expectation.text : Expectation → String
  | value => "value"
  | condition => "condition"
  | sequence => "sequence"
  | scope => "scope"
  | argument => "formatter argument"

/-- The position of an element in an iteration. -/
structure LoopPosition where
  index : Nat
  length : Nat
  deriving DecidableEq

def isLoopVariable (name : String) : Bool :=
  ["$index", "$first", "$last", "$odd", "$even"].contains name

def LoopPosition.answer? (position : LoopPosition) (name : String) : Option Value :=
  if name = "$index" then some (.ofNat position.index)
  else if name = "$first" then some (.bool (position.index == 0))
  else if name = "$last" then some (.bool (position.index + 1 == position.length))
  else if name = "$odd" then some (.bool (position.index % 2 == 1))
  else if name = "$even" then some (.bool (position.index % 2 == 0))
  else none

/-- The host's own answer for a member of a value, asked before the value. -/
abbrev Resolver := Value → String → Option Value

/-- A value that was found, and whether its last name was answered by the
host's resolver. -/
structure Found where
  value : Value
  fromResolver : Bool

/-- One scope: the path it was entered by, its value, which is absent if
nothing was found, and its position if it is an element of an iteration. -/
structure Scope where
  path : String
  value : Option Value
  fromResolver : Bool
  loop : Option LoopPosition

namespace Scope

def ofValue (path : String) (value : Value) : Scope :=
  ⟨path, some value, false, none⟩

def ofElement (path : String) (value : Value) (position : LoopPosition) : Scope :=
  ⟨path, some value, false, some position⟩

def ofFound (path : String) (found : Option Found) : Scope :=
  ⟨path, found.map Found.value, (found.map Found.fromResolver).getD false, none⟩

end Scope

/-- A scope and the scopes around it, innermost first. -/
structure Context where
  here : Scope
  outer : List Scope

namespace Context

def root (data : Value) : Context :=
  ⟨.ofValue "" data, []⟩

def enter (ctx : Context) (scope : Scope) : Context :=
  ⟨scope, ctx.here :: ctx.outer⟩

def scopes (ctx : Context) : List Scope :=
  ctx.here :: ctx.outer

def parent? (ctx : Context) : Option Context :=
  match ctx.outer with
  | [] => none
  | scope :: outer => some ⟨scope, outer⟩

def outermost (ctx : Context) : Context :=
  ⟨ctx.outer.getLastD ctx.here, []⟩

def nearestLoop? (ctx : Context) : Option LoopPosition :=
  ctx.scopes.findSome? Scope.loop

end Context

namespace Found

/-- Follows one segment. A name is asked of the resolver first. -/
def step? (resolver : Option Resolver) (found : Found) : Segment → Option Found
  | .name name =>
      match resolver.bind fun resolve => resolve found.value name with
      | some value => some ⟨value, true⟩
      | none => (found.value.member? name).map (⟨·, false⟩)
  | .index position => (found.value.item? position).map (⟨·, false⟩)
  | .self => some found
  | .parent | .root => none

def follow? (resolver : Option Resolver) (found : Found) (segments : List Segment) :
    Option Found :=
  segments.foldlM (step? resolver) found

end Found

namespace Context

def stepIn? (resolver : Option Resolver) (scope : Scope) (segment : Segment) : Option Found := do
  (Found.mk (← scope.value) false).step? resolver segment

/-- The context after leading parent segments, and the segments after them. -/
def climb? : Context → List Segment → Option (Context × List Segment)
  | ctx, .parent :: segments => do climb? (← ctx.parent?) segments
  | ctx, segments => some (ctx, segments)
termination_by structural _ segments => segments

/-- Where a path starts: the context of its anchor, and the segments after it. -/
def start? (ctx : Context) (segments : List Segment) : Option (Context × List Segment) :=
  match segments with
  | .root :: rest => some (ctx.outermost, rest)
  | segments => ctx.climb? segments

/-- What the first segment after the anchor finds: a loop variable asks the
nearest iteration; an anchored path only the scope it is anchored to; any other
the innermost scope that has it. -/
def first? (resolver : Option Resolver) (ctx : Context) (anchored : Bool) (segment : Segment) :
    Option Found :=
  let ofScopes := if anchored then stepIn? resolver ctx.here segment
    else ctx.scopes.findSome? (stepIn? resolver · segment)
  match segment with
  | .name name =>
      if isLoopVariable name then do
        pure ⟨← (← ctx.nearestLoop?).answer? name, false⟩
      else ofScopes
  | _ => ofScopes

def find? (resolver : Option Resolver) (ctx : Context) (path : Path) : Option Found :=
  match path.segments with
  | [] => none
  | .self :: _ => ctx.here.value.map (⟨·, ctx.here.fromResolver⟩)
  | segments => do
      let (start, rest) ← ctx.start? segments
      match rest with
      | [] => pure ⟨← start.here.value, false⟩
      | segment :: segments =>
          (← start.first? resolver path.isAnchored segment).follow? resolver segments

/-- The context that a path denotes, inside this one. -/
def resolve (resolver : Option Resolver) (ctx : Context) (path : Path) : Context :=
  ctx.enter (.ofFound path.text (ctx.find? resolver path))

end Context

end Stencil
