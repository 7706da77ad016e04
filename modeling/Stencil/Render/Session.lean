import Stencil.Document.Basic

/-!
What one render keeps while it runs: the partials it is inside of, the partials
declared so far, and a record of what it rendered.
-/

namespace Stencil

/-- A record of one section, partial or custom item, with the depth of partials
it was rendered at. -/
structure Sample where
  kind : String
  label : String
  depth : Nat
  deriving DecidableEq

/-- The kind and the label of an item that is recorded. -/
def Item.profile? : Item → Option (String × String)
  | literal _ | output .. | declaration .. => none
  | block kind expression _ _ _ => some (kind.label, expression.text)
  | reference name _ => some ("partial", name)
  | custom tag _ => some (tag.provider, tag.name)

/-- The state of one render apart from its output. -/
structure Session where
  /-- The partials being rendered, outermost first. -/
  stack : List String
  /-- Bodies of declared partials by name. -/
  declared : List (String × List Item)
  /-- The samples in the order of their ends, if they are recorded. -/
  profile : Option (List Sample)

namespace Session

def new (profiles : Bool) : Session :=
  ⟨[], [], if profiles then some [] else none⟩

def depth (session : Session) : Nat :=
  session.stack.length

def enter (session : Session) (name : String) : Session :=
  { session with stack := session.stack ++ [name] }

def leave (session : Session) : Session :=
  { session with stack := session.stack.dropLast }

/-- Declares a partial, in place of one with the same name. -/
def declare (session : Session) (name : String) (body : List Item) : Session :=
  { session with declared := KeyMap.insert name body session.declared }

def declared? (session : Session) (name : String) : Option (List Item) :=
  session.declared.lookup name

def isProfiling (session : Session) : Bool :=
  session.profile.isSome

/-- Records a sample at the current depth, if samples are recorded. -/
def record (session : Session) (kind label : String) : Session :=
  { session with profile := session.profile.map (· ++ [⟨kind, label, session.depth⟩]) }

/-- Records an item that was rendered, if it is one to record. -/
def recordItem (session : Session) (item : Item) : Session :=
  if session.isProfiling then
    match item.profile? with
    | some (kind, label) => session.record kind label
    | none => session
  else session

def takeProfile (session : Session) : Option (List Sample) × Session :=
  (session.profile, { session with profile := none })

end Session

end Stencil
