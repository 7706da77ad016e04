import Stencil.Expression.Basic
import Stencil.Model.Basic
import Stencil.Token.Basic

/-!
The document tree: an ordered forest of items. Items own their children.
-/

namespace Stencil

/-- What a provider puts into an item: the provider that renders it, the name
that its closer repeats, and data of its own. -/
structure CustomTag where
  provider : String
  name : String
  expression : Option Expression
  payload : Json
  span : Span

/-- An item of a document. -/
inductive Item where
  | literal (text : String)
  | output (expression : Expression) (escape : Bool) (span : Span)
  /-- A section with its body and its `else` branch. -/
  | block (kind : SectionKind) (expression : Expression) (body otherwise : List Item) (span : Span)
  /-- The place where a partial is rendered. -/
  | reference (name : String) (span : Span)
  | declaration (name : String) (body : List Item) (span : Span)
  | custom (tag : CustomTag) (children : List Item)

namespace Item

/-- The place of an item in the source; literals have none. -/
def span? : Item → Option Span
  | literal _ => none
  | output _ _ span | block _ _ _ _ span | reference _ span | declaration _ _ span => some span
  | custom tag _ => some tag.span

/-- The items directly inside an item, in document order. -/
def children : Item → List Item
  | block _ _ body otherwise _ => body ++ otherwise
  | declaration _ body _ => body
  | custom _ children => children
  | _ => []

mutual

/-- An item and all items inside it, each before those inside it. -/
def walk : Item → List Item
  | block kind expression body otherwise span =>
      block kind expression body otherwise span :: (walkAll body ++ walkAll otherwise)
  | declaration name body span => declaration name body span :: walkAll body
  | custom tag children => custom tag children :: walkAll children
  | item => [item]

def walkAll : List Item → List Item
  | [] => []
  | item :: items => item.walk ++ walkAll items

end

theorem walkAll_append (first second : List Item) :
    walkAll (first ++ second) = walkAll first ++ walkAll second := by
  induction first with
  | nil => rfl
  | cons item first ih => rw [List.cons_append, walkAll, walkAll, ih, List.append_assoc]

theorem walk_eq (item : Item) : item.walk = item :: walkAll item.children := by
  cases item with
  | block kind expression body otherwise span => rw [walk, children, walkAll_append]
  | literal | output | reference | declaration | custom => rfl

/-- The items on a stack and all items inside them: the item on top is taken off,
and those inside it are put on. -/
def visit : List Item → List Item
  | [] => []
  | item :: stack => item :: visit (item.children ++ stack)
termination_by stack => (walkAll stack).length
decreasing_by
  rw [walkAll, walk_eq, walkAll_append, List.cons_append, List.length_cons]
  omega

/-- Walking by a stack comes past the items in document order. -/
theorem visit_eq_walkAll (stack : List Item) : visit stack = walkAll stack := by
  fun_induction visit stack with
  | case1 => rfl
  | case2 item stack ih => rw [ih, walkAll, walk_eq, walkAll_append, List.cons_append]

end Item

/-- A parsed template: its items, all that is wrong with it, and the model of
the data it reads if that was asked for. -/
structure Document where
  items : List Item
  errors : List ParseError
  model : Option Model

namespace Document

def isValid (document : Document) : Bool :=
  document.errors.isEmpty

/-- All items, each before those inside it. -/
def walk (document : Document) : List Item :=
  Item.visit document.items

end Document

end Stencil
