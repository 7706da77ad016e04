import Stencil.Context
import Stencil.Document.Basic
import Stencil.Render.Error

/-!
Providers: items that a host adds to the template language. A provider may
claim tags and tokens before the built-in handling sees them. It renders its
items by a recipe, which is followed in the scope of the item.
-/

namespace Stencil

/-- An open block: the name that its closer repeats and its opening token. -/
structure OpenBlock where
  name : String
  tokenIndex : Nat
  span : Span
  deriving DecidableEq

/-- What a provider makes of a token. -/
inductive Claim where
  | item (item : Item)
  /-- Opens a block; the items up to its closer become its children. -/
  | opens (tag : CustomTag)
  /-- Closes the innermost block, which must have this name. -/
  | closes (name : String)
  | skips

/-- Items without an item of a provider among them. -/
structure BuiltinItems where
  items : List Item
  builtin : ∀ tag children, .custom tag children ∉ Item.walkAll items

/-- What a provider renders for an item: all children of the item, those at some
positions, or items that it made. Items of providers are only among the children,
or rendering might never end. -/
inductive Selection where
  | children
  | those (positions : List Nat)
  | made (forest : BuiltinItems)

/-- The selected items, of an item with these children. -/
def Selection.items (children : List Item) : Selection → List Item
  | .children => children
  | .those positions => positions.filterMap (children[·]?)
  | .made forest => forest.items

/-- What a provider does to render an item. A later step may depend on what came
of an earlier one, which may be an error. -/
inductive Recipe where
  | done
  | fail (error : RenderError)
  | write (text : String) (next : Except RenderError Unit → Recipe)
  /-- Evaluates an expression; there is no value if its path is absent. -/
  | evaluate (expression : Expression) (expected : Expectation)
      (next : Except RenderError (Option Value) → Recipe)
  /-- Renders items in the scope of the item, or with a value as the scope. -/
  | render (selection : Selection) (scope : Option Value)
      (next : Except RenderError Unit → Recipe)
  /-- Declares items as a partial. -/
  | declare (name : String) (body : List Item) (next : Unit → Recipe)
  /-- Looks at the names of the partials being rendered, outermost first. -/
  | partials (next : List String → Recipe)
  /-- Looks at the text that is written for null. -/
  | nullText (next : String → Recipe)

/-- Goes on after a step, or fails as it did. -/
def Recipe.orFail {α : Type} (next : α → Recipe) : Except RenderError α → Recipe
  | .ok a => next a
  | .error error => .fail error

structure Provider where
  name : String
  /-- Whether it takes a tag, by the tag's content. -/
  claimsTag : String → Bool
  tokens : TagText → List Token
  claimsToken : Token → Bool
  /-- What it makes of a token it takes, given the open blocks, outermost first. -/
  parse : Token → List OpenBlock → Except ParseError Claim
  /-- How it renders an item with these children. -/
  render : CustomTag → List Item → Recipe

namespace Provider

/-- The one token that a claimed tag becomes if nothing else is said. -/
def customToken (name : String) (tag : TagText) : List Token :=
  [⟨.custom name, tag.content, tag.span⟩]

/-- The tokens that a provider takes if nothing else is said: its own. -/
def isOwn (name : String) (token : Token) : Bool :=
  token.kind == .custom name

end Provider

end Stencil
