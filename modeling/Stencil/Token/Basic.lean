import Stencil.Span

/-!
Tokens: the text and the tags of a template, classified, in document order.
-/

namespace Stencil

/-- How a section decides whether and how often its body is rendered. -/
inductive SectionKind where
  | truthy
  | falsy
  /-- Once per element, which becomes the scope. -/
  | each
  /-- Once with the value as the scope. -/
  | within
  /-- Once per element of a sequence, or once with any other truthy value as
  the scope. -/
  | plain
  deriving DecidableEq

def SectionKind.label : SectionKind → String
  | truthy => "if"
  | falsy => "unless"
  | each => "each"
  | within => "with"
  | plain => "section"

/-- What a block tag opens. -/
inductive BlockKind where
  | ofSection (kind : SectionKind)
  | declaration
  deriving DecidableEq

/-- The class of a token. -/
inductive TokenKind where
  | text
  | comment
  /-- An expression to write, escaped or not. -/
  | expression (escape : Bool)
  /-- Opens a block, whose closer must repeat `name`. -/
  | opening (block : BlockKind) (name : String)
  /-- Closes the block that the token's value names. -/
  | closing
  | otherwise
  | reference
  /-- A token made by the provider of this name. -/
  | custom (provider : String)
  deriving DecidableEq

/-- A classified piece of a template: its class, what it holds (the text, the
expression, the name, or the whole content of a custom tag), and its place. -/
structure Token where
  kind : TokenKind
  value : String
  span : Span
  deriving DecidableEq

/-- The content of a tag, trimmed, and the place of the whole tag. -/
structure TagText where
  content : String
  span : Span

end Stencil
