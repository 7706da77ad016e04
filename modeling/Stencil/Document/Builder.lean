import Stencil.Expression.Reader
import Stencil.Provider.Basic

/-!
Building the document tree from tokens in one pass. Open blocks form a stack of
frames, each collecting the items of its block. Closers that do not match and
blocks left open are reported, and building goes on.
-/

namespace Stencil

/-- What a frame becomes when its block is closed. -/
inductive Opener where
  | block (kind : SectionKind) (expression : Expression)
  | declaration (name : String)
  | custom (tag : CustomTag)

/-- The opener is that of a section, which may have an `else`. -/
def Opener.isSection : Opener → Bool
  | block .. => true
  | _ => false

/-- An open block with the items collected so far: those of its body and, after
an `else`, those of the other branch. -/
structure Frame where
  block : OpenBlock
  opener : Opener
  body : List Item
  otherwise : Option (List Item)

namespace Frame

/-- Adds an item to the branch that is being collected. -/
def add (frame : Frame) (item : Item) : Frame :=
  match frame.otherwise with
  | some items => { frame with otherwise := some (items ++ [item]) }
  | none => { frame with body := frame.body ++ [item] }

def close (frame : Frame) (span : Span) : Item :=
  match frame.opener with
  | .block kind expression =>
      .block kind expression frame.body (frame.otherwise.getD []) span
  | .declaration name => .declaration name frame.body span
  | .custom tag => .custom { tag with span } frame.body

end Frame

/-- A document being built: the items outside all open blocks, the frames of the
open blocks, innermost first, and the errors. -/
structure Builder where
  items : List Item
  frames : List Frame
  errors : List ParseError

namespace Builder

def empty : Builder := ⟨[], [], []⟩

def openBlocks (builder : Builder) : List OpenBlock :=
  (builder.frames.map Frame.block).reverse

def add (builder : Builder) (item : Item) : Builder :=
  match builder.frames with
  | [] => { builder with items := builder.items ++ [item] }
  | frame :: frames => { builder with frames := frame.add item :: frames }

def report (builder : Builder) (fault : Fault) (span : Span) : Builder :=
  { builder with errors := builder.errors ++ [⟨fault, span⟩] }

def reportAll (builder : Builder) (errors : List ParseError) : Builder :=
  { builder with errors := builder.errors ++ errors }

def openBlock (builder : Builder) (opener : Opener) (block : OpenBlock) : Builder :=
  { builder with frames := ⟨block, opener, [], none⟩ :: builder.frames }

/-- Closes the innermost block if it has this name. -/
def close (builder : Builder) (name : String) (span : Span) : Builder :=
  match builder.frames with
  | [] => builder.report (.closesNothing name) span
  | frame :: frames =>
      if frame.block.name = name then
        { builder with frames }.add (frame.close (frame.block.span.merge span))
      else builder.report (.closesOther name frame.block.name frame.block.span.line) span

/-- Starts the other branch of the innermost block, which must be a section that
has none yet. -/
def otherwise (builder : Builder) (span : Span) : Builder :=
  match builder.frames with
  | [] => builder.report .strayElse span
  | frame :: frames =>
      if frame.otherwise.isSome then builder.report .secondElse span
      else if frame.opener.isSection then
        { builder with frames := { frame with otherwise := some [] } :: frames }
      else builder.report .strayElse span

def claim (builder : Builder) (claim : Claim) (index : Nat) (span : Span) : Builder :=
  match claim with
  | .item item => builder.add item
  | .opens tag => builder.openBlock (.custom tag) ⟨tag.name, index, span⟩
  | .closes name => builder.close name span
  | .skips => builder

def addBuiltin (escaping : Bool) (builder : Builder) (index : Nat) (token : Token) : Builder :=
  let span := token.span
  match token.kind with
  | .text => builder.add (.literal token.value)
  | .comment => builder
  | .expression escape =>
      let (expression, errors) := Expression.read token.value span
      (builder.reportAll errors).add (.output expression (escape && escaping) span)
  | .opening (.ofSection kind) name =>
      let (expression, errors) := Expression.read token.value span
      (builder.reportAll errors).openBlock (.block kind expression) ⟨name, index, span⟩
  | .opening .declaration name =>
      let builder := if token.value.isEmpty then builder.report .namelessDeclaration span
        else builder
      builder.openBlock (.declaration token.value) ⟨name, index, span⟩
  | .closing => builder.close token.value span
  | .otherwise => builder.otherwise span
  | .reference =>
      if token.value.isEmpty then builder.report .namelessReference span
      else builder.add (.reference token.value span)
  | .custom provider => builder.report (.unclaimed provider token.value) span

/-- Handles a token: the first provider that takes it does, or else the
built-in rules. -/
def addToken (escaping : Bool) (providers : List Provider) (builder : Builder)
    (index : Nat) (token : Token) : Builder :=
  match providers.find? (·.claimsToken token) with
  | some provider =>
      match provider.parse token builder.openBlocks with
      | .ok claim => builder.claim claim index token.span
      | .error error => builder.reportAll [error]
  | none => builder.addBuiltin escaping index token

/-- Handles tokens, of which the first has an index. -/
def addTokens (escaping : Bool) (providers : List Provider) (builder : Builder) (index : Nat) :
    List Token → Builder
  | [] => builder
  | token :: tokens =>
      addTokens escaping providers (builder.addToken escaping providers index token)
        (index + 1) tokens

/-- Reports the blocks in frames as never closed, innermost first, and folds
each into the next. -/
def closeAll (items : List Item) (errors : List ParseError) :
    List Frame → List Item × List ParseError
  | [] => (items, errors)
  | [frame] =>
      let span := frame.block.span
      (items ++ [frame.close span], errors ++ [⟨.unclosedBlock frame.block.name, span⟩])
  | frame :: outer :: frames =>
      let span := frame.block.span
      closeAll items (errors ++ [⟨.unclosedBlock frame.block.name, span⟩])
        (outer.add (frame.close span) :: frames)
termination_by frames => frames.length

def finish (builder : Builder) : List Item × List ParseError :=
  closeAll builder.items builder.errors builder.frames

end Builder

/-- The items of tokens, and what is wrong with them. -/
def Item.ofTokens (escaping : Bool) (providers : List Provider) (tokens : List Token) :
    List Item × List ParseError :=
  (Builder.empty.addTokens escaping providers 0 tokens).finish

end Stencil
