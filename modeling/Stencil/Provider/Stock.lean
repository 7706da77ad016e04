import Stencil.Expression.Reader
import Stencil.Json.Fields
import Stencil.Provider.Basic
import Stencil.Text.Casing

/-!
Stock providers. Each shows one thing that a provider can do: blocks with a
count, a value or a name, items with an expression, tags that become several
tokens or none, and text that is looked into.
-/

namespace Stencil.Provider

open Text

def argumentOf (value : String) : String :=
  match cutAtFirst? (· == ' ') value.toList with
  | some (_, argument) => String.ofList (trim argument)
  | none => ""

/-- The tag opens or closes the blocks of this name. -/
def isBlockTag (name content : String) : Bool :=
  ("#" ++ name ++ " ").toList.isPrefixOf content.toList || content == "/" ++ name

def startsWith (start content : String) : Bool :=
  start.toList.isPrefixOf content.toList

def ownTag (name : String) (expression : Option Expression) (payload : Json) (span : Span) :
    CustomTag :=
  ⟨name, name, expression, payload, span⟩

/-- The expression in the argument of a token, or the first error in it. -/
def argumentExpression (token : Token) : Except ParseError Expression :=
  match Expression.read (argumentOf token.value) token.span with
  | (expression, []) => .ok expression
  | (_, error :: _) => .error error

/-- A provider that takes its own tokens, of which one with a slash and its name
closes a block. -/
def named (name : String) (claimsTag : String → Bool)
    (parse : Token → List OpenBlock → Except ParseError Claim)
    (render : CustomTag → List Item → Recipe) : Provider where
  name
  claimsTag
  tokens := customToken name
  claimsToken := isOwn name
  parse token blocks :=
    if token.value = "/" ++ name then .ok (.closes name) else parse token blocks
  render

/-- Renders the children once for each number from one up to another. -/
def countFrom (start : Nat) : Nat → Recipe
  | 0 => .done
  | count + 1 => .render .children (some (.ofNat start)) <| .orFail fun _ =>
      countFrom (start + 1) count

/-- A block rendered as often as its argument says, with the count as the scope. -/
def counting : Provider :=
  named "repeat" (isBlockTag "repeat")
    (fun token _ => match Numeral.unsigned? (argumentOf token.value).toList with
      | some count => .ok (.opens (ownTag "repeat" none (.int count) token.span))
      | none => .error ⟨.reported .unexpectedToken "`repeat` needs a count", token.span⟩)
    fun tag _ => countFrom 0 (tag.payload.natural?.getD 0)

/-- A block with the value of its argument as the scope, or with none if that is
absent. -/
def binding : Provider :=
  named "let" (isBlockTag "let")
    (fun token _ => do
      pure (.opens (ownTag "let" (some (← argumentExpression token)) .null token.span)))
    fun tag _ => match tag.expression with
      | some expression => .evaluate expression .scope <| .orFail fun value =>
          .render .children value <| .orFail fun _ => .done
      | none => .render .children none <| .orFail fun _ => .done

/-- A block that becomes a partial with its argument as the name. -/
def defining : Provider :=
  named "define" (isBlockTag "define")
    (fun token _ =>
      .ok (.opens (ownTag "define" none (.string (argumentOf token.value)) token.span)))
    fun tag children => .declare (tag.payload.string?.getD "") children fun _ => .done

/-- An item that writes the value of its argument in capital letters. -/
def shouting : Provider :=
  named "shout" (startsWith "shout ")
    (fun token _ => do
      let tag := ownTag "shout" (some (← argumentExpression token)) .null token.span
      pure (.item (.custom tag [])))
    fun tag _ => match tag.expression with
      | some expression => .evaluate expression .value <| .orFail fun
          | some value => .nullText fun nullText =>
              .write (upper (value.text nullText)) <| .orFail fun _ => .done
          | none => .write "" <| .orFail fun _ => .done
      | none => .done

/-- What an item tells about the blocks it stands in. -/
def describeBlocks (blocks : List OpenBlock) (sought : String) : Json :=
  .ofMembers [("names", .array (blocks.map fun block => .string block.name)),
    ("tokens", .array (blocks.map fun block => .int block.tokenIndex)),
    ("len", .int blocks.length),
    ("empty", .bool blocks.isEmpty),
    ("innermost", match blocks.getLast? with
      | some block => .string block.name
      | none => .null),
    ("contains", .bool (blocks.any (·.name == sought)))]

/-- An item that writes the blocks it stands in and the partials it is rendered
in. -/
def locating : Provider :=
  named "scopes" (startsWith "scopes")
    (fun token blocks =>
      let payload := describeBlocks blocks (argumentOf token.value)
      .ok (.item (.custom (ownTag "scopes" none payload token.span) [])))
    fun tag _ =>
      let names := match tag.payload.get? "names" with
        | some (.array names) => names.filterMap Json.string?
        | _ => []
      .partials fun stack =>
        .write (String.intercalate "/" names ++ ":" ++ toString stack.length ++ ":" ++
          String.intercalate "," stack) <| .orFail fun _ => .done

def skipping : Provider :=
  named "skip" (startsWith "%") (fun _ _ => .ok .skips) fun _ _ => .done

/-- A part of a tag that is split: an expression after a colon, or text. -/
def partToken (span : Span) (part : List Char) : Token :=
  match part with
  | ':' :: expression => ⟨.expression true, String.ofList (trim expression), span⟩
  | text => ⟨.text, String.ofList text, span⟩

/-- Tags whose parts between commas are text and expressions. -/
def splitting : Provider :=
  { named "split" (startsWith "=") (fun _ _ => .ok .skips) fun _ _ => .done with
    tokens := fun tag => (splitOn ',' (tag.content.toList.drop 1)).map (partToken tag.span) }

def orphaned : Provider :=
  { named "orphan" (startsWith "orphan") (fun _ _ => .ok .skips) fun _ _ => .done with
    tokens := customToken "nobody" }

def ghostly : Provider :=
  named "ghost" (· == "ghost")
    (fun token _ => .ok (.item (.custom ⟨"nowhere", "ghost", none, .null, token.span⟩ [])))
    fun _ _ => .done

/-- The text with every occurrence of a non-empty word replaced. -/
def replaceWord (word image : List Char) (ne : word ≠ []) (s : List Char) : List Char :=
  match _found : cut? word s with
  | none => s
  | some (before, after) => before ++ image ++ replaceWord word image ne after
termination_by s.length
decreasing_by exact length_lt_of_cut? ne _found

def hushing : Provider :=
  let word := ['M', 'A', 'G', 'I', 'C']
  { named "magic" (fun _ => false)
      (fun token _ =>
        let text := replaceWord word (word.map Char.toLower) (by simp [word]) token.value.toList
        .ok (.item (.literal (String.ofList text))))
      fun _ _ => .done with
    claimsToken := fun token =>
      token.kind == .text && (cut? word token.value.toList).isSome }

def stock : List Provider :=
  [counting, binding, defining, shouting, locating, skipping, splitting, orphaned, ghostly,
    hushing]

def stock? (name : String) : Option Provider :=
  stock.find? (·.name == name)

end Stencil.Provider
