import Stencil.Expression.Reader
import Stencil.Proofs.Text.Blanks

/-!
The grammar of expressions. An expression is a path and a chain of formatter
calls, each after a bar; a call is a name, which a list of arguments in
parentheses may follow; an argument is a string, a number, a keyword or an
expression again. White space may stand between any two of these.
-/

namespace Stencil.Expression

open Text

/-- What stands between the quotes of a string, and the text it denotes. -/
inductive QuotedText (quote : Char) : List Char → List Char → Prop where
  | nil : QuotedText quote [] []
  | plain {c : Char} {s text : List Char} (hquote : c ≠ quote) (hescape : c ≠ '\\')
      (more : QuotedText quote s text) : QuotedText quote (c :: s) (c :: text)
  | escaped {s text : List Char} (c : Char) (more : QuotedText quote s text) :
      QuotedText quote ('\\' :: c :: s) (unescape c :: text)

/-- A digit, or a minus sign and a digit, comes first. -/
def startsNumber (s : List Char) : Bool :=
  match s with
  | [] => false
  | c :: t => c.isDigit || (c == '-' && t.head?.any Char.isDigit)

/-- A number: an optional sign and number characters, which denote the value
once the underscores are dropped. -/
inductive NumberText : List Char → Literal → Prop where
  | mk {sign digits : List Char} {value : Literal} (hsign : sign = [] ∨ sign = ['-'])
      (hstarts : startsNumber (sign ++ digits) = true)
      (hdigits : ∀ c ∈ digits, isNumberChar c = true)
      (hvalue : numberOf? ((sign ++ digits).filter (· != '_')) = some value) :
      NumberText (sign ++ digits) value

inductive LiteralText : List Char → Literal → Prop where
  | string {quote : Char} {s text : List Char} (hquote : quote = '"' ∨ quote = '\'')
      (quoted : QuotedText quote s text) :
      LiteralText (quote :: (s ++ [quote])) (.string (String.ofList text))
  | number {s : List Char} {value : Literal} (number : NumberText s value) :
      LiteralText s value
  | keyword {word : List Char} {value : Literal} (hmem : (word, value) ∈ keywords) :
      LiteralText word value

/-- A non-empty run of formatter characters. -/
structure IsIdentifier (s : List Char) : Prop where
  nonempty : s ≠ []
  chars : ∀ c ∈ s, isFormatterChar c = true

/-- The text starts no literal. -/
structure StartsNoLiteral (s : List Char) : Prop where
  number : startsNumber s = false
  keyword : keyword? s = none

mutual

/-- A path and its calls. All expressions take the place of the tag. -/
inductive ChainText (span : Span) : List Char → Expression → Prop where
  | mk {path : Path} {name tail : List Char} {calls : List FormatterCall} (hname : name ≠ [])
      (hchars : ∀ c ∈ name, isPathChar c = true)
      (hpath : Path.parse (String.ofList name) = .ok path) (more : CallsText span tail calls) :
      ChainText span (name ++ tail) ⟨path, calls, span⟩

inductive CallsText (span : Span) : List Char → List FormatterCall → Prop where
  | nil : CallsText span [] []
  | cons {before after s tail : List Char} {call : FormatterCall}
      {calls : List FormatterCall} (hbefore : AllBlank before) (hafter : AllBlank after)
      (first : CallText span s call) (more : CallsText span tail calls) :
      CallsText span (before ++ '|' :: (after ++ (s ++ tail))) (call :: calls)

/-- A name, and arguments in parentheses if there are any. -/
inductive CallText (span : Span) : List Char → FormatterCall → Prop where
  | bare {name : List Char} (hname : IsIdentifier name) :
      CallText span name ⟨String.ofList name, []⟩
  | empty {name before inside : List Char} (hname : IsIdentifier name)
      (hbefore : AllBlank before) (hinside : AllBlank inside) :
      CallText span (name ++ (before ++ '(' :: (inside ++ [')']))) ⟨String.ofList name, []⟩
  | arguments {name before inside s after : List Char} {arguments : List Argument}
      (hname : IsIdentifier name) (hbefore : AllBlank before) (hinside : AllBlank inside)
      (list : ArgumentsText span s arguments) (hafter : AllBlank after) :
      CallText span (name ++ (before ++ '(' :: (inside ++ (s ++ (after ++ [')'])))))
        ⟨String.ofList name, arguments⟩

/-- Arguments between commas, at least one. -/
inductive ArgumentsText (span : Span) : List Char → List Argument → Prop where
  | last {s : List Char} {argument : Argument} (only : ArgumentText span s argument) :
      ArgumentsText span s [argument]
  | cons {s before after tail : List Char} {argument : Argument} {arguments : List Argument}
      (first : ArgumentText span s argument) (hbefore : AllBlank before)
      (hafter : AllBlank after) (more : ArgumentsText span tail arguments) :
      ArgumentsText span (s ++ (before ++ ',' :: (after ++ tail))) (argument :: arguments)

/-- A literal, or an expression that does not start like one. -/
inductive ArgumentText (span : Span) : List Char → Argument → Prop where
  | literal {s : List Char} {value : Literal} (text : LiteralText s value) :
      ArgumentText span s (.literal value)
  | nested {s : List Char} {expression : Expression} (text : ChainText span s expression)
      (hstart : StartsNoLiteral s) : ArgumentText span s (.nested expression)

end

end Stencil.Expression
