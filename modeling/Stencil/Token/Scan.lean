import Stencil.Provider.Basic
import Stencil.Settings
import Stencil.Text.Blank

/-!
Tokens of a template: its pieces classified, with their places. Scanning never
fails; what is wrong is reported beside the tokens.
-/

namespace Stencil.Token

open Text

/-- A keyword and what follows it, separated by white space. -/
def splitKeyword (s : List Char) : List Char × List Char :=
  match cutAtFirst? isBlank s with
  | some (keyword, argument) => (keyword, trim argument)
  | none => (s, [])

def blockOf? (keyword : List Char) : Option BlockKind :=
  if keyword = ['e', 'a', 'c', 'h'] then some (.ofSection .each)
  else if keyword = ['w', 'i', 't', 'h'] then some (.ofSection .within)
  else if keyword = ['i', 'f'] then some (.ofSection .truthy)
  else if keyword = ['d', 'e', 'c', 'l', 'a', 'r', 'e'] then some .declaration
  else none

/-- The class and the value of a section tag without its sign. A section
without a keyword is named by its expression. -/
def classifyOpening (rest : List Char) : TokenKind × List Char :=
  let (keyword, argument) := splitKeyword rest
  match blockOf? keyword with
  | some block => (.opening block (String.ofList keyword), argument)
  | none => (.opening (.ofSection .plain) (String.ofList rest), rest)

/-- The class and the value of an inverted section tag without its sign. -/
def classifyInverted (rest : List Char) : TokenKind × List Char :=
  let (keyword, argument) := splitKeyword rest
  if keyword = ['i', 'f'] then (.opening (.ofSection .falsy) (String.ofList keyword), argument)
  else (.opening (.ofSection .falsy) (String.ofList rest), rest)

/-- The class and the value of a tag by its first character, or nothing if the
tag is empty. -/
def classify? (braced : Bool) (content : List Char) : Option (TokenKind × List Char) :=
  if braced then some (.expression false, content)
  else match content with
    | [] => none
    | sign :: s =>
        let rest := trim s
        match sign with
        | '!' => some (.comment, rest)
        | '#' => some (classifyOpening rest)
        | '^' => some (classifyInverted rest)
        | '/' => some (.closing, rest)
        | '>' => some (.reference, rest)
        | '&' => some (.expression false, rest)
        | _ =>
            if content = ['e', 'l', 's', 'e'] then some (.otherwise, [])
            else some (.expression true, content)

/-- What was scanned: the offset reached, the tokens, latest first, and the
errors. -/
structure Scan where
  offset : Nat
  tokens : List Token
  errors : List ParseError

namespace Scan

/-- Adds text. It joins a text token that ends where it starts. -/
def addText (lines : LineIndex) (scan : Scan) (text : List Char) : Scan :=
  let stop := scan.offset + byteSize text
  let separate := ⟨.text, String.ofList text, lines.span scan.offset stop⟩ :: scan.tokens
  let tokens := match scan.tokens with
    | last :: earlier =>
        if last.kind = .text ∧ last.span.stop = scan.offset then
          { last with value := last.value ++ String.ofList text, span.stop := stop } :: earlier
        else separate
    | [] => separate
  { scan with offset := stop, tokens }

/-- Adds the tokens of a tag: those of the first provider that takes it, or one
by its class. -/
def addTag (providers : List Provider) (scan : Scan) (braced : Bool) (content : List Char)
    (span : Span) : Scan :=
  let scan := { scan with offset := span.stop }
  let text := String.ofList content
  match providers.find? (·.claimsTag text) with
  | some provider =>
      { scan with tokens := (provider.tokens ⟨text, span⟩).reverse ++ scan.tokens }
  | none => match classify? braced content with
    | some (kind, value) =>
        { scan with tokens := ⟨kind, String.ofList value, span⟩ :: scan.tokens }
    | none => { scan with errors := scan.errors ++ [⟨.emptyTag, span⟩] }

def addPiece (marks : Delimiters) (providers : List Provider) (lines : LineIndex) (scan : Scan)
    (piece : Piece) : Scan :=
  let source := piece.source marks
  let stop := scan.offset + byteSize source
  match piece with
  | .text _ => scan.addText lines source
  | .unclosed braced _ =>
      let fault := Fault.unclosedTag (String.ofList marks.opening)
        (String.ofList (Piece.closer marks braced))
      let error := ParseError.mk fault (lines.span scan.offset stop)
      { scan with errors := scan.errors ++ [error] }.addText lines source
  | .tag braced content =>
      scan.addTag providers braced (trim content) (lines.span scan.offset stop)

end Scan

/-- The tokens of a source between delimiters, and what is wrong with it. -/
def scanWith (marks : Delimiters) (providers : List Provider) (source : String) :
    List Token × List ParseError :=
  let s := source.toList
  let scan := (Piece.ofSource marks s).foldl
    (Scan.addPiece marks providers (.ofSource s)) ⟨0, [], []⟩
  (scan.tokens.reverse, scan.errors)

/-- The tokens of a source, and what is wrong with it. An empty delimiter is
the one error of any source. -/
def scan (settings : Settings) (providers : List Provider) (source : String) :
    List Token × List ParseError :=
  match settings.delimiters? with
  | some marks => scanWith marks providers source
  | none => ([], [⟨.emptyDelimiter settings.opening settings.closing, ⟨0, 0, 1, 1⟩⟩])

end Stencil.Token
