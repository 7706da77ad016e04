import Stencil.Document.Builder
import Stencil.Model.Inference
import Stencil.Token.Scan

/-!
Parsing a template: its tokens, the tree they form, and all errors in the order
of their places.
-/

namespace Stencil.Document

def parse (settings : Settings) (providers : List Provider) (source : String) : Document :=
  let (tokens, scanErrors) := Token.scan settings providers source
  let (items, treeErrors) := Item.ofTokens (!settings.disablesEscaping) providers tokens
  { items
    errors := (scanErrors ++ treeErrors).mergeSort fun a b => a.span.start ≤ b.span.start
    model := if settings.infersModel then some (Model.ofItems items) else none }

end Stencil.Document
