import Stencil.Diagnostic.Basic

/-!
The catalog of error codes. A code names a subsystem (0 input and output, 1
parsing, 2 rendering) and a number in it.
-/

namespace Stencil.Catalog

/-- What the catalog says about a code. -/
structure Entry where
  subsystem : String
  title : String
  hint : Option String
  deriving DecidableEq

def entries : List (String × Entry) := [
  ("T-0-1", ⟨"io", "I/O error",
    some "Check that the destination can be opened and written to."⟩),
  ("T-1-1", ⟨"parse", "Unexpected token",
    some ("Closing tags must name the innermost open block, " ++
      "e.g. `\x7b\x7b/each\x7d\x7d` for `\x7b\x7b#each\x7d\x7d`.")⟩),
  ("T-1-2", ⟨"parse", "Unclosed block", some "Did you forget the closing tag?"⟩),
  ("T-1-3", ⟨"parse", "Unclosed tag", some "Did you forget the closing delimiter?"⟩),
  ("T-1-4", ⟨"parse", "Invalid path",
    some "Paths look like `a.b`, `items.0`, `../parent` or `~.root`."⟩),
  ("T-1-5", ⟨"parse", "Malformed formatter call",
    some "Formatter calls look like `value | name(arg, 'text', 3)`."⟩),
  ("T-1-6", ⟨"parse", "Empty tag", none⟩),
  ("T-1-7", ⟨"parse", "Invalid delimiter",
    some "Both delimiters must be non-empty, for example `\x7b\x7b` and `\x7d\x7d`."⟩),
  ("T-2-1", ⟨"render", "Unresolved formatter",
    some "Is a formatter registered for these argument types?"⟩),
  ("T-2-2", ⟨"render", "Formatter invocation failed", none⟩),
  ("T-2-3", ⟨"render", "Partial stack overflow",
    some "Does the partial include itself without a stopping condition?"⟩),
  ("T-2-4", ⟨"render", "Partial not found",
    some "Declare it with `\x7b\x7b#declare name\x7d\x7d` or add it to the partial store."⟩),
  ("T-2-5", ⟨"render", "Output limit reached", none⟩),
  ("T-2-6", ⟨"render", "Render timed out", none⟩),
  ("T-2-7", ⟨"render", "Render cancelled", none⟩)]

def find? (code : String) : Option Entry :=
  entries.lookup code

def codesIn (subsystem : String) : List String :=
  (entries.filter (·.2.subsystem == subsystem)).map Prod.fst

end Stencil.Catalog

namespace Stencil.Diagnostic

/-- The error that the catalog describes under a code, with its hint. A code that
is not in the catalog is its own title. -/
def ofCode (code : String) : Diagnostic :=
  let entry := Catalog.find? code
  let title := (entry.map (·.title)).getD code
  { new .error title with code := some code, hints := (entry.bind (·.hint)).toList }

end Stencil.Diagnostic
