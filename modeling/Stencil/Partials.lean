import Stencil.Document.Parser

/-!
A store of partials held in memory.
-/

namespace Stencil

/-- Documents by name, in the order of the names. -/
structure PartialStore where
  documents : List (String × Document)

namespace PartialStore

def empty : PartialStore := ⟨[]⟩

def get? (store : PartialStore) (name : String) : Option Document :=
  store.documents.lookup name

/-- Puts a document under a name, valid or not, in place of one that is there. -/
def insert (store : PartialStore) (name : String) (document : Document) : PartialStore :=
  ⟨KeyMap.insert name document store.documents⟩

/-- Parses a source and puts it under a name, unless it has errors. -/
def add (store : PartialStore) (settings : Settings) (providers : List Provider)
    (name source : String) : Except (List ParseError) PartialStore :=
  let document := Document.parse settings providers source
  if document.isValid then .ok (store.insert name document) else .error document.errors

def contains (store : PartialStore) (name : String) : Bool :=
  (store.get? name).isSome

def size (store : PartialStore) : Nat :=
  store.documents.length

end PartialStore

end Stencil
