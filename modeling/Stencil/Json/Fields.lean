import Stencil.Json.Basic

/-!
Reading and writing the JSON of records: which members are there, and what they
hold.
-/

namespace Stencil.Json

def string? : Json → Option String
  | string s => some s
  | _ => none

def bool? : Json → Option Bool
  | bool b => some b
  | _ => none

/-- The name of a choice: a string, or an object with the name as its one key
and null under it. -/
def choice? : Json → Option String
  | string name => some name
  | object [(name, null)] => some name
  | _ => none

def optional? {α : Type} (read? : Json → Option α) : Json → Option (Option α)
  | null => some none
  | json => (read? json).map some

/-- Members by name: those of an object, or the items of an array in the order
of the names. -/
def fields? (names : List String) : Json → Option (List (String × Json))
  | object members => some members
  | array items => if items.length ≤ names.length then some (names.zip items) else none
  | _ => none

/-- A member under a name, if there is something under it. -/
def memberIf (name : String) (json : Option Json) : List (String × Json) :=
  (json.map fun json => (name, json)).toList

def membersIf (name : String) (items : List Json) : List (String × Json) :=
  if items.isEmpty then [] else [(name, array items)]

def optionalField? {α : Type} (fields : List (String × Json)) (name : String)
    (read? : Json → Option α) : Option (Option α) :=
  match fields.lookup name with
  | some json => optional? read? json
  | none => some none

/-- A member that is an array and may be left out. -/
def listField? {α : Type} (fields : List (String × Json)) (name : String)
    (read? : Json → Option α) : Option (List α) :=
  match fields.lookup name with
  | some (array items) => items.mapM read?
  | some _ => none
  | none => some []

end Stencil.Json
