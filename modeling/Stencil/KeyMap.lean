/-!
Association lists kept in the order of their keys, each key once. Strings are
compared by code point, which is the order of their UTF-8 bytes.
-/

namespace Stencil.KeyMap

/-- Puts a value under a key, combining it with one that is already there. -/
def insertWith {α : Type} (combine : α → α → α) (key : String) (value : α) :
    List (String × α) → List (String × α)
  | [] => [(key, value)]
  | (k, v) :: rest =>
      if key = k then (k, combine v value) :: rest
      else if key < k then (key, value) :: (k, v) :: rest
      else (k, v) :: insertWith combine key value rest

/-- Puts a value under a key, in place of one that is already there. -/
def insert {α : Type} (key : String) (value : α) (entries : List (String × α)) :
    List (String × α) :=
  insertWith (fun _ new => new) key value entries

/-- The map of some pairs, of which the last with a key counts. -/
def ofList {α : Type} (pairs : List (String × α)) : List (String × α) :=
  pairs.foldl (fun entries (key, value) => insert key value entries) []

@[simp] theorem lookup_insert_self {α : Type} (key : String) (value : α)
    (entries : List (String × α)) : (insert key value entries).lookup key = some value := by
  induction entries with
  | nil => simp [insert, insertWith]
  | cons entry rest ih =>
      simp only [insert, insertWith] at ih ⊢
      split
      · rename_i same
        simp [same]
      · rename_i other
        split
        · simp
        · rw [List.lookup_cons, beq_false_of_ne other]
          exact ih

/-- Putting a value under a key leaves the other keys as they are. -/
theorem lookup_insert_of_ne {α : Type} {key other : String} (value : α)
    (entries : List (String × α)) (ne : other ≠ key) :
    (insert key value entries).lookup other = entries.lookup other := by
  induction entries with
  | nil => simp [insert, insertWith, List.lookup_cons, beq_false_of_ne ne]
  | cons entry rest ih =>
      simp only [insert, insertWith] at ih ⊢
      split
      · rename_i same
        rw [List.lookup_cons, List.lookup_cons, ← same, beq_false_of_ne ne]
      · split
        · rw [List.lookup_cons, beq_false_of_ne ne]
        · rw [List.lookup_cons, List.lookup_cons, ih]

end Stencil.KeyMap
