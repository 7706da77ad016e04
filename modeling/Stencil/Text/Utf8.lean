/-!
Byte offsets in text. Positions in a template count UTF-8 bytes, so a run of
characters has a byte size and an offset is valid only between characters.
-/

namespace Stencil.Text

/-- Bytes that a run of characters takes in UTF-8. -/
def byteSize : List Char → Nat
  | [] => 0
  | c :: s => c.utf8Size + byteSize s

@[simp] theorem byteSize_nil : byteSize [] = 0 := rfl

@[simp] theorem byteSize_cons (c : Char) (s : List Char) :
    byteSize (c :: s) = c.utf8Size + byteSize s := rfl

@[simp] theorem byteSize_append (s t : List Char) :
    byteSize (s ++ t) = byteSize s + byteSize t := by
  induction s with
  | nil => simp
  | cons c s ih => simp [ih, Nat.add_assoc]

/-- The text split at a byte offset, or `none` if the offset lies inside a
character or past the end. -/
def splitAt? : Nat → List Char → Option (List Char × List Char)
  | 0, s => some ([], s)
  | _ + 1, [] => none
  | n + 1, c :: s =>
      if c.utf8Size ≤ n + 1 then
        (splitAt? (n + 1 - c.utf8Size) s).map fun (before, after) => (c :: before, after)
      else none
termination_by structural _ s => s

/-- The text between two byte offsets, if both lie between characters and in
this order. -/
def slice? (start stop : Nat) (s : List Char) : Option (List Char) := do
  if stop < start then none
  else
    let (_, after) ← splitAt? start s
    let (inside, _) ← splitAt? (stop - start) after
    pure inside

end Stencil.Text
