import Stencil.Json.Basic
import Stencil.Number.Numeral
import Stencil.Text.Units16

/-!
Reading JSON text. Each reader returns what it read and a rest that is shorter
than its input, which is why reading ends.
-/

namespace Stencil.Json

/-- A value read off the front of `s`. -/
structure Reading (s : List Char) (α : Type) where
  value : α
  rest : List Char
  shorter : rest.length < s.length

def isSpace (c : Char) : Bool :=
  c == ' ' || c == '\n' || c == '\r' || c == '\t'

def skipSpace (s : List Char) : List Char :=
  s.dropWhile isSpace

theorem length_skipSpace_le (s : List Char) : (skipSpace s).length ≤ s.length :=
  (List.dropWhile_suffix _).length_le

/-- A visible character after white space leaves less text. -/
theorem length_lt_of_skipSpace {s t : List Char} {c : Char} (h : skipSpace s = c :: t) :
    t.length < s.length := by
  have := length_skipSpace_le s
  rw [h, List.length_cons] at this
  omega

def hexDigit? (n : Nat) (c : Char) : Option Nat :=
  if c.isDigit then some (16 * n + (c.toNat - '0'.toNat))
  else if 'a' ≤ c ∧ c ≤ 'f' then some (16 * n + (c.toNat - 'a'.toNat + 10))
  else if 'A' ≤ c ∧ c ≤ 'F' then some (16 * n + (c.toNat - 'A'.toNat + 10))
  else none

def hexUnit? (digits : List Char) : Option UInt16 := do
  if digits.length ≠ 4 then none
  else
    let n ← digits.foldlM hexDigit? 0
    pure n.toUInt16

def escaped? (c : Char) : Option Char :=
  match c with
  | '"' | '\\' | '/' => some c
  | 'b' => some '\x08'
  | 'f' => some '\x0c'
  | 'n' => some '\n'
  | 'r' => some '\r'
  | 't' => some '\t'
  | _ => none

/-- Adds a unit of an escape to the text read so far: the second half of a
pair joins the first half that is waiting. -/
def joinUnit? (waiting : Option UInt16) (unit : UInt16) : Option (List Char × Option UInt16) :=
  match waiting with
  | some leading =>
      if Text.isTrailing unit then some ([Text.ofPair leading unit], none) else none
  | none =>
      if Text.isLeading unit then some ([], some unit)
      else if Text.isTrailing unit then none
      else some ([Char.ofNat unit.toNat], none)

/-- The characters of a string up to its closing quote, last one first, with
the first half of a pair of escapes that waits for its second. -/
def stringTail? (read : List Char) (waiting : Option UInt16) :
    (s : List Char) → Option (Reading s (List Char))
  | [] => none
  | '"' :: s => if waiting.isNone then some ⟨read.reverse, s, by simp⟩ else none
  | '\\' :: 'u' :: s => do
      let (added, waiting) ← joinUnit? waiting (← hexUnit? (s.take 4))
      let ⟨text, rest, shorter⟩ ← stringTail? (added ++ read) waiting (s.drop 4)
      pure ⟨text, rest, by simp only [List.length_drop, List.length_cons] at *; omega⟩
  | '\\' :: c :: s => do
      if waiting.isSome then none
      else
        let ⟨text, rest, shorter⟩ ← stringTail? ((← escaped? c) :: read) none s
        pure ⟨text, rest, by simp only [List.length_cons] at *; omega⟩
  | c :: s => do
      if waiting.isSome || c.toNat < 0x20 || c = '\\' then none
      else
        let ⟨text, rest, shorter⟩ ← stringTail? (c :: read) none s
        pure ⟨text, rest, by simp only [List.length_cons] at *; omega⟩
termination_by s => s.length
decreasing_by all_goals simp only [List.length_drop, List.length_cons]; omega

def readString? (s : List Char) : Option (Reading s String) := do
  let ⟨text, rest, shorter⟩ ← stringTail? [] none s
  pure ⟨String.ofList text, rest, shorter⟩

def isNumberChar (c : Char) : Bool :=
  c.isDigit || c == '-' || c == '+' || c == '.' || c == 'e' || c == 'E'

/-- A number: an integer of 64 bits, signed or unsigned, if it is written as an
integer and fits, else a double. -/
def ofNumeral? (numeral : List Char) : Option Json :=
  let (negative, digits) := match numeral with
    | '-' :: digits => (true, digits)
    | digits => (false, digits)
  match digits with
  | [] => none
  | first :: more =>
      if !first.isDigit || (first == '0' && more.head?.any Char.isDigit) then none
      else match Numeral.natural? digits with
        | some n =>
            if negative then
              if n = 0 then some (float (.zero true))
              else if n ≤ Numeral.signedLimit then some (int (-n))
              else some (float (.ofDecimal true n 0))
            else if n < Numeral.unsignedLimit then some (int n)
            else some (float (.ofDecimal false n 0))
        | none => (Numeral.magnitude? negative digits).map float

/-- A word such as `true` at the front of the text. -/
def readWord? (word : List Char) (value : Json) (s : List Char) : Option (Reading s Json) :=
  if h : word.isPrefixOf s ∧ word ≠ [] then
    some ⟨value, s.drop word.length, by
      have := List.length_pos_iff.2 h.2
      have := (List.isPrefixOf_iff_prefix.1 h.1).length_le
      simp only [List.length_drop]
      omega⟩
  else none

mutual

def readValue? (s : List Char) : Option (Reading s Json) :=
  match s with
  | [] => none
  | '"' :: t => do
      let ⟨text, rest, shorter⟩ ← readString? t
      pure ⟨string text, rest, Nat.lt_succ_of_lt shorter⟩
  | '[' :: t => do
      match h : skipSpace t with
      | ']' :: rest =>
          pure ⟨array [], rest, Nat.lt_succ_of_lt (length_lt_of_skipSpace h)⟩
      | _ =>
          have le := length_skipSpace_le t
          let ⟨items, rest, shorter⟩ ← readItems? (skipSpace t)
          pure ⟨array items, rest, Nat.lt_succ_of_lt (Nat.lt_of_lt_of_le shorter le)⟩
  | '\x7b' :: t => do
      match h : skipSpace t with
      | '\x7d' :: rest =>
          pure ⟨object [], rest, Nat.lt_succ_of_lt (length_lt_of_skipSpace h)⟩
      | _ =>
          have le := length_skipSpace_le t
          let ⟨members, rest, shorter⟩ ← readMembers? (skipSpace t)
          pure ⟨ofMembers members, rest, Nat.lt_succ_of_lt (Nat.lt_of_lt_of_le shorter le)⟩
  | 't' :: t => readWord? "true".toList (bool true) ('t' :: t)
  | 'f' :: t => readWord? "false".toList (bool false) ('f' :: t)
  | 'n' :: t => readWord? "null".toList null ('n' :: t)
  | c :: t =>
      if isNumberChar c then do
        let value ← ofNumeral? (c :: t.takeWhile isNumberChar)
        pure ⟨value, t.dropWhile isNumberChar,
          Nat.lt_succ_of_le (List.dropWhile_suffix isNumberChar).length_le⟩
      else none
termination_by (s.length, 0)
decreasing_by
  all_goals
    apply Prod.Lex.left
    exact Nat.lt_succ_of_le le

/-- The items of an array up to its closing bracket; at least one. -/
def readItems? (s : List Char) : Option (Reading s (List Json)) := do
  let ⟨first, afterItem, shorter⟩ ← readValue? s
  match h : skipSpace afterItem with
  | ']' :: rest =>
      pure ⟨[first], rest, Nat.lt_trans (length_lt_of_skipSpace h) shorter⟩
  | ',' :: more =>
      have less : (skipSpace more).length < s.length :=
        Nat.lt_of_le_of_lt (length_skipSpace_le more)
          (Nat.lt_trans (length_lt_of_skipSpace h) shorter)
      let ⟨others, rest, shorter⟩ ← readItems? (skipSpace more)
      pure ⟨first :: others, rest, Nat.lt_trans shorter less⟩
  | _ => none
termination_by (s.length, 1)
decreasing_by
  · exact Prod.Lex.right _ Nat.one_pos
  · exact Prod.Lex.left _ _ less

/-- The members of an object up to its closing brace; at least one. -/
def readMembers? (s : List Char) : Option (Reading s (List (String × Json))) :=
  match s with
  | '"' :: t => do
      let ⟨key, afterKey, keyShorter⟩ ← readString? t
      match h : skipSpace afterKey with
      | ':' :: valueText =>
          have less : (skipSpace valueText).length < t.length :=
            Nat.lt_of_le_of_lt (length_skipSpace_le valueText)
              (Nat.lt_trans (length_lt_of_skipSpace h) keyShorter)
          let ⟨value, afterValue, valueShorter⟩ ← readValue? (skipSpace valueText)
          have less' := Nat.lt_trans valueShorter less
          match h' : skipSpace afterValue with
          | '\x7d' :: rest =>
              pure ⟨[(key, value)], rest,
                Nat.lt_succ_of_lt (Nat.lt_trans (length_lt_of_skipSpace h') less')⟩
          | ',' :: more =>
              have less'' : (skipSpace more).length < t.length :=
                Nat.lt_of_le_of_lt (length_skipSpace_le more)
                  (Nat.lt_trans (length_lt_of_skipSpace h') less')
              let ⟨others, rest, shorter⟩ ← readMembers? (skipSpace more)
              pure ⟨(key, value) :: others, rest,
                Nat.lt_succ_of_lt (Nat.lt_trans shorter less'')⟩
          | _ => none
      | _ => none
  | _ => none
termination_by (s.length, 1)
decreasing_by
  · exact Prod.Lex.left _ _ (Nat.lt_succ_of_lt less)
  · exact Prod.Lex.left _ _ (Nat.lt_succ_of_lt less'')

end

/-- The value that a text consists of, with white space around it. -/
def parse? (s : String) : Option Json := do
  let ⟨value, rest, _⟩ ← readValue? (skipSpace s.toList)
  if (skipSpace rest).isEmpty then some value else none

end Stencil.Json
