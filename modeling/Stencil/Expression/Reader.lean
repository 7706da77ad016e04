import Stencil.Expression.Basic
import Stencil.Path.Reader
import Stencil.Text.Blank

/-!
Reading expressions. Reading never fails: it returns the best expression it
can make and the faults it met. A malformed call costs only itself, as reading
goes on at the next bar outside quotes and parentheses. Each reader returns a
suffix of its input, which is why reading ends.
-/

namespace Stencil.Expression

open Text

/-- What was read off the front of `s`, the faults met, and the rest. -/
structure Reading (s : List Char) (α : Type) where
  value : α
  faults : List Fault
  rest : List Char
  suffix : rest <:+ s

namespace Reading

def within {s t : List Char} {α : Type} (reading : Reading s α) (h : s <:+ t) : Reading t α :=
  ⟨reading.value, reading.faults, reading.rest, reading.suffix.trans h⟩

def map {s : List Char} {α β : Type} (f : α → β) (reading : Reading s α) : Reading s β :=
  ⟨f reading.value, reading.faults, reading.rest, reading.suffix⟩

def after {s : List Char} {α : Type} (faults : List Fault) (reading : Reading s α) :
    Reading s α :=
  { reading with faults := faults ++ reading.faults }

end Reading

theorem trimStart_suffix (s : List Char) : trimStart s <:+ s :=
  List.dropWhile_suffix _

/-- The path at the front of `s`. A text that is not a path is kept as the text
of a path without segments. -/
def readPath (s : List Char) : Reading s Path :=
  let text := String.ofList (s.takeWhile isPathChar)
  let (path, faults) := match Path.parse text with
    | .ok path => (path, [])
    | .error cause => (⟨[], text⟩, [.path cause])
  ⟨path, faults, s.dropWhile isPathChar, List.dropWhile_suffix _⟩

/-- The character that stands after a backslash in a string. -/
def unescape : Char → Char
  | 'n' => '\n'
  | 't' => '\t'
  | c => c

/-- The characters up to the closing quote, and what follows it. -/
def stringTail? (quote : Char) : List Char → Option (List Char × List Char)
  | [] => none
  | ['\\'] => none
  | '\\' :: c :: s => (stringTail? quote s).map fun (text, rest) => (unescape c :: text, rest)
  | c :: s =>
      if c = quote then some ([], s)
      else (stringTail? quote s).map fun (text, rest) => (c :: text, rest)

theorem suffix_of_stringTail? {quote : Char} {s text rest : List Char}
    (h : stringTail? quote s = some (text, rest)) : rest <:+ s := by
  fun_induction stringTail? quote s generalizing text with
  | case1 => simp at h
  | case2 => simp at h
  | case3 c s ih =>
      obtain ⟨⟨text', rest'⟩, h', heq⟩ := Option.map_eq_some_iff.1 h
      obtain ⟨_, rfl⟩ := Prod.mk.inj heq
      exact (ih h').trans ((List.suffix_cons c s).trans (List.suffix_cons _ _))
  | case4 s _ =>
      obtain ⟨_, rfl⟩ := Prod.mk.inj (Option.some.inj h)
      exact List.suffix_cons _ _
  | case5 c s _ _ _ ih =>
      obtain ⟨⟨text', rest'⟩, h', heq⟩ := Option.map_eq_some_iff.1 h
      obtain ⟨_, rfl⟩ := Prod.mk.inj heq
      exact (ih h').trans (List.suffix_cons _ _)

/-- A string after its opening quote. One that is not terminated takes the
whole text. -/
def readString (source : String) (quote : Char) (s : List Char) :
    Reading s (Option Literal) :=
  match h : stringTail? quote s with
  | some (text, rest) =>
      ⟨some (.string (String.ofList text)), [], rest, suffix_of_stringTail? h⟩
  | none => ⟨none, [.unterminatedString source], [], List.nil_suffix⟩

def isNumberChar (c : Char) : Bool :=
  c.isDigit || c == '.' || c == 'e' || c == 'E' || c == '_'

/-- The number that a numeral denotes: an integer if it is one of 64 bits, else
a double. -/
def numberOf? (numeral : List Char) : Option Literal :=
  ((Numeral.signed? numeral).map .int).or ((Numeral.double? numeral).map .float)

/-- A number with an optional minus sign. Underscores are dropped. -/
def readNumber (s : List Char) : Reading s (Option Literal) :=
  let (sign, unsigned) := match s with
    | '-' :: t => (['-'], t)
    | t => ([], t)
  let numeral := (sign ++ unsigned.takeWhile isNumberChar).filter (· != '_')
  let value := numberOf? numeral
  ⟨value, if value.isNone then [.invalidNumber (String.ofList numeral)] else [],
    s.drop (sign.length + (unsigned.takeWhile isNumberChar).length), List.drop_suffix _ _⟩

/-- A keyword ends at white space, a comma, a closing parenthesis or the end. -/
def atBoundary : List Char → Bool
  | [] => true
  | c :: _ => isBlank c || c == ',' || c == ')'

def keywords : List (List Char × Literal) :=
  [(['t', 'r', 'u', 'e'], .bool true), (['f', 'a', 'l', 's', 'e'], .bool false),
    (['n', 'u', 'l', 'l'], .null)]

/-- A keyword at the front of the text, and its length. -/
def keyword? (s : List Char) : Option (Literal × Nat) :=
  keywords.findSome? fun (word, value) =>
    if word.isPrefixOf s && atBoundary (s.drop word.length) then some (value, word.length)
    else none

/-- The text from the next bar that stands outside quotes and parentheses. -/
def recover (depth : Nat) (quote : Option Char) : List Char → List Char
  | [] => []
  | c :: s =>
      match quote with
      | some q => recover depth (if c = q then none else some q) s
      | none =>
          if c = '"' ∨ c = '\'' then recover depth (some c) s
          else if c = '(' then recover (depth + 1) none s
          else if c = ')' then recover (depth - 1) none s
          else if c = '|' ∧ depth = 0 then c :: s
          else recover depth none s

theorem recover_suffix (depth : Nat) (quote : Option Char) (s : List Char) :
    recover depth quote s <:+ s := by
  induction s generalizing depth quote with
  | nil => exact List.suffix_refl _
  | cons c s ih =>
      have step := fun depth quote => (ih depth quote).trans (List.suffix_cons c s)
      simp only [recover]
      split
      · exact step _ _
      · split
        · exact step _ _
        split
        · exact step _ _
        split
        · exact step _ _
        split
        · exact List.suffix_refl _
        · exact step _ _

def isFormatterChar (c : Char) : Bool :=
  isAlphanumeric c || c == '_'

theorem length_lt_of_trimStart {s t : List Char} {c : Char} (h : trimStart s = c :: t) :
    t.length < s.length := by
  have := (trimStart_suffix s).length_le
  rw [h, List.length_cons] at this
  omega

theorem suffix_of_trimStart {s t : List Char} {c : Char} (h : trimStart s = c :: t) :
    t <:+ s :=
  (h ▸ List.suffix_cons c t).trans (trimStart_suffix s)

mutual

def readChain (source : String) (span : Span) (s : List Char) : Reading s Expression :=
  let path := readPath (trimStart s)
  have within := path.suffix.trans (trimStart_suffix s)
  let calls := readCalls source span path.rest
  ((calls.map fun calls => ⟨path.value, calls, span⟩).within within).after path.faults
termination_by (s.length, 1)
decreasing_by
  cases Nat.lt_or_eq_of_le within.length_le with
  | inl less => exact Prod.Lex.left _ _ less
  | inr same => rw [same]; exact Prod.Lex.right _ Nat.one_pos

/-- The calls after the bars that follow, without those that are malformed. -/
def readCalls (source : String) (span : Span) (s : List Char) :
    Reading s (List FormatterCall) :=
  match h : trimStart s with
  | '|' :: t =>
      let call := readCall source span (trimStart t)
      have within := call.suffix.trans ((trimStart_suffix t).trans (suffix_of_trimStart h))
      have : call.rest.length < s.length :=
        Nat.lt_of_le_of_lt (call.suffix.trans (trimStart_suffix t)).length_le
          (length_lt_of_trimStart h)
      match call.value with
      | some value =>
          let more := readCalls source span call.rest
          ((more.map (value :: ·)).within within).after call.faults
      | none =>
          have recovered := recover_suffix 0 none call.rest
          let more := readCalls source span (recover 0 none call.rest)
          (more.within (recovered.trans within)).after call.faults
  | t => ⟨[], [], t, h ▸ trimStart_suffix s⟩
termination_by (s.length, 0)
decreasing_by
  · exact Prod.Lex.left _ _
      (Nat.lt_of_le_of_lt (trimStart_suffix t).length_le (length_lt_of_trimStart h))
  · exact Prod.Lex.left _ _ this
  · exact Prod.Lex.left _ _ (Nat.lt_of_le_of_lt recovered.length_le this)

/-- A formatter name and its arguments, if there are any. -/
def readCall (source : String) (span : Span) (s : List Char) :
    Reading s (Option FormatterCall) :=
  let name := String.ofList (s.takeWhile isFormatterChar)
  let rest := s.dropWhile isFormatterChar
  have within : rest <:+ s := List.dropWhile_suffix _
  if name.isEmpty then ⟨none, [.missingFormatterName source], rest, within⟩
  else match h : trimStart rest with
    | '(' :: t =>
        have inside := (suffix_of_trimStart h).trans within
        match h' : trimStart t with
        | ')' :: rest => ⟨some ⟨name, []⟩, [], rest, (suffix_of_trimStart h').trans inside⟩
        | _ =>
            ((readArguments source span name (trimStart t)).map
              (·.map fun arguments => ⟨name, arguments⟩)).within
              ((trimStart_suffix t).trans inside)
    | t => ⟨some ⟨name, []⟩, [], t, (h ▸ trimStart_suffix rest).trans within⟩
termination_by (s.length, 0)
decreasing_by
  exact Prod.Lex.left _ _ (Nat.lt_of_le_of_lt (trimStart_suffix t).length_le
    (Nat.lt_of_lt_of_le (length_lt_of_trimStart h) within.length_le))

/-- Arguments between commas up to the closing parenthesis; at least one. -/
def readArguments (source : String) (span : Span) (formatter : String) (s : List Char) :
    Reading s (Option (List Argument)) :=
  let argument := readArgument source span s
  match argument.value with
  | none => ⟨none, argument.faults, argument.rest, argument.suffix⟩
  | some value =>
      match h : trimStart argument.rest with
      | ',' :: t =>
          have within := (suffix_of_trimStart h).trans argument.suffix
          let more := readArguments source span formatter t
          ((more.map (·.map (value :: ·))).within within).after argument.faults
      | ')' :: t =>
          ⟨some [value], argument.faults, t, (suffix_of_trimStart h).trans argument.suffix⟩
      | t =>
          let fault := if t.isEmpty then .unclosedArguments formatter else .missingComma formatter
          ⟨none, argument.faults ++ [fault], t,
            (h ▸ trimStart_suffix argument.rest).trans argument.suffix⟩
termination_by (s.length, 3)
decreasing_by
  · exact Prod.Lex.right _ (by omega)
  · exact Prod.Lex.left _ _
      (Nat.lt_of_lt_of_le (length_lt_of_trimStart h) argument.suffix.length_le)

/-- One argument: a string, a number, a keyword or an expression. An
expression with a fault is no argument. -/
def readArgument (source : String) (span : Span) (s : List Char) :
    Reading s (Option Argument) :=
  match h : trimStart s with
  | [] => ⟨none, [.missingArgument source], [], List.nil_suffix⟩
  | c :: t =>
      have inside := suffix_of_trimStart h
      if c = '"' ∨ c = '\'' then
        ((readString source c t).map (·.map .literal)).within inside
      else if c.isDigit ∨ (c = '-' ∧ t.head?.any Char.isDigit) then
        ((readNumber (trimStart s)).map (·.map .literal)).within (trimStart_suffix s)
      else match keyword? (trimStart s) with
        | some (value, length) =>
            ⟨some (.literal value), [], (trimStart s).drop length,
              (List.drop_suffix _ _).trans (trimStart_suffix s)⟩
        | none =>
            let chain := readChain source span (trimStart s)
            ⟨if chain.faults.isEmpty then some (.nested chain.value) else none,
              chain.faults, chain.rest, chain.suffix.trans (trimStart_suffix s)⟩
termination_by (s.length, 2)
decreasing_by
  cases Nat.lt_or_eq_of_le (trimStart_suffix s).length_le with
  | inl less => exact Prod.Lex.left _ _ less
  | inr same => rw [same]; exact Prod.Lex.right _ (by omega)

end

/-- The faults of a whole tag text: those of its expression, and one if text is
left after it. -/
def trailingFaults (source : String) (expression : Expression) (rest : List Char) :
    List Fault :=
  if rest.isEmpty then []
  else [.trailing (!expression.calls.isEmpty) (String.ofList rest) source]

def read (source : String) (span : Span) : Expression × List ParseError :=
  let chain := readChain source span source.toList
  let faults := chain.faults ++ trailingFaults source chain.value (trimStart chain.rest)
  (chain.value, faults.map (⟨·, span⟩))

end Stencil.Expression
