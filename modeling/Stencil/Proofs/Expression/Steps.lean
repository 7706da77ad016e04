import Stencil.Expression.Reader

/-!
One step of each reader. A reader looks at the next character after white space
and either stops or hands over to other readers. The equations below give the
outcome of every such step, so that later proofs follow the readers without
opening them.
-/

namespace Stencil.Expression

open Text

variable {source formatter : String} {span : Span} {s t : List Char}

theorem ofList_isEmpty (s : List Char) : (String.ofList s).isEmpty = s.isEmpty := by
  rw [Bool.eq_iff_iff, String.isEmpty_iff, List.isEmpty_iff, ← String.toList_inj]
  simp

/-- What a reading says, apart from the text that it is the front of. -/
def Reading.outcome {α : Type} (reading : Reading s α) : α × List Fault × List Char :=
  (reading.value, reading.faults, reading.rest)

theorem Reading.outcome_iff {α : Type} {reading : Reading s α} {value : α}
    {faults : List Fault} {rest : List Char} :
    reading.outcome = (value, faults, rest) ↔
      reading.value = value ∧ reading.faults = faults ∧ reading.rest = rest := by
  simp only [Reading.outcome, Prod.mk.injEq]

theorem readPath_path {path : Path}
    (hparse : Path.parse (String.ofList (s.takeWhile isPathChar)) = .ok path) :
    (readPath s).outcome = (path, [], s.dropWhile isPathChar) := by
  simp only [Reading.outcome, readPath, hparse]

theorem readPath_error {cause : PathError}
    (hparse : Path.parse (String.ofList (s.takeWhile isPathChar)) = .error cause) :
    (readPath s).outcome =
      (⟨[], String.ofList (s.takeWhile isPathChar)⟩, [.path cause],
        s.dropWhile isPathChar) := by
  simp only [Reading.outcome, readPath, hparse]

theorem readString_closed {quote : Char} {text rest : List Char}
    (htail : stringTail? quote s = some (text, rest)) :
    (readString source quote s).outcome = (some (.string (String.ofList text)), [], rest) := by
  unfold readString
  split
  · rename_i text' rest' hsome
    obtain ⟨rfl, rfl⟩ := Prod.mk.inj (Option.some.inj (htail.symm.trans hsome))
    rfl
  · rename_i hnone
    cases htail.symm.trans hnone

theorem readString_unclosed {quote : Char} (htail : stringTail? quote s = none) :
    (readString source quote s).outcome = (none, [.unterminatedString source], []) := by
  unfold readString
  split
  · rename_i text rest hsome
    cases htail.symm.trans hsome
  · rfl

theorem readChain_step :
    (readChain source span s).outcome =
      let path := readPath (trimStart s)
      let calls := readCalls source span path.rest
      (⟨path.value, calls.value, span⟩, path.faults ++ calls.faults, calls.rest) := by
  rw [readChain]
  rfl

theorem readCalls_call {call : FormatterCall} (hbar : trimStart s = '|' :: t)
    (hcall : (readCall source span (trimStart t)).value = some call) :
    (readCalls source span s).outcome =
      let first := readCall source span (trimStart t)
      let more := readCalls source span first.rest
      (call :: more.value, first.faults ++ more.faults, more.rest) := by
  rw [readCalls]
  split
  · rename_i t' hbar'
    obtain ⟨-, rfl⟩ := List.cons.inj (hbar.symm.trans hbar')
    simp only []
    split
    · rename_i value hvalue
      obtain rfl := Option.some.inj (hcall.symm.trans hvalue)
      rfl
    · rename_i hnone
      rw [hcall] at hnone
      cases hnone
  · rename_i hno
    exact absurd hbar (hno t)

/-- A call that cannot be read is skipped up to the next bar. -/
theorem readCalls_malformed (hbar : trimStart s = '|' :: t)
    (hcall : (readCall source span (trimStart t)).value = none) :
    (readCalls source span s).outcome =
      let first := readCall source span (trimStart t)
      let more := readCalls source span (recover 0 none first.rest)
      (more.value, first.faults ++ more.faults, more.rest) := by
  rw [readCalls]
  split
  · rename_i t' hbar'
    obtain ⟨-, rfl⟩ := List.cons.inj (hbar.symm.trans hbar')
    simp only []
    split
    · rename_i value hvalue
      rw [hcall] at hvalue
      cases hvalue
    · rfl
  · rename_i hno
    exact absurd hbar (hno t)

theorem readCalls_end (hno : ∀ t, trimStart s ≠ '|' :: t) :
    (readCalls source span s).outcome = ([], [], trimStart s) := by
  rw [readCalls]
  split
  · rename_i t hbar
    exact absurd hbar (hno t)
  · rfl

theorem readCall_nameless (hname : s.takeWhile isFormatterChar = []) :
    (readCall source span s).outcome =
      (none, [.missingFormatterName source], s.dropWhile isFormatterChar) := by
  rw [readCall]
  simp only [ofList_isEmpty, hname]
  rfl

theorem readCall_bare (hname : s.takeWhile isFormatterChar ≠ [])
    (hno : ∀ t, trimStart (s.dropWhile isFormatterChar) ≠ '(' :: t) :
    (readCall source span s).outcome =
      (some ⟨String.ofList (s.takeWhile isFormatterChar), []⟩, [],
        trimStart (s.dropWhile isFormatterChar)) := by
  rw [readCall]
  simp only [ofList_isEmpty]
  rw [if_neg (by simpa using hname)]
  rfl

theorem readCall_empty {rest : List Char} (hname : s.takeWhile isFormatterChar ≠ [])
    (hparen : trimStart (s.dropWhile isFormatterChar) = '(' :: t)
    (hclose : trimStart t = ')' :: rest) :
    (readCall source span s).outcome =
      (some ⟨String.ofList (s.takeWhile isFormatterChar), []⟩, [], rest) := by
  rw [readCall]
  simp only [ofList_isEmpty]
  rw [if_neg (by simpa using hname)]
  split
  · rename_i t' hparen'
    obtain ⟨-, rfl⟩ := List.cons.inj (hparen.symm.trans hparen')
    split
    · rename_i rest' hclose'
      obtain ⟨-, rfl⟩ := List.cons.inj (hclose.symm.trans hclose')
      rfl
    · rename_i hno
      exact absurd hclose (hno rest)
  · rename_i hno
    exact absurd hparen (hno t)

theorem readCall_arguments (hname : s.takeWhile isFormatterChar ≠ [])
    (hparen : trimStart (s.dropWhile isFormatterChar) = '(' :: t)
    (hno : ∀ rest, trimStart t ≠ ')' :: rest) :
    (readCall source span s).outcome =
      let name := String.ofList (s.takeWhile isFormatterChar)
      let arguments := readArguments source span name (trimStart t)
      (arguments.value.map fun values => ⟨name, values⟩, arguments.faults,
        arguments.rest) := by
  rw [readCall]
  simp only [ofList_isEmpty]
  rw [if_neg (by simpa using hname)]
  split
  · rename_i t' hparen'
    obtain ⟨-, rfl⟩ := List.cons.inj (hparen.symm.trans hparen')
    simp only []
    rfl
  · rename_i hno'
    exact absurd hparen (hno' t)

theorem readArguments_failed (hvalue : (readArgument source span s).value = none) :
    (readArguments source span formatter s).outcome =
      let argument := readArgument source span s
      (none, argument.faults, argument.rest) := by
  rw [readArguments]
  simp only []
  split
  · rfl
  · rename_i value hsome
    rw [hvalue] at hsome
    cases hsome

theorem readArguments_more {value : Argument}
    (hvalue : (readArgument source span s).value = some value)
    (hcomma : trimStart (readArgument source span s).rest = ',' :: t) :
    (readArguments source span formatter s).outcome =
      let more := readArguments source span formatter t
      (more.value.map (value :: ·), (readArgument source span s).faults ++ more.faults,
        more.rest) := by
  rw [readArguments]
  simp only []
  split
  · rename_i hnone
    rw [hvalue] at hnone
    cases hnone
  · rename_i value' hsome
    obtain rfl := Option.some.inj (hvalue.symm.trans hsome)
    split
    · rename_i t' hcomma'
      obtain ⟨-, rfl⟩ := List.cons.inj (hcomma.symm.trans hcomma')
      rfl
    · rename_i t' hclose
      cases hcomma.symm.trans hclose
    · rename_i hno _
      exact absurd hcomma (hno t)

theorem readArguments_last {value : Argument}
    (hvalue : (readArgument source span s).value = some value)
    (hclose : trimStart (readArgument source span s).rest = ')' :: t) :
    (readArguments source span formatter s).outcome =
      (some [value], (readArgument source span s).faults, t) := by
  rw [readArguments]
  simp only []
  split
  · rename_i hnone
    rw [hvalue] at hnone
    cases hnone
  · rename_i value' hsome
    obtain rfl := Option.some.inj (hvalue.symm.trans hsome)
    split
    · rename_i t' hcomma
      cases hclose.symm.trans hcomma
    · rename_i t' hclose'
      obtain ⟨-, rfl⟩ := List.cons.inj (hclose.symm.trans hclose')
      rfl
    · rename_i hno
      exact absurd hclose (hno t)

/-- An argument that neither a comma nor a closing parenthesis follows ends the
call with a fault. -/
theorem readArguments_broken {value : Argument}
    (hvalue : (readArgument source span s).value = some value)
    (hcomma : ∀ t, trimStart (readArgument source span s).rest ≠ ',' :: t)
    (hclose : ∀ t, trimStart (readArgument source span s).rest ≠ ')' :: t) :
    (readArguments source span formatter s).outcome =
      let rest := trimStart (readArgument source span s).rest
      let fault := if rest.isEmpty then .unclosedArguments formatter
        else .missingComma formatter
      (none, (readArgument source span s).faults ++ [fault], rest) := by
  rw [readArguments]
  simp only []
  split
  · rename_i hnone
    rw [hvalue] at hnone
    cases hnone
  · rfl

theorem readArgument_end (hend : trimStart s = []) :
    (readArgument source span s).outcome = (none, [.missingArgument source], []) := by
  rw [readArgument]
  split
  · rfl
  · rename_i c t hsome
    cases hend.symm.trans hsome

variable {c : Char}

theorem readArgument_string (hc : trimStart s = c :: t) (hquote : c = '"' ∨ c = '\'') :
    (readArgument source span s).outcome =
      let string := readString source c t
      (string.value.map .literal, string.faults, string.rest) := by
  rw [readArgument]
  split
  · rename_i hend
    cases hend.symm.trans hc
  · rename_i c' t' hc'
    obtain ⟨rfl, rfl⟩ := List.cons.inj (hc.symm.trans hc')
    simp only [if_pos hquote]
    rfl

theorem readArgument_number (hc : trimStart s = c :: t) (hquote : ¬(c = '"' ∨ c = '\''))
    (hdigit : c.isDigit ∨ (c = '-' ∧ t.head?.any Char.isDigit)) :
    (readArgument source span s).outcome =
      let number := readNumber (trimStart s)
      (number.value.map .literal, number.faults, number.rest) := by
  rw [readArgument]
  split
  · rename_i hend
    cases hend.symm.trans hc
  · rename_i c' t' hc'
    obtain ⟨rfl, rfl⟩ := List.cons.inj (hc.symm.trans hc')
    simp only [if_neg hquote, if_pos hdigit]
    rfl

theorem readArgument_keyword {value : Literal} {length : Nat} (hc : trimStart s = c :: t)
    (hquote : ¬(c = '"' ∨ c = '\''))
    (hdigit : ¬(c.isDigit ∨ (c = '-' ∧ t.head?.any Char.isDigit)))
    (hkeyword : keyword? (trimStart s) = some (value, length)) :
    (readArgument source span s).outcome =
      (some (.literal value), [], (trimStart s).drop length) := by
  rw [readArgument]
  split
  · rename_i hend
    cases hend.symm.trans hc
  · rename_i c' t' hc'
    obtain ⟨rfl, rfl⟩ := List.cons.inj (hc.symm.trans hc')
    simp only [if_neg hquote, if_neg hdigit]
    split
    · rename_i value' length' hkeyword'
      cases Option.some.inj (hkeyword.symm.trans hkeyword')
      rfl
    · rename_i hnone
      cases hkeyword.symm.trans hnone

/-- Anything else is an expression, which counts only if it has no fault. -/
theorem readArgument_nested (hc : trimStart s = c :: t) (hquote : ¬(c = '"' ∨ c = '\''))
    (hdigit : ¬(c.isDigit ∨ (c = '-' ∧ t.head?.any Char.isDigit)))
    (hkeyword : keyword? (trimStart s) = none) :
    (readArgument source span s).outcome =
      let chain := readChain source span (trimStart s)
      (if chain.faults.isEmpty then some (.nested chain.value) else none, chain.faults,
        chain.rest) := by
  rw [readArgument]
  split
  · rename_i hend
    cases hend.symm.trans hc
  · rename_i c' t' hc'
    obtain ⟨rfl, rfl⟩ := List.cons.inj (hc.symm.trans hc')
    simp only [if_neg hquote, if_neg hdigit]
    split
    · rename_i value length hsome
      cases hkeyword.symm.trans hsome
    · rfl

end Stencil.Expression
