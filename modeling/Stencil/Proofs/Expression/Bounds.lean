import Stencil.Proofs.Expression.Cursor

/-!
Reading an expression by offsets comes to an end and stays inside the text. The walks of
this module mirror the readers with a cursor, and each is shown to read from every place
what its reader does, in a number of rounds linear in the length of the text behind the
cursor. So none goes on forever, none cuts the text inside a character or past its end, and
the cursor only moves on.
-/

namespace Stencil.Expression.Walk

open Text

section Leaves

variable (source : String)

def path (rounds : Nat) : Walk Path := do
  let text ← taking source (passWhile source isPathChar rounds)
  match Path.parse (String.ofList text) with
  | .ok path => return path
  | .error cause =>
      report (.path cause)
      return ⟨[], String.ofList text⟩

/-- The characters up to the closing quote, and the offset behind it in a text of which
`offset` bytes are passed. -/
def quoted? (quote : Char) (offset : Nat) : List Char → Option (List Char × Nat)
  | [] => none
  | ['\\'] => none
  | '\\' :: c :: s =>
      (quoted? quote (offset + '\\'.utf8Size + c.utf8Size) s).map fun (text, stop) =>
        (unescape c :: text, stop)
  | c :: s =>
      if c = quote then some ([], offset + c.utf8Size)
      else (quoted? quote (offset + c.utf8Size) s).map fun (text, stop) => (c :: text, stop)

def string (quote : Char) : Walk (Option Literal) := do
  advance quote.utf8Size
  match quoted? quote 0 (← remaining source) with
  | some (text, bytes) =>
      advance bytes
      return some (.string (String.ofList text))
  | none =>
      moveTo (byteSize source.toList)
      report (.unterminatedString source)
      return none

def sign : Walk Unit := do
  if (← peek source) = some '-' then advance 1 else return

def number (rounds : Nat) : Walk (Option Literal) := do
  let text ← taking source do
    sign source
    passWhile source isNumberChar rounds
  let numeral := text.filter (· != '_')
  match numberOf? numeral with
  | some value => return some value
  | none =>
      report (.invalidNumber (String.ofList numeral))
      return none

/-- A keyword at the front of the text, and its size. -/
def keywordSize? (s : List Char) : Option (Literal × Nat) :=
  keywords.findSome? fun (word, value) =>
    if word.isPrefixOf s && atBoundary (s.drop word.length) then some (value, byteSize word)
    else none

def keyword : Walk (Option Literal) := do
  match keywordSize? (← remaining source) with
  | some (value, bytes) =>
      advance bytes
      return some value
  | none => return none

/-- Moves on to the next bar outside quotes and parentheses. -/
def recovery (state : Nat × Option Char) : Nat → Walk Unit
  | 0 => failure
  | rounds + 1 => do
      match ← peek source with
      | some c => match skip state c with
        | some next =>
            advance c.utf8Size
            recovery next rounds
        | none => return
      | none => return

/-- An expression is an argument if no fault was met since it began. -/
def nested (chain : Walk Expression) : Walk (Option Argument) := do
  let before ← get
  let expression ← chain
  return if (← get).faults.length = before.faults.length then some (.nested expression) else none

/-- An argument that begins with `c` and is no string. -/
def unquoted (c : Char) (chain : Walk Expression) (rounds : Nat) : Walk (Option Argument) := do
  let second := (← remaining source)[1]?
  if c.isDigit ∨ (c = '-' ∧ second.any Char.isDigit) then
    return (← number source rounds).map .literal
  else match ← keyword source with
    | some value => return some (.literal value)
    | none => nested chain

end Leaves

section

variable {source : String} {quote : Char} {s t text rest : List Char} {rounds : Nat}

theorem reads_path (hrounds : s.length < rounds) :
    Reads source s (path source rounds) (readPath s).outcome := by
  refine Reads.step (reads_takeWhile isPathChar hrounds) ?_
  cases hparse : Path.parse (String.ofList (s.takeWhile isPathChar)) with
  | ok path =>
      rw [readPath_path hparse]
      exact Reads.result path
  | error cause =>
      rw [readPath_error hparse]
      exact reads_fault (.path cause) _

/-- The offset behind the closing quote is that of the rest. -/
theorem quoted?_of_stringTail? (h : stringTail? quote s = some (text, rest)) (offset : Nat) :
    ∃ body, s = body ++ rest ∧ quoted? quote offset s = some (text, offset + byteSize body) := by
  fun_induction stringTail? quote s generalizing text offset with
  | case1 => cases h
  | case2 => cases h
  | case3 c s ih =>
      obtain ⟨⟨text', rest'⟩, htail, heq⟩ := Option.map_eq_some_iff.mp h
      obtain ⟨rfl, rfl⟩ := Prod.mk.inj heq
      obtain ⟨body, rfl, hquoted⟩ := ih htail (offset + '\\'.utf8Size + c.utf8Size)
      refine ⟨'\\' :: c :: body, rfl, ?_⟩
      rw [quoted?, hquoted]
      simp [Nat.add_assoc]
  | case4 s hlast hescape =>
      obtain ⟨rfl, rfl⟩ := Prod.mk.inj (Option.some.inj h)
      refine ⟨[quote], rfl, ?_⟩
      rw [quoted?, if_pos rfl]
      · rfl
      · exact hlast
      · exact hescape
  | case5 c s hlast hescape hquote ih =>
      obtain ⟨⟨text', rest'⟩, htail, heq⟩ := Option.map_eq_some_iff.mp h
      obtain ⟨rfl, rfl⟩ := Prod.mk.inj heq
      obtain ⟨body, rfl, hquoted⟩ := ih htail (offset + c.utf8Size)
      refine ⟨c :: body, rfl, ?_⟩
      rw [quoted?, if_neg hquote, hquoted]
      · simp [Nat.add_assoc]
      · exact hlast
      · exact hescape

theorem quoted?_eq_none (h : stringTail? quote s = none) (offset : Nat) :
    quoted? quote offset s = none := by
  fun_induction stringTail? quote s generalizing offset with
  | case1 => rfl
  | case2 => rfl
  | case3 c s ih =>
      rw [quoted?, ih (Option.map_eq_none_iff.mp h)]
      rfl
  | case4 s hlast => cases h
  | case5 c s hlast hescape hquote ih =>
      rw [quoted?, if_neg hquote, ih (Option.map_eq_none_iff.mp h)]
      · rfl
      · exact hlast
      · exact hescape

theorem reads_string : Reads source (quote :: t) (string source quote)
    (readString source quote t).outcome := by
  refine Reads.step reads_advance_char (Reads.step reads_remaining ?_)
  cases htail : stringTail? quote t with
  | some tail =>
      obtain ⟨text, rest⟩ := tail
      obtain ⟨body, rfl, hquoted⟩ := quoted?_of_stringTail? htail 0
      rw [readString_closed htail, hquoted, Nat.zero_add]
      exact Reads.step (reads_advance body) (Reads.result _)
  | none =>
      rw [readString_unclosed htail, quoted?_eq_none htail 0]
      have hend : IsPlace source (byteSize source.toList) [] :=
        ⟨source.toList, (List.append_nil _).symm, rfl⟩
      exact Reads.step (reads_moveTo hend List.nil_suffix)
        (reads_fault (.unterminatedString source) none)

theorem reads_number (hrounds : s.length < rounds) :
    Reads source s (number source rounds) (readNumber s).outcome := by
  obtain ⟨signs, unsigned, rfl, hsign⟩ : ∃ signs unsigned, s = signs ++ unsigned ∧
      (signs = ['-'] ∨ signs = [] ∧ ∀ t, unsigned ≠ '-' :: t) := by
    by_cases hminus : ∃ t, s = '-' :: t
    · obtain ⟨t, rfl⟩ := hminus
      exact ⟨['-'], t, rfl, Or.inl rfl⟩
    · exact ⟨[], s, rfl, Or.inr ⟨rfl, fun t hs => hminus ⟨t, hs⟩⟩⟩
  have hsigns : Reads source (signs ++ unsigned) (sign source) ((), [], unsigned) := by
    refine Reads.step reads_peek ?_
    rcases hsign with rfl | ⟨rfl, hno⟩
    · exact reads_advance ['-']
    · rw [if_neg]
      · exact Reads.result ()
      · intro hhead
        obtain ⟨t, ht⟩ := List.head?_eq_some_iff.mp hhead
        exact hno t ht
  have hdigits : signs ++ unsigned =
      signs ++ unsigned.takeWhile isNumberChar ++ unsigned.dropWhile isNumberChar := by
    rw [List.append_assoc, List.takeWhile_append_dropWhile]
  have hrest : (signs ++ unsigned).drop
      (signs.length + (unsigned.takeWhile isNumberChar).length) =
        unsigned.dropWhile isNumberChar := by
    rw [← List.length_append, hdigits, List.drop_left]
  have hunsigned : unsigned.length < rounds :=
    (List.suffix_append signs unsigned).length_le.trans_lt hrounds
  refine Reads.step (reads_taking hdigits
    (Reads.step hsigns (reads_passWhile isNumberChar hunsigned))) ?_
  rw [readNumber_parts hsign]
  simp only [hrest]
  cases numberOf? ((signs ++ unsigned.takeWhile isNumberChar).filter (· != '_')) with
  | some value => exact Reads.result _
  | none => exact reads_fault (.invalidNumber _) none

theorem keywordSize?_eq (s : List Char) :
    keywordSize? s = (keyword? s).map fun (value, length) =>
      (value, byteSize (s.take length)) := by
  rw [keywordSize?, keyword?, List.map_findSome?]
  congr 1
  funext entry
  obtain ⟨word, value⟩ := entry
  simp only [Function.comp_apply]
  by_cases hword : (word.isPrefixOf s && atBoundary (s.drop word.length)) = true
  · have hbegins : word <+: s := List.isPrefixOf_iff_prefix.mp (Bool.and_eq_true_iff.mp hword).1
    rw [if_pos hword, if_pos hword, Option.map_some, ← List.prefix_iff_eq_take.mp hbegins]
  · rw [if_neg hword, if_neg hword, Option.map_none]

theorem reads_keyword {value : Literal} {length : Nat} (h : keyword? s = some (value, length)) :
    Reads source s (keyword source) (some value, [], s.drop length) := by
  refine Reads.step reads_remaining ?_
  rw [keywordSize?_eq, h]
  have hadvance : Reads source (s.take length ++ s.drop length)
      (advance (byteSize (s.take length))) ((), [], s.drop length) := reads_advance _
  rw [List.take_append_drop] at hadvance
  exact Reads.step hadvance (Reads.result _)

theorem reads_keyword_none (h : keyword? s = none) :
    Reads source s (keyword source) (none, [], s) := by
  refine Reads.step reads_remaining ?_
  rw [keywordSize?_eq, h]
  exact Reads.result none

theorem reads_recovery (state : Nat × Option Char) (hrounds : s.length < rounds) :
    Reads source s (recovery source state rounds) ((), [], recover state.1 state.2 s) := by
  induction s generalizing state rounds with
  | nil =>
      obtain ⟨rounds, rfl⟩ := Nat.exists_eq_succ_of_ne_zero (Nat.ne_zero_of_lt hrounds)
      exact Reads.step reads_peek (Reads.result ())
  | cons c s ih =>
      obtain ⟨rounds, rfl⟩ := Nat.exists_eq_succ_of_ne_zero (Nat.ne_zero_of_lt hrounds)
      rw [recover_cons]
      refine Reads.step reads_peek ?_
      rw [List.head?_cons]
      cases hskip : skip state c with
      | none =>
          simp only [hskip]
          exact Reads.result ()
      | some next =>
          simp only [hskip]
          exact Reads.step reads_advance_char (ih next (Nat.lt_of_succ_lt_succ hrounds))

theorem reads_nested {chain : Walk Expression} {expression : Expression} {faults : List Fault}
    (h : Reads source s chain (expression, faults, t)) :
    Reads source s (nested chain)
      (if faults.isEmpty then some (.nested expression) else none, faults, t) := by
  intro cursor hcursor
  obtain ⟨last, hwalk, hlast, hfaults⟩ := h cursor hcursor
  refine ⟨last, ?_, hlast, hfaults⟩
  have hclean : last.faults.length = cursor.faults.length ↔ faults.isEmpty = true := by
    simp only [hfaults, List.length_append, List.isEmpty_iff, ← List.length_eq_zero_iff]
    omega
  simp [nested, hwalk, hclean]

section Unquoted

variable {c : Char} {chain : Walk Expression}

theorem getElem?_one (c : Char) (t : List Char) : (c :: t)[1]? = t.head? := by
  rw [List.getElem?_cons_succ, List.head?_eq_getElem?]

theorem reads_unquoted_number (hrounds : (c :: t).length < rounds)
    (hdigit : c.isDigit = true ∨ c = '-' ∧ t.head?.any Char.isDigit = true) :
    Reads source (c :: t) (unquoted source c chain rounds)
      ((readNumber (c :: t)).map (·.map .literal)).outcome := by
  refine Reads.step reads_remaining ?_
  rw [getElem?_one, if_pos hdigit]
  exact Reads.map _ (reads_number hrounds)

variable (hdigit : ¬(c.isDigit = true ∨ c = '-' ∧ t.head?.any Char.isDigit = true))

include hdigit

theorem reads_unquoted_keyword {value : Literal} {length : Nat}
    (hkeyword : keyword? (c :: t) = some (value, length)) :
    Reads source (c :: t) (unquoted source c chain rounds)
      (some (.literal value), [], (c :: t).drop length) := by
  refine Reads.step reads_remaining ?_
  rw [getElem?_one, if_neg hdigit]
  exact Reads.step (reads_keyword hkeyword) (Reads.result _)

theorem reads_unquoted_nested (hkeyword : keyword? (c :: t) = none)
    {expression : Expression} {faults : List Fault}
    (hchain : Reads source (c :: t) chain (expression, faults, rest)) :
    Reads source (c :: t) (unquoted source c chain rounds)
      (if faults.isEmpty then some (.nested expression) else none, faults, rest) := by
  refine Reads.step reads_remaining ?_
  rw [getElem?_one, if_neg hdigit]
  exact Reads.step (reads_keyword_none hkeyword) (reads_nested hchain)

end Unquoted

end

mutual

def chain (source : String) (span : Span) : Nat → Walk Expression
  | 0 => failure
  | rounds + 1 => do
      passWhile source isBlank rounds
      let path ← path source rounds
      let calls ← calls source span rounds
      return ⟨path, calls, span⟩

def calls (source : String) (span : Span) : Nat → Walk (List FormatterCall)
  | 0 => failure
  | rounds + 1 => do
      passWhile source isBlank rounds
      if ← eat source '|' then
        passWhile source isBlank rounds
        match ← call source span rounds with
        | some call => return call :: (← calls source span rounds)
        | none =>
            recovery source (0, none) rounds
            calls source span rounds
      else return []

def call (source : String) (span : Span) : Nat → Walk (Option FormatterCall)
  | 0 => failure
  | rounds + 1 => do
      let name ← taking source (passWhile source isFormatterChar rounds)
      if name.isEmpty then
        report (.missingFormatterName source)
        return none
      else
        passWhile source isBlank rounds
        if ← eat source '(' then
          passWhile source isBlank rounds
          if ← eat source ')' then return some ⟨String.ofList name, []⟩
          else
            let arguments ← arguments source span (String.ofList name) rounds
            return arguments.map fun arguments => ⟨String.ofList name, arguments⟩
        else return some ⟨String.ofList name, []⟩

def arguments (source : String) (span : Span) (formatter : String) :
    Nat → Walk (Option (List Argument))
  | 0 => failure
  | rounds + 1 => do
      match ← argument source span rounds with
      | none => return none
      | some value =>
          passWhile source isBlank rounds
          if ← eat source ',' then
            return (← arguments source span formatter rounds).map (value :: ·)
          else if ← eat source ')' then return some [value]
          else
            report (if ← atEnd source then .unclosedArguments formatter
              else .missingComma formatter)
            return none

def argument (source : String) (span : Span) : Nat → Walk (Option Argument)
  | 0 => failure
  | rounds + 1 => do
      passWhile source isBlank rounds
      match ← peek source with
      | none =>
          report (.missingArgument source)
          return none
      | some c =>
          if c = '"' ∨ c = '\'' then return (← string source c).map .literal
          else unquoted source c (chain source span rounds) rounds

end

/-- A whole tag text. -/
def expression (source : String) (span : Span) (rounds : Nat) : Walk Expression := do
  let chain ← chain source span rounds
  passWhile source isBlank rounds
  if ← atEnd source then return chain
  else
    report (.trailing (!chain.calls.isEmpty) (String.ofList (← remaining source)) source)
    return chain

theorem reads_argument {source : String} {span : Span} {s t : List Char} {c : Char}
    {rounds : Nat} {outcome : Option Argument × List Fault × List Char}
    (hrounds : s.length < rounds) (hc : trimStart s = c :: t) (hquote : ¬(c = '"' ∨ c = '\''))
    (h : Reads source (c :: t) (unquoted source c (chain source span rounds) rounds) outcome) :
    Reads source s (argument source span (rounds + 1)) outcome := by
  have hblanks : Reads source s (passWhile source isBlank rounds) ((), [], trimStart s) :=
    reads_passWhile isBlank hrounds
  rw [hc] at hblanks
  rw [argument]
  refine Reads.step hblanks (Reads.step reads_peek ?_)
  simpa only [List.head?_cons, if_neg hquote] using h

/-- In front of `s` the walk reads this in any number of rounds from a linear one on; `rank`
is that of the reader among those that call each other in front of the same text. -/
def ReadsWithin {α : Type} (source : String) (s : List Char) (rank : Nat) (walk : Nat → Walk α)
    (outcome : α × List Fault × List Char) : Prop :=
  ∀ rounds, 4 * s.length + rank ≤ rounds → Reads source s (walk rounds) outcome

/-- One round is for the reader itself. -/
theorem ReadsWithin.of_next {α : Type} {source : String} {s : List Char} {rank : Nat}
    {walk : Nat → Walk α} {outcome : α × List Fault × List Char}
    (h : ∀ rounds, 4 * s.length + rank ≤ rounds → Reads source s (walk (rounds + 1)) outcome) :
    ReadsWithin source s (rank + 1) walk outcome := by
  intro rounds hrounds
  obtain ⟨rounds, rfl⟩ := Nat.exists_eq_succ_of_ne_zero (Nat.ne_zero_of_lt hrounds)
  exact h rounds (Nat.le_of_succ_le_succ hrounds)

/-- Each walk reads what its reader does. A reader that calls another one in front of the same
text has the higher rank, and a character that was passed is worth four rounds. -/
theorem readers_walk (source : String) (span : Span) :
    (∀ s, ReadsWithin source s 3 (chain source span) (readChain source span s).outcome) ∧
    (∀ s, ReadsWithin source s 2 (calls source span) (readCalls source span s).outcome) ∧
    (∀ s, ReadsWithin source s 2 (call source span) (readCall source span s).outcome) ∧
    (∀ formatter s, ReadsWithin source s 5 (arguments source span formatter)
      (readArguments source span formatter s).outcome) ∧
    (∀ s, ReadsWithin source s 4 (argument source span)
      (readArgument source span s).outcome) := by
  have blanks (s : List Char) (rounds : Nat) (h : s.length < rounds) :
      Reads source s (passWhile source isBlank rounds) ((), [], trimStart s) :=
    reads_passWhile isBlank h
  have trimmed (s : List Char) : (trimStart s).length ≤ s.length :=
    (trimStart_suffix s).length_le
  apply readChain.mutual_induct source span
  case case1 =>
    intro s path _ hcalls
    refine .of_next fun rounds hrounds => ?_
    have htrimmed := trimmed s
    have hpath := path.suffix.length_le
    rw [chain, readChain_step]
    refine Reads.step (blanks s rounds (by omega)) (Reads.bind (reads_path (by omega)) ?_)
    exact Reads.map _ (hcalls rounds (by omega))
  case case2 =>
    intro s t hbar first _ hfirst value hvalue hcall hmore
    refine .of_next fun rounds hrounds => ?_
    have htrimmed := trimmed t
    have hpassed := length_lt_of_trimStart hbar
    rw [Reading.outcome, hvalue] at hcall
    rw [calls, readCalls_call hbar hvalue]
    refine Reads.step (blanks s rounds (by omega)) (reads_eat hbar ?_)
    refine Reads.step (blanks t rounds (by omega)) ?_
    exact Reads.bind (hcall rounds (by omega)) (Reads.map _ (hmore rounds (by omega)))
  case case3 =>
    intro s t hbar first _ hfirst hvalue hsuffix hcall hmore
    refine .of_next fun rounds hrounds => ?_
    have htrimmed := trimmed t
    have hpassed := length_lt_of_trimStart hbar
    have hrecovered := hsuffix.length_le
    rw [Reading.outcome, hvalue] at hcall
    rw [calls, readCalls_malformed hbar hvalue]
    refine Reads.step (blanks s rounds (by omega)) (reads_eat hbar ?_)
    refine Reads.step (blanks t rounds (by omega)) (Reads.bind (hcall rounds (by omega)) ?_)
    have hrecovery : Reads source first.rest (recovery source (0, none) rounds)
        ((), [], recover 0 none first.rest) := reads_recovery (0, none) (by omega)
    exact Reads.step hrecovery (hmore rounds (by omega))
  case case4 =>
    intro s hno
    refine .of_next fun rounds hrounds => ?_
    rw [calls, readCalls_end hno]
    exact Reads.step (blanks s rounds (by omega)) (reads_eat_other hno (Reads.result []))
  case case5 =>
    intro s name rest _ hname
    refine .of_next fun rounds hrounds => ?_
    rw [ofList_isEmpty, List.isEmpty_iff] at hname
    rw [call, readCall_nameless hname]
    refine Reads.step (reads_takeWhile isFormatterChar (by omega)) ?_
    rw [hname, if_pos List.isEmpty_nil]
    exact reads_fault (.missingFormatterName source) none
  case case6 =>
    intro s name rest hwithin hname t hparen _ rest' hclose
    refine .of_next fun rounds hrounds => ?_
    have hrest := hwithin.length_le
    have hpassed := length_lt_of_trimStart hparen
    rw [ofList_isEmpty] at hname
    rw [call, readCall_empty (by simpa using hname) hparen hclose]
    refine Reads.step (reads_takeWhile isFormatterChar (by omega)) ?_
    rw [if_neg hname]
    refine Reads.step (blanks rest rounds (by omega)) (reads_eat hparen ?_)
    exact Reads.step (blanks t rounds (by omega)) (reads_eat hclose (Reads.result _))
  case case7 =>
    intro s name rest hwithin hname t hparen _ hno harguments
    refine .of_next fun rounds hrounds => ?_
    have hrest := hwithin.length_le
    have hpassed := length_lt_of_trimStart hparen
    have htrimmed := trimmed t
    rw [ofList_isEmpty] at hname
    rw [call, readCall_arguments (by simpa using hname) hparen hno]
    refine Reads.step (reads_takeWhile isFormatterChar (by omega)) ?_
    rw [if_neg hname]
    refine Reads.step (blanks rest rounds (by omega)) (reads_eat hparen ?_)
    refine Reads.step (blanks t rounds (by omega)) (reads_eat_other hno ?_)
    exact Reads.map _ (harguments rounds (by omega))
  case case8 =>
    intro s name rest hwithin hname hno
    refine .of_next fun rounds hrounds => ?_
    have hrest := hwithin.length_le
    rw [ofList_isEmpty] at hname
    rw [call, readCall_bare (by simpa using hname) hno]
    refine Reads.step (reads_takeWhile isFormatterChar (by omega)) ?_
    rw [if_neg hname]
    exact Reads.step (blanks rest rounds (by omega)) (reads_eat_other hno (Reads.result _))
  case case9 =>
    intro formatter s first hvalue hargument
    refine .of_next fun rounds hrounds => ?_
    rw [Reading.outcome, hvalue] at hargument
    rw [arguments, readArguments_failed hvalue]
    exact Reads.close (hargument rounds hrounds) (Reads.result _)
  case case10 =>
    intro formatter s first value hvalue t hcomma _ hargument hmore
    refine .of_next fun rounds hrounds => ?_
    have hrest := first.suffix.length_le
    have hpassed := length_lt_of_trimStart hcomma
    rw [Reading.outcome, hvalue] at hargument
    rw [arguments, readArguments_more hvalue hcomma]
    refine Reads.bind (hargument rounds hrounds) ?_
    refine Reads.step (blanks first.rest rounds (by omega)) (reads_eat hcomma ?_)
    exact Reads.map _ (hmore rounds (by omega))
  case case11 =>
    intro formatter s first value hvalue t hclose hargument
    refine .of_next fun rounds hrounds => ?_
    have hrest := first.suffix.length_le
    have hcomma : ∀ t', trimStart first.rest ≠ ',' :: t' := by
      intro t' hcomma
      cases hclose.symm.trans hcomma
    rw [Reading.outcome, hvalue] at hargument
    rw [arguments, readArguments_last hvalue hclose]
    refine Reads.close (hargument rounds hrounds) ?_
    refine Reads.step (blanks first.rest rounds (by omega)) (reads_eat_other hcomma ?_)
    exact reads_eat hclose (Reads.result _)
  case case12 =>
    intro formatter s first value hvalue hcomma hclose hargument
    refine .of_next fun rounds hrounds => ?_
    have hrest := first.suffix.length_le
    rw [Reading.outcome, hvalue] at hargument
    rw [arguments, readArguments_broken hvalue hcomma hclose]
    refine Reads.bind (hargument rounds hrounds) ?_
    refine Reads.step (blanks first.rest rounds (by omega)) (reads_eat_other hcomma ?_)
    exact reads_eat_other hclose (Reads.step reads_atEnd (reads_fault _ none))
  case case13 =>
    intro s hend
    refine .of_next fun rounds hrounds => ?_
    rw [argument, readArgument_end hend]
    refine Reads.step (blanks s rounds (by omega)) ?_
    rw [hend]
    exact Reads.step reads_peek (reads_fault (.missingArgument source) none)
  case case14 =>
    intro s c t hc _ hquote
    refine .of_next fun rounds hrounds => ?_
    rw [argument, readArgument_string hc hquote]
    refine Reads.step (blanks s rounds (by omega)) ?_
    rw [hc]
    refine Reads.step reads_peek ?_
    simp only [List.head?_cons, if_pos hquote]
    exact Reads.map _ reads_string
  case case15 =>
    intro s c t hc _ hquote hdigit
    refine .of_next fun rounds hrounds => ?_
    have htrimmed := trimmed s
    rw [readArgument_number hc hquote hdigit]
    rw [hc] at htrimmed ⊢
    exact reads_argument (by omega) hc hquote (reads_unquoted_number (by omega) hdigit)
  case case16 =>
    intro s c t hc _ hquote hdigit value length hkeyword
    refine .of_next fun rounds hrounds => ?_
    rw [readArgument_keyword hc hquote hdigit hkeyword]
    rw [hc] at hkeyword ⊢
    exact reads_argument (by omega) hc hquote (reads_unquoted_keyword hdigit hkeyword)
  case case17 =>
    intro s c t hc _ hquote hdigit hkeyword hchain
    refine .of_next fun rounds hrounds => ?_
    have htrimmed := trimmed s
    rw [readArgument_nested hc hquote hdigit hkeyword]
    rw [hc] at htrimmed hkeyword hchain ⊢
    refine reads_argument (by omega) hc hquote (reads_unquoted_nested hdigit hkeyword ?_)
    exact hchain rounds (by omega)

/-- The walk through a whole tag text reads what reading the tag returns. -/
theorem reads_expression (source : String) (span : Span) {rounds : Nat}
    (hrounds : 4 * source.toList.length + 3 ≤ rounds) :
    Reads source source.toList (expression source span rounds)
      (let chain := readChain source span source.toList
      (chain.value, chain.faults ++ trailingFaults source chain.value (trimStart chain.rest),
        trimStart chain.rest)) := by
  have hrest := (readChain source span source.toList).suffix.length_le
  refine Reads.bind ((readers_walk source span).1 source.toList rounds hrounds) ?_
  refine Reads.step (reads_passWhile isBlank (by omega)) (Reads.step reads_atEnd ?_)
  rw [← trimStart, trailingFaults]
  cases hend : (trimStart (readChain source span source.toList).rest).isEmpty with
  | true => exact Reads.result _
  | false => exact Reads.step reads_remaining (reads_fault _ _)

/-- Reading an expression ends and stays in bounds. Read by offsets, each of the readers that
call each other comes to an end from every place of every text, and so does recovery: their
recursion goes no deeper than linearly in the length of what is in front. The walk through a
whole text has the result of reading it; it could not have one if a slice were cut inside a
character or past the end. Its offsets never decrease, lie between characters and inside the
text, and if the last of them is not the end of the text an error was reported. -/
theorem reading_ends_in_bounds (raw : String) (span : Span) :
    (Ends raw (chain raw span) ∧ Ends raw (calls raw span) ∧ Ends raw (call raw span) ∧
      (∀ formatter, Ends raw (arguments raw span formatter)) ∧ Ends raw (argument raw span) ∧
      ∀ state, Ends raw (recovery raw state)) ∧
    ∀ rounds ≥ 4 * raw.toList.length + 3, ∃ (value : Expression) (last : Cursor),
      (expression raw span rounds).run .start = some (value, last) ∧
      read raw span = (value, last.faults.map fun fault => ⟨fault, span⟩) ∧
      last.trail.Pairwise (· ≤ ·) ∧
      (∀ offset ∈ last.trail,
        offset ≤ raw.utf8ByteSize ∧ (String.Pos.Raw.mk offset).IsValid raw) ∧
      (last.offset ≠ raw.utf8ByteSize → (read raw span).2 ≠ []) := by
  obtain ⟨hchain, hcalls, hcall, harguments, hargument⟩ := readers_walk raw span
  constructor
  · refine ⟨.of_reads _ fun s rounds hrounds => hchain s rounds (by omega),
      .of_reads _ fun s rounds hrounds => hcalls s rounds (by omega),
      .of_reads _ fun s rounds hrounds => hcall s rounds (by omega),
      fun formatter => .of_reads _ (harguments formatter),
      .of_reads _ fun s rounds hrounds => hargument s rounds (by omega), ?_⟩
    intro state
    exact .of_reads (fun s => ⟨(), [], recover state.1 state.2 s, recover_suffix _ _ s⟩)
      fun s rounds hrounds => reads_recovery state (by omega)
  · intro rounds hrounds
    obtain ⟨last, hrun, hlast, hfaults⟩ :=
      reads_expression raw span hrounds .start (Cursor.start_at raw)
    refine ⟨_, last, hrun, ?_, hlast.ascending_trail, ?_, ?_⟩
    · rw [read, hfaults]
      rfl
    · intro offset hoffset
      have hvalid := hlast.valid_trail offset hoffset
      exact ⟨hvalid.le_rawEndPos, hvalid⟩
    · intro hoffset herrors
      -- where no error was reported nothing is left of the text
      obtain ⟨-, htrailing⟩ := List.append_eq_nil_iff.mp (List.map_eq_nil_iff.mp herrors)
      have hplace := hlast.place
      simp only [trailingFaults_eq_nil_iff.mp htrailing] at hplace
      obtain ⟨front, hsource, hfront⟩ := hplace
      rw [hfront, ← List.append_nil front, ← hsource, byteSize_toList] at hoffset
      exact hoffset rfl

end Stencil.Expression.Walk
