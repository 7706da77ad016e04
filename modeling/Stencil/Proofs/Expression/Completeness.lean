import Mathlib.Data.List.Basic
import Stencil.Proofs.Expression.Grammar
import Stencil.Proofs.Expression.Steps
import Stencil.Proofs.Path.Characters

/-!
The reader finds what the grammar derives. Each part of an expression is read
off the front of a longer text, provided that what follows does not go on with
it, and the reader stops where the part ends, up to white space.
-/

namespace Stencil.Expression

open Text

variable {source formatter : String} {span : Span} {s rest : List Char}

/-- What may follow an argument or a whole expression: neither more of a word
nor another call or list of arguments. -/
structure Follows (rest : List Char) : Prop where
  boundary : atBoundary rest = true
  noBar : ∀ t, trimStart rest ≠ '|' :: t
  noList : ∀ t, trimStart rest ≠ '(' :: t

theorem follows_of_allBlank (h : AllBlank rest) : Follows rest where
  boundary := by
    cases rest with
    | nil => rfl
    | cons c rest => simp [atBoundary, h c (List.mem_cons_self ..)]
  noBar := by simp [trimStart_of_allBlank h]
  noList := by simp [trimStart_of_allBlank h]

/-- White space may stand before a comma or a closing parenthesis. -/
theorem follows_append (rest : List Char) {before : List Char} {c : Char}
    (hbefore : AllBlank before) (hc : c = ',' ∨ c = ')') : Follows (before ++ c :: rest) := by
  have hblank : isBlank c = false := by rcases hc with rfl | rfl <;> rfl
  have htrim : trimStart (before ++ c :: rest) = c :: rest := by
    rw [trimStart_append hbefore, trimStart_cons hblank]
  refine ⟨?_, ?_, ?_⟩
  · cases before with
    | nil => rcases hc with rfl | rfl <;> rfl
    | cons d before => simp [atBoundary, hbefore d (List.mem_cons_self ..)]
  · rw [htrim]
    rcases hc with rfl | rfl <;> simp
  · rw [htrim]
    rcases hc with rfl | rfl <;> simp

/-- A character after which no word goes on is outside every class of words. -/
theorem not_mem_of_atBoundary {p : Char → Bool} (hrest : atBoundary rest = true)
    (hblank : ∀ c, isBlank c = true → p c = false) (hcomma : p ',' = false)
    (hparen : p ')' = false) : ∀ c ∈ rest.head?, p c = false := by
  intro c hc
  cases rest with
  | nil => cases hc
  | cons d rest =>
      obtain rfl : d = c := by simpa using hc
      simp only [atBoundary, Bool.or_eq_true, beq_iff_eq] at hrest
      rcases hrest with (hd | rfl) | rfl
      · exact hblank d hd
      · exact hcomma
      · exact hparen

theorem not_isPathChar_of_isBlank (c : Char) (h : isBlank c = true) : isPathChar c = false := by
  cases hpath : isPathChar c with
  | false => rfl
  | true => exact absurd h (by simp [not_isBlank_of_isPathChar hpath])

theorem isPathChar_of_isFormatterChar {c : Char} (h : isFormatterChar c = true) :
    isPathChar c = true := by
  simp only [isFormatterChar, Bool.or_eq_true] at h
  simp only [isPathChar, isNameChar, Bool.or_eq_true]
  rcases h with h | h
  · simp [h]
  · simp [h]

theorem not_isFormatterChar_of_isBlank (c : Char) (h : isBlank c = true) :
    isFormatterChar c = false := by
  cases hformatter : isFormatterChar c with
  | false => rfl
  | true =>
      exact absurd (isPathChar_of_isFormatterChar hformatter)
        (by simp [not_isPathChar_of_isBlank c h])

theorem isPathChar_of_isNumberChar {c : Char} (h : isNumberChar c = true) :
    isPathChar c = true := by
  simp only [isNumberChar, Bool.or_eq_true, beq_iff_eq] at h
  rcases h with (((hdigit | rfl) | rfl) | rfl) | rfl
  · simp [isPathChar, isNameChar_of_isDigit hdigit]
  all_goals rfl

theorem not_isNumberChar_of_isBlank (c : Char) (h : isBlank c = true) :
    isNumberChar c = false := by
  cases hnumber : isNumberChar c with
  | false => rfl
  | true =>
      exact absurd (isPathChar_of_isNumberChar hnumber) (by simp [not_isPathChar_of_isBlank c h])

theorem stringTail?_quoted {quote : Char} {text : List Char} (hquote : quote ≠ '\\')
    (quoted : QuotedText quote s text) :
    stringTail? quote (s ++ quote :: rest) = some (text, rest) := by
  have hnormal {c : Char} (t : List Char) (hc : c ≠ '\\') :
      stringTail? quote (c :: t) = if c = quote then some ([], t)
        else (stringTail? quote t).map fun tail => (c :: tail.1, tail.2) := by
    rw [stringTail?]
    · exact fun h => absurd h hc
    · exact fun _ _ h => absurd h hc
  induction quoted with
  | nil => rw [List.nil_append, hnormal rest hquote, if_pos rfl]
  | plain hplain hescape more ih =>
      rw [List.cons_append, hnormal _ hescape, if_neg hplain, ih]
      rfl
  | escaped c more ih =>
      rw [List.cons_append, List.cons_append, stringTail?, ih]
      rfl

theorem readString_quoted {quote : Char} {text : List Char} (hquote : quote = '"' ∨ quote = '\'')
    (quoted : QuotedText quote s text) :
    (readString source quote (s ++ quote :: rest)).outcome =
      (some (.string (String.ofList text)), [], rest) := by
  have hescape : quote ≠ '\\' := by rcases hquote with rfl | rfl <;> decide
  exact readString_closed (stringTail?_quoted hescape quoted)

/-- A number is its sign and the number characters after it. -/
theorem readNumber_parts {sign unsigned : List Char}
    (hsign : sign = ['-'] ∨ sign = [] ∧ ∀ t, unsigned ≠ '-' :: t) :
    (readNumber (sign ++ unsigned)).outcome =
      let digits := unsigned.takeWhile isNumberChar
      let numeral := (sign ++ digits).filter (· != '_')
      (numberOf? numeral, if (numberOf? numeral).isNone then
        [.invalidNumber (String.ofList numeral)] else [],
        (sign ++ unsigned).drop (sign.length + digits.length)) := by
  rcases hsign with rfl | ⟨rfl, hno⟩
  · rfl
  · rw [List.nil_append]
    unfold readNumber
    split
    rename_i sign rest hparts
    split at hparts
    · rename_i t
      exact absurd rfl (hno t)
    · obtain ⟨rfl, rfl⟩ := Prod.mk.inj hparts
      rfl

theorem readNumber_number {value : Literal} (number : NumberText s value)
    (hrest : atBoundary rest = true) :
    (readNumber (s ++ rest)).outcome = (some value, [], rest) := by
  have hstop : ∀ c ∈ rest.head?, isNumberChar c = false :=
    not_mem_of_atBoundary hrest not_isNumberChar_of_isBlank rfl rfl
  cases number with
  | mk hsign hstarts hdigits hvalue =>
      rename_i sign digits
      have htake : (digits ++ rest).takeWhile isNumberChar = digits :=
        takeWhile_append_stop hdigits hstop
      have hparts : sign = ['-'] ∨ sign = [] ∧ ∀ t, digits ++ rest ≠ '-' :: t := by
        rcases hsign with rfl | rfl
        · right
          refine ⟨rfl, ?_⟩
          intro t hcons
          cases digits with
          | nil => cases hstarts
          | cons c digits =>
              obtain rfl := (List.cons.inj hcons).1
              exact absurd (hdigits '-' (List.mem_cons_self ..)) (by decide)
        · exact Or.inl rfl
      rw [List.append_assoc, readNumber_parts hparts]
      simp only [htake, hvalue]
      rw [← List.length_append, ← List.append_assoc, List.drop_left]
      rfl

/-- Whether a word ends is settled by the character after it. -/
theorem atBoundary_append (hrest : atBoundary rest = true) (s : List Char) :
    atBoundary (s ++ rest) = atBoundary s := by
  cases s with
  | nil => rw [List.nil_append, hrest]; rfl
  | cons c s => rfl

/-- A word of the keywords does not go on behind a text where words end. -/
theorem isWord_append {word : List Char} (hword : ∀ c ∈ word, atBoundary [c] = false)
    (hrest : atBoundary rest = true) :
    (word.isPrefixOf (s ++ rest) && atBoundary ((s ++ rest).drop word.length)) =
      (word.isPrefixOf s && atBoundary (s.drop word.length)) := by
  rcases Nat.lt_or_ge s.length word.length with hshort | hlong
  · have hleft : word.isPrefixOf (s ++ rest) = false := by
      rw [Bool.eq_false_iff, ne_eq, List.isPrefixOf_iff_prefix]
      intro hbegins
      have hs : s <+: word :=
        List.prefix_of_prefix_length_le (List.prefix_append s rest) hbegins (by omega)
      obtain ⟨more, rfl⟩ := hs
      have hmore : more <+: rest := (List.prefix_append_right_inj s).mp hbegins
      obtain ⟨after, rfl⟩ := hmore
      cases more with
      | nil => simp at hshort
      | cons c more =>
          have hinside := hword c (by simp)
          have hend : atBoundary [c] = true := hrest
          rw [hinside] at hend
          cases hend
    have hright : word.isPrefixOf s = false := by
      rw [Bool.eq_false_iff, ne_eq, List.isPrefixOf_iff_prefix]
      intro hbegins
      have hle := hbegins.length_le
      omega
    rw [hleft, hright]
    rfl
  · have hbegins : word.isPrefixOf (s ++ rest) = word.isPrefixOf s := by
      rw [Bool.eq_iff_iff, List.isPrefixOf_iff_prefix, List.isPrefixOf_iff_prefix,
        List.prefix_iff_eq_take, List.prefix_iff_eq_take,
        List.take_append_of_le_length hlong]
    rw [hbegins, List.drop_append_of_le_length hlong, atBoundary_append hrest]

theorem keyword?_append (hrest : atBoundary rest = true) :
    keyword? (s ++ rest) = keyword? s := by
  have htrue : ∀ c ∈ ['t', 'r', 'u', 'e'], atBoundary [c] = false :=
    forall_of_any_eq_false rfl
  have hfalse : ∀ c ∈ ['f', 'a', 'l', 's', 'e'], atBoundary [c] = false :=
    forall_of_any_eq_false rfl
  have hnull : ∀ c ∈ ['n', 'u', 'l', 'l'], atBoundary [c] = false :=
    forall_of_any_eq_false rfl
  simp only [keyword?, keywords, List.findSome?_cons, List.findSome?_nil,
    isWord_append htrue hrest, isWord_append hfalse hrest, isWord_append hnull hrest]

/-- A keyword is found in front of a text where words end. -/
theorem keyword?_keyword {word : List Char} {value : Literal} (hmem : (word, value) ∈ keywords)
    (hrest : atBoundary rest = true) :
    keyword? (word ++ rest) = some (value, word.length) := by
  rw [keyword?_append hrest]
  simp only [keywords, List.mem_cons, Prod.mk.injEq, List.not_mem_nil, or_false] at hmem
  rcases hmem with ⟨rfl, rfl⟩ | ⟨rfl, rfl⟩ | ⟨rfl, rfl⟩ <;> rfl

theorem startsNumber_append (hs : s ≠ []) (hrest : atBoundary rest = true) :
    startsNumber (s ++ rest) = startsNumber s := by
  cases s with
  | nil => exact absurd rfl hs
  | cons c s =>
      cases s with
      | nil =>
          have hstop : ∀ d ∈ rest.head?, d.isDigit = false := by
            refine not_mem_of_atBoundary hrest ?_ rfl rfl
            intro d hd
            have hnumber := not_isNumberChar_of_isBlank d hd
            simp only [isNumberChar, Bool.or_eq_false_iff] at hnumber
            exact hnumber.1.1.1.1
          cases rest with
          | nil => rfl
          | cons d rest => simp [startsNumber, hstop d rfl]
      | cons d s => rfl

theorem ChainText.head {expression : Expression} (h : ChainText span s expression) :
    ∃ c t, s = c :: t ∧ isPathChar c = true := by
  cases h with
  | mk hname hchars hpath more =>
      obtain ⟨c, t, rfl⟩ := List.exists_cons_of_ne_nil hname
      exact ⟨c, _, rfl, hchars c (List.mem_cons_self ..)⟩

theorem IsIdentifier.head {name : List Char} (h : IsIdentifier name) :
    ∃ c t, name = c :: t ∧ isBlank c = false := by
  obtain ⟨c, t, rfl⟩ := List.exists_cons_of_ne_nil h.nonempty
  refine ⟨c, t, rfl, ?_⟩
  have hchar := h.chars c (List.mem_cons_self ..)
  exact not_isBlank_of_isPathChar (isPathChar_of_isFormatterChar hchar)

theorem CallText.head {call : FormatterCall} (h : CallText span s call) :
    ∃ c t, s = c :: t ∧ isBlank c = false := by
  cases h with
  | bare hname => exact hname.head
  | empty hname | arguments hname =>
      obtain ⟨c, t, rfl, hblank⟩ := hname.head
      exact ⟨c, _, rfl, hblank⟩

/-- The characters that arguments start with. -/
def opensArgument (c : Char) : Bool :=
  c == '"' || c == '\'' || isPathChar c

theorem opensArgument_of_isPathChar {c : Char} (h : isPathChar c = true) :
    opensArgument c = true := by
  rw [opensArgument, h, Bool.or_true]

theorem not_isBlank_of_opensArgument {c : Char} (h : opensArgument c = true) :
    isBlank c = false := by
  simp only [opensArgument, Bool.or_eq_true, beq_iff_eq] at h
  rcases h with (rfl | rfl) | hpath
  · rfl
  · rfl
  · exact not_isBlank_of_isPathChar hpath

theorem ne_of_opensArgument {c d : Char} (h : opensArgument c = true)
    (hd : opensArgument d = false) : c ≠ d := by
  rintro rfl
  rw [h] at hd
  cases hd

theorem NumberText.chars {value : Literal} (h : NumberText s value) :
    ∀ c ∈ s, isPathChar c = true := by
  cases h with
  | mk hsign hstarts hdigits hvalue =>
      intro c hc
      rcases List.mem_append.mp hc with hmem | hmem
      · rcases hsign with rfl | rfl
        · cases hmem
        · rw [List.mem_singleton.mp hmem]
          rfl
      · exact isPathChar_of_isNumberChar (hdigits c hmem)

theorem NumberText.head {value : Literal} (h : NumberText s value) :
    ∃ c t, s = c :: t ∧ isPathChar c = true := by
  have hne : s ≠ [] := by
    obtain ⟨-, hstarts, -, -⟩ := h
    intro hnil
    rw [hnil] at hstarts
    cases hstarts
  obtain ⟨c, t, rfl⟩ := List.exists_cons_of_ne_nil hne
  exact ⟨c, t, rfl, h.chars c (List.mem_cons_self ..)⟩

theorem LiteralText.head {value : Literal} (h : LiteralText s value) :
    ∃ c t, s = c :: t ∧ opensArgument c = true := by
  cases h with
  | string hquote quoted =>
      rcases hquote with rfl | rfl
      · exact ⟨_, _, rfl, rfl⟩
      · exact ⟨_, _, rfl, rfl⟩
  | number number =>
      obtain ⟨c, t, hs, hpath⟩ := number.head
      exact ⟨c, t, hs, opensArgument_of_isPathChar hpath⟩
  | keyword hmem =>
      simp only [keywords, List.mem_cons, Prod.mk.injEq, List.not_mem_nil, or_false] at hmem
      rcases hmem with ⟨rfl, rfl⟩ | ⟨rfl, rfl⟩ | ⟨rfl, rfl⟩
      all_goals exact ⟨_, _, rfl, rfl⟩

theorem ArgumentText.head {argument : Argument} (h : ArgumentText span s argument) :
    ∃ c t, s = c :: t ∧ opensArgument c = true := by
  cases h with
  | literal text => exact text.head
  | nested text hstart =>
      obtain ⟨c, t, rfl, hpath⟩ := text.head
      exact ⟨c, t, rfl, opensArgument_of_isPathChar hpath⟩

theorem ArgumentsText.head {arguments : List Argument} (h : ArgumentsText span s arguments) :
    ∃ c t, s = c :: t ∧ opensArgument c = true := by
  cases h with
  | last only => exact only.head
  | cons first =>
      obtain ⟨c, t, rfl, hc⟩ := first.head
      exact ⟨c, _, rfl, hc⟩

theorem CallText.last {call : FormatterCall} (h : CallText span s call) :
    ∀ c ∈ s.getLast?, isPathChar c = true ∨ c = ')' := by
  intro c hc
  cases h with
  | bare hname =>
      exact Or.inl (isPathChar_of_isFormatterChar
        (hname.chars c (List.mem_of_mem_getLast? hc)))
  | empty | arguments =>
      right
      simp only [← List.append_assoc, ← List.cons_append] at hc
      rw [List.getLast?_concat] at hc
      exact (Option.some.inj hc).symm

theorem CallsText.last {span : Span} {s : List Char} {calls : List FormatterCall}
    (h : CallsText span s calls) : ∀ c ∈ s.getLast?, isPathChar c = true ∨ c = ')' := by
  intro c hc
  cases h with
  | nil => cases hc
  | cons hbefore hafter first more =>
      rename_i before after t tail call calls
      have hhead : t ≠ [] := by
        obtain ⟨d, u, rfl, -⟩ := first.head
        simp
      have happend : before ++ '|' :: (after ++ (t ++ tail)) =
          (before ++ '|' :: (after ++ t)) ++ tail := by simp
      rw [happend] at hc
      by_cases htail : tail = []
      · rw [htail, List.append_nil, ← List.cons_append, ← List.append_assoc,
          List.getLast?_append_of_ne_nil _ hhead] at hc
        exact first.last c hc
      · rw [List.getLast?_append_of_ne_nil _ htail] at hc
        exact CallsText.last more c hc

/-- An expression ends in a name or in a closing parenthesis. -/
theorem ChainText.last {expression : Expression} (h : ChainText span s expression) :
    ∀ c ∈ s.getLast?, isPathChar c = true ∨ c = ')' := by
  intro c hc
  cases h with
  | mk hname hchars hpath more =>
      rename_i path name tail calls
      by_cases htail : tail = []
      · rw [htail, List.append_nil] at hc
        exact Or.inl (hchars c (List.mem_of_mem_getLast? hc))
      · rw [List.getLast?_append_of_ne_nil _ htail] at hc
        exact more.last c hc

/-- What may follow a call: neither more of a word nor a list of arguments. -/
structure EndsCall (rest : List Char) : Prop where
  boundary : ∀ c ∈ rest.head?, isPathChar c = false
  noList : ∀ t, trimStart rest ≠ '(' :: t

theorem EndsCall.endsIdentifier (h : EndsCall rest) :
    ∀ c ∈ rest.head?, isFormatterChar c = false := by
  intro c hc
  rw [Bool.eq_false_iff]
  intro hformatter
  have hpath := isPathChar_of_isFormatterChar hformatter
  rw [h.boundary c hc] at hpath
  cases hpath

theorem Follows.endsCall (h : Follows rest) : EndsCall rest :=
  ⟨not_mem_of_atBoundary h.boundary not_isPathChar_of_isBlank rfl rfl, h.noList⟩

/-- White space may stand before the bar of another call. -/
theorem endsCall_bar {before : List Char} (hbefore : AllBlank before) (t : List Char) :
    EndsCall (before ++ '|' :: t) := by
  constructor
  · intro c hc
    cases before with
    | nil =>
        obtain rfl : '|' = c := by simpa using hc
        rfl
    | cons d before =>
        obtain rfl : d = c := by simpa using hc
        exact not_isPathChar_of_isBlank d (hbefore d (List.mem_cons_self ..))
  · intro u
    rw [trimStart_append hbefore, trimStart_cons rfl]
    simp

theorem endsName {before : List Char} (hbefore : AllBlank before) :
    ∀ c ∈ (before ++ '(' :: rest).head?, isFormatterChar c = false := by
  intro c hc
  cases before with
  | nil =>
      obtain rfl : '(' = c := by simpa using hc
      rfl
  | cons d before =>
      obtain rfl : d = c := by simpa using hc
      exact not_isFormatterChar_of_isBlank d (hbefore d (List.mem_cons_self ..))

theorem CallsText.endsCall {calls : List FormatterCall} (h : CallsText span s calls)
    (hrest : EndsCall rest) : EndsCall (s ++ rest) := by
  cases h with
  | nil => exact hrest
  | cons hbefore =>
      rw [List.append_assoc, List.cons_append]
      exact endsCall_bar hbefore _

/-- The calls that are read do not depend on the white space in front. -/
theorem readCalls_congr (source : String) (span : Span) {t : List Char}
    (h : trimStart s = trimStart t) :
    (readCalls source span s).outcome = (readCalls source span t).outcome := by
  by_cases hbar : ∃ u, trimStart t = '|' :: u
  · obtain ⟨u, ht⟩ := hbar
    have hs := h.trans ht
    cases hcall : (readCall source span (trimStart u)).value with
    | none => rw [readCalls_malformed hs hcall, readCalls_malformed ht hcall]
    | some call => rw [readCalls_call hs hcall, readCalls_call ht hcall]
  · have ht : ∀ u, trimStart t ≠ '|' :: u := fun u hu => hbar ⟨u, hu⟩
    have hs : ∀ u, trimStart s ≠ '|' :: u := fun u hu => ht u (h.symm.trans hu)
    rw [readCalls_end hs, readCalls_end ht, h]

theorem readArgument_literal {value : Literal} {before : List Char} (text : LiteralText s value)
    (hbefore : AllBlank before) (hrest : atBoundary rest = true) :
    (readArgument source span (before ++ (s ++ rest))).outcome =
      (some (.literal value), [], rest) := by
  obtain ⟨c, t, hs, hopens⟩ := text.head
  have htrim : trimStart (before ++ (s ++ rest)) = s ++ rest := by
    rw [trimStart_append hbefore, hs, List.cons_append,
      trimStart_cons (not_isBlank_of_opensArgument hopens)]
  have hcons : trimStart (before ++ (s ++ rest)) = c :: (t ++ rest) := by
    rw [htrim, hs, List.cons_append]
  cases text with
  | string hquote quoted =>
      rename_i quote body text
      obtain ⟨rfl, rfl⟩ := List.cons.inj hs
      rw [List.append_assoc, List.singleton_append] at hcons
      have houtcome : (readString source quote (body ++ quote :: rest)).outcome =
          (some (.string (String.ofList text)), [], rest) := readString_quoted hquote quoted
      obtain ⟨hvalue, hfaults, hafter⟩ := Reading.outcome_iff.mp houtcome
      rw [readArgument_string hcons hquote]
      simp only [hvalue, hfaults, hafter, Option.map_some]
  | number number =>
      have hstarts : startsNumber s = true := by
        cases number with
        | mk hsign hstarts hdigits hvalue => exact hstarts
      have hne : s ≠ [] := by simp [hs]
      have hfirst := startsNumber_append hne hrest
      rw [hstarts, hs] at hfirst
      simp only [List.cons_append, startsNumber, Bool.or_eq_true, Bool.and_eq_true,
        beq_iff_eq] at hfirst
      have hquote : ¬(c = '"' ∨ c = '\'') := by
        rintro (rfl | rfl)
        · simp at hfirst
        · simp at hfirst
      obtain ⟨hvalue, hfaults, hafter⟩ := Reading.outcome_iff.mp
        (readNumber_number number hrest)
      rw [readArgument_number hcons hquote hfirst, htrim]
      simp only [hvalue, hfaults, hafter, Option.map_some]
  | keyword hmem =>
      have hkeyword := keyword?_keyword hmem hrest
      rw [← htrim] at hkeyword
      have hletter : ¬(c = '"' ∨ c = '\'') ∧ c.isDigit = false ∧ c ≠ '-' := by
        simp only [keywords, List.mem_cons, Prod.mk.injEq, List.not_mem_nil, or_false] at hmem
        rcases hmem with ⟨rfl, -⟩ | ⟨rfl, -⟩ | ⟨rfl, -⟩
        all_goals
          obtain ⟨rfl, -⟩ := List.cons.inj hs
          decide
      obtain ⟨hquote, hdigit, hminus⟩ := hletter
      rw [readArgument_keyword hcons hquote (by simp [hdigit, hminus]) hkeyword, htrim,
        List.drop_left]

/-- A text that starts no literal is read as an expression. -/
theorem StartsNoLiteral.reads (source : String) {span : Span} {s t rest before : List Char}
    {c : Char} (h : StartsNoLiteral s) (hs : s = c :: t) (hpath : isPathChar c = true)
    (hbefore : AllBlank before) (hrest : atBoundary rest = true) :
    (readArgument source span (before ++ (s ++ rest))).outcome =
      let chain := readChain source span (s ++ rest)
      (if chain.faults.isEmpty then some (.nested chain.value) else none, chain.faults,
        chain.rest) := by
  have htrim : trimStart (before ++ (s ++ rest)) = s ++ rest := by
    rw [trimStart_append hbefore, hs, List.cons_append,
      trimStart_cons (not_isBlank_of_isPathChar hpath)]
  have hcons : trimStart (before ++ (s ++ rest)) = c :: (t ++ rest) := by
    rw [htrim, hs, List.cons_append]
  have hquote : ¬(c = '"' ∨ c = '\'') := by
    rintro (rfl | rfl)
    · cases hpath
    · cases hpath
  have hdigit : ¬(c.isDigit = true ∨ c = '-' ∧ (t ++ rest).head?.any Char.isDigit = true) := by
    have hnumber := startsNumber_append (s := s) (by simp [hs]) hrest
    rw [h.number, hs] at hnumber
    simpa [startsNumber] using hnumber
  have hkeyword : keyword? (trimStart (before ++ (s ++ rest))) = none := by
    rw [htrim, keyword?_append hrest, h.keyword]
  rw [readArgument_nested hcons hquote hdigit hkeyword, htrim]

/-- The arguments of a call are read behind its opening parenthesis. -/
theorem readCall_list (source : String) (span : Span) {name before inside s t : List Char}
    {c : Char} (hname : IsIdentifier name) (hbefore : AllBlank before)
    (hinside : AllBlank inside) (hs : s = c :: t) (hopens : opensArgument c = true) :
    (readCall source span (name ++ (before ++ '(' :: (inside ++ s)))).outcome =
      let arguments := readArguments source span (String.ofList name) s
      (arguments.value.map fun values => ⟨String.ofList name, values⟩, arguments.faults,
        arguments.rest) := by
  have hstop : ∀ c ∈ (before ++ '(' :: (inside ++ s)).head?, isFormatterChar c = false :=
    endsName hbefore
  have htake := takeWhile_append_stop hname.chars hstop
  have hdrop := dropWhile_append_stop hname.chars hstop
  have hparen : trimStart (before ++ '(' :: (inside ++ s)) = '(' :: (inside ++ s) := by
    rw [trimStart_append hbefore, trimStart_cons rfl]
  have hlist : trimStart (inside ++ s) = s := by
    rw [trimStart_append hinside, hs, trimStart_cons (not_isBlank_of_opensArgument hopens)]
  have hopen : ∀ rest, trimStart (inside ++ s) ≠ ')' :: rest := by
    intro rest hrest
    rw [hlist, hs] at hrest
    exact ne_of_opensArgument hopens rfl (List.cons.inj hrest).1
  rw [← hdrop] at hparen
  rw [readCall_arguments (by rw [htake]; exact hname.nonempty) hparen hopen, htake, hlist]

/-- A chain does not go on in what follows an expression. -/
theorem Follows.noCalls (h : Follows rest) (source : String) (span : Span)
    (expression : Expression) :
    let more := readCalls source span rest
    ({ expression with calls := expression.calls ++ more.value }, more.faults, more.rest) =
      (expression, ([] : List Fault), trimStart rest) := by
  have hnone : (readCalls source span rest).outcome = ([], [], trimStart rest) :=
    readCalls_end h.noBar
  obtain ⟨hvalue, hfaults, hrest⟩ := Reading.outcome_iff.mp hnone
  cases expression
  simp only [hvalue, hfaults, hrest, List.append_nil]

mutual

/-- A derived chain is read, and calls that go on behind it are calls of the chain. -/
theorem ChainText.readsOn (source : String) {span : Span} {s rest : List Char}
    {expression : Expression} (h : ChainText span s expression) (hrest : EndsCall rest) :
    (readChain source span (s ++ rest)).outcome =
      let more := readCalls source span rest
      ({ expression with calls := expression.calls ++ more.value }, more.faults, more.rest) := by
  cases h with
  | mk hname hchars hpath more =>
      rename_i path name tail calls
      have hstop := (more.endsCall hrest).boundary
      have hfirst : trimStart (name ++ (tail ++ rest)) = name ++ (tail ++ rest) := by
        obtain ⟨c, t, rfl⟩ := List.exists_cons_of_ne_nil hname
        exact trimStart_cons (not_isBlank_of_isPathChar (hchars c (List.mem_cons_self ..)))
      have htake := takeWhile_append_stop hchars hstop
      rw [← htake] at hpath
      obtain ⟨hvalue, hfaults, hafter⟩ := Reading.outcome_iff.mp (readPath_path hpath)
      rw [dropWhile_append_stop hchars hstop] at hafter
      obtain ⟨hcalls, hcallFaults, hcallRest⟩ := Reading.outcome_iff.mp
        (CallsText.readsOn source more hrest)
      rw [List.append_assoc, readChain_step, hfirst]
      simp only [hvalue, hfaults]
      rw [hafter, hcalls, hcallFaults, hcallRest]
      rfl

theorem CallsText.readsOn (source : String) {span : Span} {s rest : List Char}
    {calls : List FormatterCall} (h : CallsText span s calls) (hrest : EndsCall rest) :
    (readCalls source span (s ++ rest)).outcome =
      let more := readCalls source span rest
      (calls ++ more.value, more.faults, more.rest) := by
  cases h with
  | nil => rfl
  | cons hbefore hafter first more =>
      rename_i before after t tail call calls
      have hbar : trimStart (before ++ '|' :: (after ++ (t ++ tail)) ++ rest) =
          '|' :: (after ++ (t ++ (tail ++ rest))) := by
        rw [List.append_assoc, trimStart_append hbefore, List.cons_append, trimStart_cons rfl]
        simp only [List.append_assoc]
      have hcall : trimStart (after ++ (t ++ (tail ++ rest))) = t ++ (tail ++ rest) := by
        obtain ⟨c, u, rfl, hblank⟩ := first.head
        rw [trimStart_append hafter, List.cons_append, trimStart_cons hblank]
      obtain ⟨rest', houtcome, hsame⟩ := CallText.reads source first (more.endsCall hrest)
      obtain ⟨hvalue, hfaults, hcallRest⟩ := Reading.outcome_iff.mp houtcome
      have hmore := readCalls_congr source span hsame
      rw [CallsText.readsOn source more hrest] at hmore
      obtain ⟨hcalls, hcallFaults, hlast⟩ := Reading.outcome_iff.mp hmore
      rw [← hcall] at hvalue hfaults hcallRest
      rw [readCalls_call hbar hvalue]
      simp only [hfaults]
      rw [hcallRest, hcalls, hcallFaults, hlast]
      rfl

theorem CallText.reads (source : String) {span : Span} {s rest : List Char}
    {call : FormatterCall} (h : CallText span s call) (hrest : EndsCall rest) :
    ∃ rest', (readCall source span (s ++ rest)).outcome = (some call, [], rest') ∧
      trimStart rest' = trimStart rest := by
  cases h with
  | bare hname =>
      have htake := takeWhile_append_stop hname.chars hrest.endsIdentifier
      have hdrop := dropWhile_append_stop hname.chars hrest.endsIdentifier
      refine ⟨trimStart rest, ?_, trimStart_trimStart rest⟩
      rw [readCall_bare (by rw [htake]; exact hname.nonempty) (by rw [hdrop]; exact hrest.noList),
        htake, hdrop]
  | empty hname hbefore hinside =>
      rename_i name before inside
      have hstop : ∀ c ∈ (before ++ '(' :: (inside ++ ')' :: rest)).head?,
          isFormatterChar c = false := endsName hbefore
      have htake := takeWhile_append_stop hname.chars hstop
      have hdrop := dropWhile_append_stop hname.chars hstop
      have hparen : trimStart (before ++ '(' :: (inside ++ ')' :: rest)) =
          '(' :: (inside ++ ')' :: rest) := by
        rw [trimStart_append hbefore, trimStart_cons rfl]
      have hclose : trimStart (inside ++ ')' :: rest) = ')' :: rest := by
        rw [trimStart_append hinside, trimStart_cons rfl]
      rw [← hdrop] at hparen
      refine ⟨rest, ?_, rfl⟩
      have happend : name ++ (before ++ '(' :: (inside ++ [')'])) ++ rest =
          name ++ (before ++ '(' :: (inside ++ ')' :: rest)) := by simp
      rw [happend, readCall_empty (by rw [htake]; exact hname.nonempty) hparen hclose, htake]
  | arguments hname hbefore hinside list hafter =>
      rename_i name before inside t after arguments
      obtain ⟨c, u, ht, hopens⟩ := list.head
      obtain ⟨hvalue, hfaults, hlast⟩ := Reading.outcome_iff.mp
        (ArgumentsText.reads source (String.ofList name) rest list allBlank_nil hafter)
      rw [List.nil_append] at hvalue hfaults hlast
      refine ⟨rest, ?_, rfl⟩
      have happend : name ++ (before ++ '(' :: (inside ++ (t ++ (after ++ [')'])))) ++ rest =
          name ++ (before ++ '(' :: (inside ++ (t ++ (after ++ ')' :: rest)))) := by simp
      rw [happend, readCall_list source span hname hbefore hinside (by rw [ht]; rfl) hopens]
      simp only [hvalue, hfaults, hlast, Option.map_some]

theorem ArgumentsText.reads (source formatter : String) {span : Span} (rest : List Char)
    {s : List Char}
    {arguments : List Argument} {before after : List Char}
    (h : ArgumentsText span s arguments) (hbefore : AllBlank before) (hafter : AllBlank after) :
    (readArguments source span formatter (before ++ (s ++ (after ++ ')' :: rest)))).outcome =
      (some arguments, [], rest) := by
  cases h with
  | last only =>
      obtain ⟨rest', houtcome, hsame⟩ := ArgumentText.reads source only hbefore
        (follows_append rest hafter (Or.inr rfl))
      obtain ⟨hvalue, hfaults, hlast⟩ := Reading.outcome_iff.mp houtcome
      rw [trimStart_append hafter, trimStart_cons rfl, ← hlast] at hsame
      rw [readArguments_last hvalue hsame, hfaults]
  | cons first hbefore' hafter' more =>
      rename_i t before' after' tail argument arguments
      obtain ⟨rest', houtcome, hsame⟩ := ArgumentText.reads source first hbefore
        (follows_append (after' ++ (tail ++ (after ++ ')' :: rest))) hbefore'
          (Or.inl rfl))
      obtain ⟨hvalue, hfaults, hlast⟩ := Reading.outcome_iff.mp houtcome
      rw [trimStart_append hbefore', trimStart_cons rfl, ← hlast] at hsame
      obtain ⟨hmore, hmoreFaults, hmoreRest⟩ := Reading.outcome_iff.mp
        (ArgumentsText.reads source formatter rest more hafter' hafter)
      have happend :
          before ++ (t ++ (before' ++ ',' :: (after' ++ tail)) ++ (after ++ ')' :: rest)) =
            before ++ (t ++ (before' ++ ',' :: (after' ++ (tail ++ (after ++ ')' :: rest))))) := by
        simp
      rw [happend, readArguments_more hvalue hsame, hfaults]
      simp only [hmore, hmoreFaults, hmoreRest, Option.map_some]
      rfl

theorem ArgumentText.reads (source : String) {span : Span} {s rest : List Char}
    {argument : Argument} {before : List Char}
    (h : ArgumentText span s argument) (hbefore : AllBlank before) (hrest : Follows rest) :
    ∃ rest', (readArgument source span (before ++ (s ++ rest))).outcome =
      (some argument, [], rest') ∧ trimStart rest' = trimStart rest := by
  cases h with
  | literal text => exact ⟨rest, readArgument_literal text hbefore hrest.boundary, rfl⟩
  | nested text hstart =>
      rename_i expression
      obtain ⟨c, t, hs, hpath⟩ := text.head
      have hchain := (ChainText.readsOn source text hrest.endsCall).trans
        (hrest.noCalls source span expression)
      obtain ⟨hvalue, hfaults, hlast⟩ := Reading.outcome_iff.mp hchain
      refine ⟨trimStart rest, ?_, trimStart_trimStart rest⟩
      rw [hstart.reads source hs hpath hbefore hrest.boundary]
      simp only [hvalue, hfaults, hlast]
      rfl

end

/-- A derived chain is read, up to the white space after it. -/
theorem ChainText.reads (source : String) {expression : Expression}
    (h : ChainText span s expression) (hrest : Follows rest) :
    (readChain source span (s ++ rest)).outcome = (expression, [], trimStart rest) :=
  (h.readsOn source hrest.endsCall).trans (hrest.noCalls source span expression)

theorem CallsText.reads (source : String) {calls : List FormatterCall}
    (h : CallsText span s calls) (hrest : Follows rest) :
    (readCalls source span (s ++ rest)).outcome = (calls, [], trimStart rest) := by
  have hnone : (readCalls source span rest).outcome = ([], [], trimStart rest) :=
    readCalls_end hrest.noBar
  obtain ⟨hvalue, hfaults, hlast⟩ := Reading.outcome_iff.mp hnone
  rw [h.readsOn source hrest.endsCall]
  simp only [hvalue, hfaults, hlast, List.append_nil]

theorem readChain_congr (source : String) (span : Span) {t : List Char}
    (h : trimStart s = trimStart t) :
    (readChain source span s).outcome = (readChain source span t).outcome := by
  rw [readChain_step, readChain_step, h]

/-- A text that the grammar derives, white space around it, is read without
error as the expression derived. -/
theorem read_of_chainText {before after : List Char} {expression : Expression}
    (hbefore : AllBlank before) (h : ChainText span s expression) (hafter : AllBlank after) :
    read (String.ofList (before ++ (s ++ after))) span = (expression, []) := by
  have hsame : trimStart (String.ofList (before ++ (s ++ after))).toList =
      trimStart (s ++ after) := by
    rw [String.toList_ofList, trimStart_append hbefore]
  have hread := readChain_congr (String.ofList (before ++ (s ++ after))) span hsame
  rw [h.reads _ (follows_of_allBlank hafter), trimStart_of_allBlank hafter] at hread
  obtain ⟨hvalue, hfaults, hrest⟩ := Reading.outcome_iff.mp hread
  simp only [read, hvalue, hfaults, hrest]
  rfl

end Stencil.Expression
