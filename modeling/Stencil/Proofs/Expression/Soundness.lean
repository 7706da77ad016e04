import Stencil.Proofs.Expression.Completeness

/-!
The grammar derives what the reader accepts. A reader that meets no fault has read
a text that the grammar derives, up to white space. Together with completeness the
reader accepts exactly what the grammar derives.
-/

namespace Stencil.Expression

open Text

variable {source formatter : String} {span : Span} {s t rest : List Char}

/-- Without a fault an expression was read, white space around it. -/
def DerivesChain (span : Span) (s : List Char) : Expression × List Fault × List Char → Prop
  | (expression, faults, rest) => faults = [] → ∃ before t after,
      s = before ++ (t ++ (after ++ rest)) ∧ AllBlank before ∧ AllBlank after ∧
        ChainText span t expression

/-- Without a fault calls were read, whatever white space stands before them. -/
def DerivesCalls (span : Span) (s : List Char) :
    List FormatterCall × List Fault × List Char → Prop
  | (calls, faults, rest) => faults = [] → ∀ before, AllBlank before → ∃ t after,
      before ++ s = t ++ (after ++ rest) ∧ AllBlank after ∧ CallsText span t calls

def DerivesCall (span : Span) (s : List Char) :
    Option FormatterCall × List Fault × List Char → Prop
  | (value, faults, rest) => faults = [] → ∃ call t after, value = some call ∧
      s = t ++ (after ++ rest) ∧ AllBlank after ∧ CallText span t call

/-- Without a fault arguments were read, and the parenthesis behind them. -/
def DerivesArguments (span : Span) (s : List Char) :
    Option (List Argument) × List Fault × List Char → Prop
  | (value, faults, rest) => faults = [] → ∃ arguments before t after,
      value = some arguments ∧ s = before ++ (t ++ (after ++ ')' :: rest)) ∧
      AllBlank before ∧ AllBlank after ∧ ArgumentsText span t arguments

/-- Without a fault an argument was read, provided that it ends where words do. -/
def DerivesArgument (span : Span) (s : List Char) :
    Option Argument × List Fault × List Char → Prop
  | (value, faults, rest) => faults = [] → ∃ argument before t after,
      value = some argument ∧ s = before ++ (t ++ (after ++ rest)) ∧
      AllBlank before ∧ AllBlank after ∧
      (atBoundary (after ++ rest) = true → ArgumentText span t argument)

/-- What stands between quotes denotes the text that was read. -/
theorem quotedText_of_stringTail? {quote : Char} {text : List Char}
    (h : stringTail? quote s = some (text, rest)) :
    ∃ t, s = t ++ quote :: rest ∧ QuotedText quote t text := by
  fun_induction stringTail? quote s generalizing text with
  | case1 => simp at h
  | case2 => simp at h
  | case3 c s ih =>
      obtain ⟨⟨text', rest'⟩, htail, heq⟩ := Option.map_eq_some_iff.mp h
      obtain ⟨rfl, rfl⟩ := Prod.mk.inj heq
      obtain ⟨t, rfl, hquoted⟩ := ih htail
      exact ⟨_, rfl, .escaped c hquoted⟩
  | case4 s _ =>
      obtain ⟨rfl, rfl⟩ := Prod.mk.inj (Option.some.inj h)
      exact ⟨[], rfl, .nil⟩
  | case5 c s hlast hescape hquote ih =>
      obtain ⟨⟨text', rest'⟩, htail, heq⟩ := Option.map_eq_some_iff.mp h
      obtain ⟨rfl, rfl⟩ := Prod.mk.inj heq
      obtain ⟨t, rfl, hquoted⟩ := ih htail
      have hplain : c ≠ '\\' := by
        rintro rfl
        obtain ⟨d, u, hcons⟩ : ∃ d u, t ++ quote :: rest' = d :: u := by
          cases t <;> exact ⟨_, _, rfl⟩
        exact hescape d u rfl hcons
      exact ⟨_, rfl, .plain hquote hplain hquoted⟩

theorem derives_string {quote : Char} (hs : trimStart s = quote :: t)
    (hquote : quote = '"' ∨ quote = '\'') :
    DerivesArgument span s ((readString source quote t).value.map .literal,
      (readString source quote t).faults, (readString source quote t).rest) := by
  unfold readString
  split
  · rename_i text rest htail
    obtain ⟨body, rfl, hquoted⟩ := quotedText_of_stringTail? htail
    obtain ⟨before, hbefore, rfl⟩ := exists_blanks hs
    intro _
    refine ⟨_, before, quote :: (body ++ [quote]), [], rfl, by simp, hbefore, allBlank_nil, ?_⟩
    intro _
    exact .literal (.string hquote hquoted)
  · intro hnone
    cases hnone

theorem derives_number {c : Char} (hs : trimStart s = c :: t)
    (hdigit : c.isDigit ∨ (c = '-' ∧ t.head?.any Char.isDigit)) :
    DerivesArgument span s ((readNumber (trimStart s)).value.map .literal,
      (readNumber (trimStart s)).faults, (readNumber (trimStart s)).rest) := by
  obtain ⟨sign, d, u, hparts, hd, hsign⟩ : ∃ sign d u, trimStart s = sign ++ d :: u ∧
      d.isDigit = true ∧ (sign = [] ∨ sign = ['-']) := by
    rcases hdigit with hc | ⟨rfl, hhead⟩
    · exact ⟨[], c, t, hs, hc, Or.inl rfl⟩
    · obtain ⟨d, ht, hd⟩ := (Option.any_eq_true ..).mp hhead
      obtain ⟨u, rfl⟩ := List.head?_eq_some_iff.mp ht
      exact ⟨['-'], d, u, hs, hd, Or.inr rfl⟩
  have hunsigned : sign = ['-'] ∨ sign = [] ∧ ∀ t, d :: u ≠ '-' :: t := by
    rcases hsign with hsign | hsign
    · refine Or.inr ⟨hsign, ?_⟩
      intro t hcons
      rw [(List.cons.inj hcons).1] at hd
      cases hd
    · exact Or.inl hsign
  have hstarts : startsNumber (sign ++ (d :: u).takeWhile isNumberChar) = true := by
    have hnumber : isNumberChar d = true := by simp [isNumberChar, hd]
    rw [List.takeWhile_cons_of_pos hnumber]
    rcases hsign with rfl | rfl <;> simp [startsNumber, hd]
  have hdigits : ∀ c ∈ (d :: u).takeWhile isNumberChar, isNumberChar c = true :=
    fun c hc => List.mem_takeWhile_imp hc
  have hsplit : sign ++ d :: u =
      sign ++ (d :: u).takeWhile isNumberChar ++ (d :: u).dropWhile isNumberChar := by
    rw [List.append_assoc, List.takeWhile_append_dropWhile]
  obtain ⟨hvalue, hfaults, hrest⟩ := Reading.outcome_iff.mp (readNumber_parts hunsigned)
  rw [hparts, hvalue, hfaults, hrest, ← List.length_append]
  generalize (d :: u).takeWhile isNumberChar = digits at *
  intro hnone
  cases hnumber : numberOf? ((sign ++ digits).filter (· != '_')) with
  | none =>
      rw [hnumber] at hnone
      cases hnone
  | some value =>
      obtain ⟨before, hbefore, hs⟩ := exists_blanks hparts
      refine ⟨_, before, sign ++ digits, [], rfl, ?_, hbefore, allBlank_nil, ?_⟩
      · rw [hsplit, List.drop_left, List.nil_append, hs, hsplit]
      · intro _
        exact .literal (.number (.mk hsign hstarts hdigits hnumber))

theorem derives_keyword {value : Literal} {length : Nat}
    (hkeyword : keyword? (trimStart s) = some (value, length)) :
    DerivesArgument span s (some (.literal value), [], (trimStart s).drop length) := by
  obtain ⟨⟨word, value'⟩, hmem, hfound⟩ := List.exists_of_findSome?_eq_some hkeyword
  obtain ⟨hword, hsame⟩ := Option.ite_none_right_eq_some.mp hfound
  obtain ⟨rfl, rfl⟩ := Prod.mk.inj (Option.some.inj hsame)
  rw [Bool.and_eq_true, List.isPrefixOf_iff_prefix] at hword
  obtain ⟨⟨more, hmore⟩, -⟩ := hword
  obtain ⟨before, hbefore, hs⟩ := exists_blanks hmore.symm
  intro _
  refine ⟨_, before, word, [], rfl, ?_, hbefore, allBlank_nil, fun _ => .literal (.keyword hmem)⟩
  rw [← hmore, List.drop_left, List.nil_append]
  exact hs

variable {faults faults' : List Fault} {rest' : List Char}

/-- An expression is an argument if it starts no literal. -/
theorem derives_nested {c : Char} {expression : Expression} (hs : trimStart s = c :: t)
    (hdigit : ¬(c.isDigit ∨ (c = '-' ∧ t.head?.any Char.isDigit)))
    (hkeyword : keyword? (trimStart s) = none)
    (hchain : DerivesChain span (trimStart s) (expression, faults, rest)) :
    DerivesArgument span s
      (if faults.isEmpty then some (.nested expression) else none, faults, rest) := by
  intro hnone
  obtain ⟨before, u, after, hread, hbefore, hafter, htext⟩ := hchain hnone
  obtain ⟨d, v, rfl, hpath⟩ := htext.head
  -- the text is trimmed, so that nothing stands before the expression
  have htrim := congrArg trimStart hread
  rw [trimStart_trimStart, trimStart_append hbefore, List.cons_append,
    trimStart_cons (not_isBlank_of_isPathChar hpath), ← List.cons_append] at htrim
  obtain ⟨blanks, hblanks, rfl⟩ := exists_blanks htrim
  refine ⟨.nested expression, blanks, _, after, by rw [hnone]; rfl, rfl, hblanks, hafter, ?_⟩
  intro hend
  refine .nested htext ⟨?_, ?_⟩
  · rw [← startsNumber_append (by simp) hend, ← htrim, hs]
    simpa [startsNumber] using hdigit
  · rw [← keyword?_append hend, ← htrim]
    exact hkeyword

theorem derives_chain {calls : List FormatterCall}
    (hcalls : DerivesCalls span (readPath (trimStart s)).rest (calls, faults, rest)) :
    DerivesChain span s (⟨(readPath (trimStart s)).value, calls, span⟩,
      (readPath (trimStart s)).faults ++ faults, rest) := by
  intro hnone
  obtain ⟨hpathFaults, hcallFaults⟩ := List.append_eq_nil_iff.mp hnone
  cases hparse : Path.parse (String.ofList ((trimStart s).takeWhile isPathChar)) with
  | error cause =>
      obtain ⟨-, hfaults, -⟩ := Reading.outcome_iff.mp (readPath_error hparse)
      cases hfaults.symm.trans hpathFaults
  | ok path =>
      obtain ⟨hvalue, -, hrest⟩ := Reading.outcome_iff.mp (readPath_path hparse)
      obtain ⟨t, after, hread, hafter, htext⟩ := hcalls hcallFaults [] allBlank_nil
      rw [hrest, List.nil_append] at hread
      have hname := (Path.isPathText_of_parse hparse).2
      rw [String.toList_ofList] at hname
      have hsplit := (List.takeWhile_append_dropWhile (p := isPathChar) (l := trimStart s)).symm
      rw [hread, ← List.append_assoc] at hsplit
      obtain ⟨before, hbefore, hs⟩ := exists_blanks hsplit
      rw [hvalue]
      exact ⟨before, _, after, hs, hbefore, hafter, .mk hname.nonempty hname.chars hparse htext⟩

/-- A call that was read, and those after it. -/
theorem derives_call {call : FormatterCall} {calls : List FormatterCall}
    (hbar : trimStart s = '|' :: t)
    (hcall : DerivesCall span (trimStart t) (some call, faults, rest))
    (hmore : DerivesCalls span rest (calls, faults', rest')) :
    DerivesCalls span s (call :: calls, faults ++ faults', rest') := by
  intro hnone before hbefore
  obtain ⟨hcallFaults, hmoreFaults⟩ := List.append_eq_nil_iff.mp hnone
  obtain ⟨call', u, after, hsome, hread, hafter, htext⟩ := hcall hcallFaults
  obtain rfl := Option.some.inj hsome
  obtain ⟨tail, last, hreadMore, hlast, hcallsText⟩ := hmore hmoreFaults after hafter
  obtain ⟨inside, hinside, rfl⟩ := exists_blanks hread
  obtain ⟨blanks, hblanks, rfl⟩ := exists_blanks hbar
  refine ⟨_, last, ?_, hlast, .cons (hbefore.append hblanks) hinside htext hcallsText⟩
  rw [hreadMore]
  simp

/-- A call that could not be read is not without a fault. -/
theorem derives_malformed {calls : List FormatterCall}
    (hcall : DerivesCall span t (none, faults, rest)) :
    DerivesCalls span s (calls, faults ++ faults', rest') := by
  intro hnone
  obtain ⟨call, _, _, hsome, -⟩ := hcall (List.append_eq_nil_iff.mp hnone).1
  cases hsome

theorem derives_noCalls : DerivesCalls span s ([], [], trimStart s) := by
  intro _ before hbefore
  obtain ⟨blanks, hblanks, hs⟩ := exists_blanks (s := s) rfl
  refine ⟨[], before ++ blanks, ?_, hbefore.append hblanks, .nil⟩
  rw [List.nil_append, List.append_assoc, ← hs]

section

variable {name : List Char}

theorem derives_bare (hname : IsIdentifier name) :
    DerivesCall span (name ++ t) (some ⟨String.ofList name, []⟩, [], trimStart t) := by
  obtain ⟨blanks, hblanks, hs⟩ := exists_blanks (s := t) rfl
  intro _
  exact ⟨_, name, blanks, rfl, by rw [← hs], hblanks, .bare hname⟩

theorem derives_empty (hname : IsIdentifier name) (hparen : trimStart s = '(' :: t)
    (hclose : trimStart t = ')' :: rest) :
    DerivesCall span (name ++ s) (some ⟨String.ofList name, []⟩, [], rest) := by
  obtain ⟨inside, hinside, rfl⟩ := exists_blanks hclose
  obtain ⟨before, hbefore, rfl⟩ := exists_blanks hparen
  intro _
  exact ⟨_, _, [], rfl, by simp, allBlank_nil, .empty hname hbefore hinside⟩

theorem derives_arguments {value : Option (List Argument)} (hname : IsIdentifier name)
    (hparen : trimStart s = '(' :: t)
    (harguments : DerivesArguments span (trimStart t) (value, faults, rest)) :
    DerivesCall span (name ++ s)
      (value.map fun arguments => ⟨String.ofList name, arguments⟩, faults, rest) := by
  intro hnone
  obtain ⟨arguments, before, u, after, rfl, hread, hbefore, hafter, htext⟩ := harguments hnone
  obtain ⟨inside, hinside, rfl⟩ := exists_blanks hread
  obtain ⟨blanks, hblanks, rfl⟩ := exists_blanks hparen
  refine ⟨_, _, [], rfl, ?_, allBlank_nil,
    .arguments hname hblanks (hinside.append hbefore) htext hafter⟩
  simp

end

section

variable {argument : Argument}

theorem derives_last (hargument : DerivesArgument span s (some argument, faults, rest))
    (hclose : trimStart rest = ')' :: t) :
    DerivesArguments span s (some [argument], faults, t) := by
  intro hnone
  obtain ⟨argument', before, u, after, hsome, rfl, hbefore, hafter, htext⟩ := hargument hnone
  obtain rfl := Option.some.inj hsome
  obtain ⟨blanks, hblanks, rfl⟩ := exists_blanks hclose
  have hend : atBoundary (after ++ (blanks ++ ')' :: t)) = true := by
    rw [← List.append_assoc]
    exact (follows_append t (hafter.append hblanks) (Or.inr rfl)).boundary
  refine ⟨_, before, u, after ++ blanks, rfl, by simp, hbefore, hafter.append hblanks, ?_⟩
  exact .last (htext hend)

theorem derives_more {value : Option (List Argument)}
    (hargument : DerivesArgument span s (some argument, faults, rest))
    (hcomma : trimStart rest = ',' :: t)
    (hmore : DerivesArguments span t (value, faults', rest')) :
    DerivesArguments span s (value.map (argument :: ·), faults ++ faults', rest') := by
  intro hnone
  obtain ⟨hargumentFaults, hmoreFaults⟩ := List.append_eq_nil_iff.mp hnone
  obtain ⟨argument', before, u, after, hsome, rfl, hbefore, hafter, htext⟩ :=
    hargument hargumentFaults
  obtain rfl := Option.some.inj hsome
  obtain ⟨arguments, before', v, last, rfl, rfl, hbefore', hlast, hlistText⟩ := hmore hmoreFaults
  obtain ⟨blanks, hblanks, rfl⟩ := exists_blanks hcomma
  have hend : atBoundary (after ++ (blanks ++ ',' :: (before' ++ (v ++ (last ++ ')' :: rest'))))) =
      true := by
    rw [← List.append_assoc]
    exact (follows_append _ (hafter.append hblanks) (Or.inl rfl)).boundary
  refine ⟨_, before, _, last, rfl, ?_, hbefore, hlast,
    .cons (htext hend) (hafter.append hblanks) hbefore' hlistText⟩
  simp

theorem derives_failed (hargument : DerivesArgument span s (none, faults, rest)) :
    DerivesArguments span s (none, faults, rest) := by
  intro hnone
  obtain ⟨_, _, _, _, hsome, -⟩ := hargument hnone
  cases hsome

end

/-- The readers of chains, calls and arguments call each other, so that what they
accept is settled by one induction over all of them. -/
theorem derives_readers (source : String) (span : Span) :
    (∀ s, DerivesChain span s (readChain source span s).outcome) ∧
    (∀ s, DerivesCalls span s (readCalls source span s).outcome) ∧
    (∀ s, DerivesCall span s (readCall source span s).outcome) ∧
    (∀ formatter s, DerivesArguments span s (readArguments source span formatter s).outcome) ∧
    (∀ s, DerivesArgument span s (readArgument source span s).outcome) := by
  have hname {s : List Char} (hname : ¬(String.ofList (s.takeWhile isFormatterChar)).isEmpty) :
      s.takeWhile isFormatterChar ≠ [] ∧ IsIdentifier (s.takeWhile isFormatterChar) := by
    rw [ofList_isEmpty, List.isEmpty_iff] at hname
    exact ⟨hname, hname, fun _ hc => List.mem_takeWhile_imp hc⟩
  apply readChain.mutual_induct source span
  case case1 =>
    intro s path _ hcalls
    rw [readChain_step]
    exact derives_chain hcalls
  case case2 =>
    intro s t hbar call _ _ value hvalue hcall hmore
    rw [readCalls_call hbar hvalue]
    rw [Reading.outcome, hvalue] at hcall
    exact derives_call hbar hcall hmore
  case case3 =>
    intro s t hbar call _ _ hvalue _ hcall hmore
    rw [readCalls_malformed hbar hvalue]
    rw [Reading.outcome, hvalue] at hcall
    exact derives_malformed hcall
  case case4 =>
    intro s hno
    rw [readCalls_end hno]
    exact derives_noCalls
  case case5 =>
    intro s name rest _ hname
    rw [ofList_isEmpty, List.isEmpty_iff] at hname
    rw [readCall_nameless hname]
    intro hnone
    cases hnone
  case case6 =>
    intro s name rest _ hsome t hparen _ rest' hclose
    rw [readCall_empty (hname hsome).1 hparen hclose]
    have hempty : DerivesCall span _ _ := derives_empty (hname hsome).2 hparen hclose
    rwa [List.takeWhile_append_dropWhile] at hempty
  case case7 =>
    intro s name rest _ hsome t hparen _ hno harguments
    rw [readCall_arguments (hname hsome).1 hparen hno]
    have hlist := derives_arguments (hname hsome).2 hparen harguments
    rwa [List.takeWhile_append_dropWhile] at hlist
  case case8 =>
    intro s name rest _ hsome hno
    rw [readCall_bare (hname hsome).1 hno]
    have hbare : DerivesCall span (s.takeWhile isFormatterChar ++ s.dropWhile isFormatterChar) _ :=
      derives_bare (hname hsome).2
    rwa [List.takeWhile_append_dropWhile] at hbare
  case case9 =>
    intro formatter s argument hvalue hargument
    rw [readArguments_failed hvalue]
    rw [Reading.outcome, hvalue] at hargument
    exact derives_failed hargument
  case case10 =>
    intro formatter s argument value hvalue t hcomma _ hargument hmore
    rw [readArguments_more hvalue hcomma]
    rw [Reading.outcome, hvalue] at hargument
    exact derives_more hargument hcomma hmore
  case case11 =>
    intro formatter s argument value hvalue t hclose hargument
    rw [readArguments_last hvalue hclose]
    rw [Reading.outcome, hvalue] at hargument
    exact derives_last hargument hclose
  case case12 =>
    intro formatter s argument value hvalue hcomma hclose hargument
    rw [readArguments_broken hvalue hcomma hclose]
    intro hnone
    cases (List.append_eq_nil_iff.mp hnone).2
  case case13 =>
    intro s hend
    rw [readArgument_end hend]
    intro hnone
    cases hnone
  case case14 =>
    intro s c t hc _ hquote
    rw [readArgument_string hc hquote]
    exact derives_string hc hquote
  case case15 =>
    intro s c t hc _ hquote hdigit
    rw [readArgument_number hc hquote hdigit]
    exact derives_number hc hdigit
  case case16 =>
    intro s c t hc _ hquote hdigit value length hkeyword
    rw [readArgument_keyword hc hquote hdigit hkeyword]
    exact derives_keyword hkeyword
  case case17 =>
    intro s c t hc _ hquote hdigit hkeyword hchain
    rw [readArgument_nested hc hquote hdigit hkeyword]
    exact derives_nested hc hdigit hkeyword hchain

/-- The grammar derives a source as an expression, white space around it. -/
def Derives (span : Span) (source : String) (expression : Expression) : Prop :=
  ∃ before s after, source.toList = before ++ (s ++ after) ∧ AllBlank before ∧ AllBlank after ∧
    ChainText span s expression

theorem trailingFaults_eq_nil_iff {expression : Expression} :
    trailingFaults source expression rest = [] ↔ rest = [] := by
  rw [trailingFaults]
  split
  · rename_i hempty
    simpa using hempty
  · rename_i hsome
    simpa using hsome

/-- Whatever is read without an error is derived. -/
theorem derives_read {expression : Expression} (h : read source span = (expression, [])) :
    Derives span source expression := by
  obtain ⟨rfl, hnone⟩ := Prod.mk.inj h
  obtain ⟨hfaults, htrailing⟩ := List.append_eq_nil_iff.mp (List.map_eq_nil_iff.mp hnone)
  obtain ⟨before, s, after, hread, hbefore, hafter, htext⟩ :=
    (derives_readers source span).1 source.toList hfaults
  obtain ⟨blanks, hblanks, hrest⟩ := exists_blanks (trailingFaults_eq_nil_iff.mp htrailing)
  rw [hrest, List.append_nil] at hread
  exact ⟨before, s, after ++ blanks, hread, hbefore, hafter.append hblanks, htext⟩

/-- A source is read without an error as what the grammar derives, and as nothing
else: an error is reported exactly if it derives nothing. -/
theorem read_accepts_grammar (source : String) (span : Span) :
    (∀ expression, read source span = (expression, []) ↔ Derives span source expression) ∧
    ((read source span).2 = [] ↔ ∃ expression, Derives span source expression) := by
  have hread (expression : Expression) :
      read source span = (expression, []) ↔ Derives span source expression := by
    refine ⟨derives_read, ?_⟩
    rintro ⟨before, s, after, hsource, hbefore, hafter, htext⟩
    rw [← String.ofList_toList (s := source), hsource]
    exact read_of_chainText hbefore htext hafter
  refine ⟨hread, ?_, ?_⟩
  · intro hnone
    exact ⟨(read source span).1, derives_read (Prod.ext rfl hnone)⟩
  · rintro ⟨expression, hderives⟩
    rw [(hread expression).mpr hderives]

end Stencil.Expression
