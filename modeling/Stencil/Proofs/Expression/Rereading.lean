import Stencil.Proofs.Expression.Display
import Stencil.Proofs.Expression.Soundness

/-!
What reading a printed expression gives back. The text that a style prints is read as
the expression exactly if the style covers all its literals and no nested path is a
keyword: reading follows the text, so that the first part that is not given back is
read as another one.
-/

namespace Stencil.Expression

open Text

variable {source formatter : String} {span : Span} {s t rest : List Char}

/-- A reading gives a value without a fault, wherever it stops. -/
def Reading.Gives {α : Type} (reading : Reading s α) (value : α) : Prop :=
  reading.value = value ∧ reading.faults = []

theorem Reading.gives_iff {α : Type} {reading : Reading s α} {value value' : α}
    {faults : List Fault} (h : reading.outcome = (value', faults, rest)) :
    reading.Gives value ↔ value' = value ∧ faults = [] := by
  obtain ⟨rfl, rfl, -⟩ := outcome_iff.mp h
  rfl

theorem Reading.Gives.congr {α : Type} {reading : Reading s α} {reading' : Reading t α} {value : α}
    (h : reading.Gives value) (hsame : reading.outcome = reading'.outcome) :
    reading'.Gives value :=
  (gives_iff hsame.symm).mpr h

/-- What is not read is not without a fault. -/
theorem readCall_ne_none (h : (readCall source span s).faults = []) :
    (readCall source span s).value ≠ none := by
  obtain ⟨call, _, _, hsome, -⟩ := (derives_readers source span).2.2.1 s h
  rw [hsome]
  exact Option.some_ne_none call

/-- Behind a bar the first call is given, and then those after it. -/
theorem gives_call {call : FormatterCall} {calls : List FormatterCall}
    (hbar : trimStart s = '|' :: t)
    (h : (readCalls source span s).Gives (call :: calls)) :
    (readCall source span (trimStart t)).Gives (some call) ∧
      (readCalls source span (readCall source span (trimStart t)).rest).Gives calls := by
  cases hvalue : (readCall source span (trimStart t)).value with
  | none =>
      obtain ⟨-, hfaults⟩ := (Reading.gives_iff (readCalls_malformed hbar hvalue)).mp h
      exact absurd hvalue (readCall_ne_none (List.append_eq_nil_iff.mp hfaults).1)
  | some value =>
      obtain ⟨hsame, hfaults⟩ := (Reading.gives_iff (readCalls_call hbar hvalue)).mp h
      obtain ⟨rfl, hcalls⟩ := List.cons.inj hsame
      obtain ⟨hfirst, hmore⟩ := List.append_eq_nil_iff.mp hfaults
      exact ⟨⟨hvalue, hfirst⟩, hcalls, hmore⟩

theorem gives_argument {argument : Argument} {arguments : List Argument}
    (h : (readArguments source span formatter s).Gives (some (argument :: arguments))) :
    (readArgument source span s).Gives (some argument) := by
  cases hvalue : (readArgument source span s).value with
  | none =>
      obtain ⟨hnone, -⟩ := (Reading.gives_iff (readArguments_failed hvalue)).mp h
      cases hnone
  | some value =>
      by_cases hcomma : ∃ t, trimStart (readArgument source span s).rest = ',' :: t
      · obtain ⟨t, hcomma⟩ := hcomma
        obtain ⟨hsome, hfaults⟩ := (Reading.gives_iff (readArguments_more hvalue hcomma)).mp h
        obtain ⟨_, -, hcons⟩ := Option.map_eq_some_iff.mp hsome
        exact ⟨by rw [hvalue, (List.cons.inj hcons).1], (List.append_eq_nil_iff.mp hfaults).1⟩
      by_cases hclose : ∃ t, trimStart (readArgument source span s).rest = ')' :: t
      · obtain ⟨t, hclose⟩ := hclose
        obtain ⟨hsome, hfaults⟩ := (Reading.gives_iff (readArguments_last hvalue hclose)).mp h
        exact ⟨by rw [hvalue, (List.cons.inj (Option.some.inj hsome)).1], hfaults⟩
      · obtain ⟨hnone, -⟩ := (Reading.gives_iff (readArguments_broken hvalue
          (not_exists.mp hcomma) (not_exists.mp hclose))).mp h
        cases hnone

/-- The arguments behind a comma. -/
theorem gives_arguments {argument : Argument} {arguments : List Argument}
    (hcomma : trimStart (readArgument source span s).rest = ',' :: t)
    (h : (readArguments source span formatter s).Gives (some (argument :: arguments))) :
    (readArguments source span formatter t).Gives (some arguments) := by
  obtain ⟨hvalue, -⟩ := gives_argument h
  obtain ⟨hsome, hfaults⟩ := (Reading.gives_iff (readArguments_more hvalue hcomma)).mp h
  obtain ⟨_, hmore, hcons⟩ := Option.map_eq_some_iff.mp hsome
  obtain ⟨-, rfl⟩ := List.cons.inj hcons
  exact ⟨hmore, (List.append_eq_nil_iff.mp hfaults).2⟩

/-- An expression is given as an argument only by a text that starts no literal. -/
theorem gives_nested {expression : Expression}
    (h : (readArgument source span s).Gives (some (.nested expression))) :
    StartsNoLiteral (trimStart s) ∧ (readChain source span (trimStart s)).Gives expression := by
  have hliteral (value : Option Literal) :
      value.map Argument.literal ≠ some (.nested expression) := by
    cases value <;> simp
  cases hs : trimStart s with
  | nil =>
      obtain ⟨hnone, -⟩ := (Reading.gives_iff (readArgument_end hs)).mp h
      cases hnone
  | cons c t =>
      by_cases hquote : c = '"' ∨ c = '\''
      · obtain ⟨hvalue, -⟩ := (Reading.gives_iff (readArgument_string hs hquote)).mp h
        exact absurd hvalue (hliteral _)
      by_cases hdigit : c.isDigit ∨ (c = '-' ∧ t.head?.any Char.isDigit)
      · obtain ⟨hvalue, -⟩ := (Reading.gives_iff (readArgument_number hs hquote hdigit)).mp h
        exact absurd hvalue (hliteral _)
      cases hkeyword : keyword? (trimStart s) with
      | some found =>
          obtain ⟨hvalue, -⟩ :=
            (Reading.gives_iff (readArgument_keyword hs hquote hdigit hkeyword)).mp h
          cases hvalue
      | none =>
          obtain ⟨hvalue, hfaults⟩ :=
            (Reading.gives_iff (readArgument_nested hs hquote hdigit hkeyword)).mp h
          rw [hfaults, List.isEmpty_nil, if_pos rfl] at hvalue
          injection Option.some.inj hvalue with hchain
          rw [hs] at hkeyword hchain hfaults
          exact ⟨⟨by simpa [startsNumber] using hdigit, hkeyword⟩, hchain, hfaults⟩

/-- A text that starts no literal is not read as one. -/
theorem not_gives_literal {c : Char} {before : List Char} {value : Literal}
    (hstart : StartsNoLiteral s) (hs : s = c :: t) (hpath : isPathChar c = true)
    (hbefore : AllBlank before) (hrest : atBoundary rest = true) :
    ¬(readArgument source span (before ++ (s ++ rest))).Gives (some (.literal value)) := by
  intro h
  obtain ⟨hvalue, -⟩ :=
    (Reading.gives_iff (hstart.reads source hs hpath hbefore hrest)).mp h
  split at hvalue <;> cases hvalue

end Stencil.Expression

namespace Stencil

open Text Expression

/-- A style whose texts are read as literals only if it covers them. Each starts
with a character that no white space, no list and no call stops at. -/
structure LiteralStyle.IsExact (style : LiteralStyle) : Prop where
  head : ∀ value, ∃ c s, style.write value = c :: s ∧ isBlank c = false ∧ c ≠ ')'
  covers : ∀ {source span before rest value}, AllBlank before → atBoundary rest = true →
    (readArgument source span (before ++ (style.write value ++ rest))).Gives
      (some (.literal value)) → style.Covers value

theorem LiteralStyle.displayed_isExact : LiteralStyle.displayed.IsExact where
  head value := by
    obtain ⟨back, htext, -⟩ | ⟨-, -, c, s, hs, hpath⟩ := value.text_forms
    · obtain ⟨c, s, hs, hopens⟩ := htext.head
      exact ⟨c, s, hs, not_isBlank_of_opensArgument hopens, ne_of_opensArgument hopens rfl⟩
    · refine ⟨c, s, hs, not_isBlank_of_isPathChar hpath, ?_⟩
      rintro rfl
      cases hpath
  covers := by
    intro source span before rest value hbefore hrest h
    obtain ⟨back, htext, hback⟩ | ⟨-, hstart, c, s, hs, hpath⟩ := value.text_forms
    · obtain ⟨hvalue, -⟩ :=
        (Reading.gives_iff (readArgument_literal htext hbefore hrest)).mp h
      injection Option.some.inj hvalue with hsame
      exact hback.mp hsame
    · exact absurd h (not_gives_literal hstart hs hpath hbefore hrest)

namespace Expression

section

variable {span : Span} {s : List Char}

theorem CallText.identifier {call : FormatterCall} (h : CallText span s call) :
    IsIdentifier call.name.toList := by
  cases h with
  | bare hname | empty hname | arguments hname =>
      rw [String.toList_ofList]
      exact hname

theorem ArgumentsText.ne_nil {arguments : List Argument} (h : ArgumentsText span s arguments) :
    arguments ≠ [] := by
  cases h <;> simp

theorem ChainText.path {expression : Expression} (h : ChainText span s expression) :
    Path.parse expression.path.text = .ok expression.path ∧
      Path.IsPathText expression.path.text.toList := by
  cases h with
  | mk hname hchars hpath more =>
      obtain ⟨htext, hpathText⟩ := Path.isPathText_of_parse hpath
      simp only [htext]
      exact ⟨hpath, hpathText⟩

end

/-- A path that starts no literal, whatever calls follow, may be an argument. -/
theorem isNestedPath_of_startsNoLiteral {s rest : List Char} (htext : Path.IsPathText s)
    (hrest : atBoundary rest = true) (h : StartsNoLiteral (s ++ rest)) : IsNestedPath s := by
  refine ⟨(startsNumber_append htext.nonempty hrest).symm.trans h.number, ?_⟩
  intro hmem
  obtain ⟨⟨word, value⟩, hkeyword, rfl⟩ := List.mem_map.mp hmem
  cases (keyword?_keyword hkeyword hrest).symm.trans h.keyword

variable (style : LiteralStyle) {source : String} {span : Span}

theorem atBoundary_calls {rest : List Char} (calls : List FormatterCall)
    (hrest : atBoundary rest = true) : atBoundary (callsSource style calls ++ rest) = true :=
  (atBoundary_append hrest _).trans (atBoundary_callsSource style calls)

theorem trimStart_callsSource (call : FormatterCall) (calls : List FormatterCall)
    (rest : List Char) :
    trimStart (callsSource style (call :: calls) ++ rest) =
      '|' :: ' ' :: (callSource style call ++ (callsSource style calls ++ rest)) := by
  rw [callsSource_cons, ← List.append_assoc]
  exact trimStart_append allBlank_space

theorem endsCall_calls {rest : List Char} (calls : List FormatterCall) (hrest : Follows rest) :
    EndsCall (callsSource style calls ++ rest) := by
  cases calls with
  | nil => exact hrest.endsCall
  | cons call calls =>
      rw [callsSource_cons]
      exact endsCall_bar allBlank_space _

theorem source_head {s : List Char} {expression : Expression} (h : ChainText span s expression) :
    ∃ c t, expression.source style = c :: t ∧ isPathChar c = true := by
  have hpath := h.path.2
  obtain ⟨path, calls, _⟩ := expression
  obtain ⟨c, t, htext⟩ := List.exists_cons_of_ne_nil hpath.nonempty
  have hc := hpath.chars c (by rw [htext]; exact List.mem_cons_self ..)
  rw [source, htext]
  exact ⟨c, _, rfl, hc⟩

theorem trimStart_source {s before : List Char} {expression : Expression}
    (h : ChainText span s expression) (hbefore : AllBlank before) (rest : List Char) :
    trimStart (before ++ (expression.source style ++ rest)) =
      expression.source style ++ rest := by
  obtain ⟨c, t, hs, hc⟩ := source_head style h
  rw [trimStart_append hbefore, hs]
  exact trimStart_cons (not_isBlank_of_isPathChar hc)

theorem trimStart_callSource {call : FormatterCall} (hname : IsIdentifier call.name.toList)
    (rest : List Char) :
    trimStart (' ' :: (callSource style call ++ rest)) = callSource style call ++ rest := by
  obtain ⟨name, arguments⟩ := call
  obtain ⟨c, t, hs, hc⟩ := hname.head
  have hcons : callSource style ⟨name, arguments⟩ ++ rest = c :: (t ++
      (if arguments.isEmpty then []
        else '(' :: (argumentsSource style [] arguments ++ [')'])) ++ rest) := by
    rw [callSource, hs]
    rfl
  rw [hcons]
  exact (trimStart_append allBlank_space).trans (trimStart_cons hc)

/-- The reader of a printed expression reads its path and then its calls. -/
theorem gives_calls {s rest : List Char} {expression : Expression}
    (h : ChainText span s expression) (hrest : Follows rest)
    (hgives : (readChain source span (expression.source style ++ rest)).Gives expression) :
    (readCalls source span (callsSource style expression.calls ++ rest)).Gives
      expression.calls := by
  have hpath := h.path
  have htrim := trimStart_source style h allBlank_nil rest
  obtain ⟨hvalue, hfaults⟩ := (Reading.gives_iff readChain_step).mp hgives
  rw [List.nil_append] at htrim
  rw [htrim] at hvalue hfaults
  obtain ⟨path, calls, place⟩ := expression
  have hstop : ∀ c ∈ (callsSource style calls ++ rest).head?, isPathChar c = false :=
    not_mem_of_atBoundary (atBoundary_calls style calls hrest.boundary)
      not_isPathChar_of_isBlank rfl rfl
  have hparts : Expression.source style ⟨path, calls, place⟩ ++ rest =
      path.text.toList ++ (callsSource style calls ++ rest) := by
    rw [Expression.source, List.append_assoc]
  have hparse := hpath.1
  have htake := takeWhile_append_stop hpath.2.chars hstop
  have hdrop := dropWhile_append_stop hpath.2.chars hstop
  rw [← String.ofList_toList (s := path.text), ← htake] at hparse
  obtain ⟨-, -, hrest⟩ := Reading.outcome_iff.mp (readPath_path hparse)
  rw [hparts, hrest, hdrop] at hvalue hfaults
  injection hvalue with _ hcalls
  exact ⟨hcalls, (List.append_eq_nil_iff.mp hfaults).2⟩

variable {style}

theorem argumentsSource_head (hexact : style.IsExact) {arguments : List Argument} {s : List Char}
    (h : ArgumentsText span s arguments) :
    ∃ c t, argumentsSource style [] arguments = c :: t ∧ isBlank c = false ∧ c ≠ ')' := by
  have hfirst {s : List Char} {argument : Argument} (arguments : List Argument)
      (h : ArgumentText span s argument) : ∃ c t,
      argumentsSource style [] (argument :: arguments) = c :: t ∧ isBlank c = false ∧ c ≠ ')' := by
    rw [argumentsSource_cons]
    cases h with
    | literal text =>
        rename_i value
        obtain ⟨c, t, hwrite, hblank, hc⟩ := hexact.head value
        rw [argumentSource, hwrite]
        exact ⟨c, _, rfl, hblank, hc⟩
    | nested text hstart =>
        obtain ⟨c, t, hs, hc⟩ := source_head style text
        rw [argumentSource, hs]
        refine ⟨c, _, rfl, not_isBlank_of_isPathChar hc, ?_⟩
        rintro rfl
        cases hc
  cases h with
  | last only => exact hfirst [] only
  | cons first => exact hfirst _ first

/-- The reader of a printed call with arguments reads its name and then them. -/
theorem gives_list (hexact : style.IsExact) {name : String} {arguments : List Argument}
    {s rest : List Char} (hname : IsIdentifier name.toList) (list : ArgumentsText span s arguments)
    (hgives : (readCall source span (callSource style ⟨name, arguments⟩ ++ rest)).Gives
      (some ⟨name, arguments⟩)) :
    (readArguments source span name (argumentsSource style [] arguments ++ ')' :: rest)).Gives
      (some arguments) := by
  obtain ⟨c, t, hs, hblank, hc⟩ := argumentsSource_head hexact list
  have hfirst : trimStart (argumentsSource style [] arguments ++ ')' :: rest) =
      argumentsSource style [] arguments ++ ')' :: rest := by
    rw [hs]
    exact trimStart_cons hblank
  have hopen : ∀ v, trimStart (argumentsSource style [] arguments ++ ')' :: rest) ≠ ')' :: v := by
    intro v hv
    rw [hfirst, hs] at hv
    exact hc (List.cons.inj hv).1
  have hparts : callSource style ⟨name, arguments⟩ ++ rest =
      name.toList ++ '(' :: (argumentsSource style [] arguments ++ ')' :: rest) := by
    simp [callSource, list.ne_nil]
  have hstop : ∀ c ∈ ('(' :: (argumentsSource style [] arguments ++ ')' :: rest)).head?,
      isFormatterChar c = false := endsName allBlank_nil
  have htake := takeWhile_append_stop hname.chars hstop
  have hdrop := dropWhile_append_stop hname.chars hstop
  have hparen := (congrArg trimStart hdrop).trans (trimStart_cons rfl)
  rw [hparts] at hgives
  obtain ⟨hvalue, hfaults⟩ := (Reading.gives_iff (readCall_arguments
    (by rw [htake]; exact hname.nonempty) hparen hopen)).mp hgives
  rw [htake, String.ofList_toList, hfirst] at hvalue hfaults
  obtain ⟨values, hvalues, hcall⟩ := Option.map_eq_some_iff.mp hvalue
  injection hcall with _ hsame
  exact ⟨hsame ▸ hvalues, hfaults⟩

mutual

/-- Only what can be printed is read back as it is. -/
theorem ChainText.isPrintable (hexact : style.IsExact) {s rest : List Char}
    {expression : Expression} (h : ChainText span s expression) (hrest : Follows rest)
    (hgives : (readChain source span (expression.source style ++ rest)).Gives expression) :
    expression.IsPrintable style := by
  have hpath := h.path
  have hcalls := gives_calls style h hrest hgives
  cases h with
  | mk hname hchars hparse more =>
      exact ⟨hpath.1, CallsText.isPrintable hexact more hrest hcalls⟩

theorem CallsText.isPrintable (hexact : style.IsExact) {s rest : List Char}
    {calls : List FormatterCall} (h : CallsText span s calls) (hrest : Follows rest)
    (hgives : (readCalls source span (callsSource style calls ++ rest)).Gives calls) :
    CallsPrintable style calls := by
  cases h with
  | nil => trivial
  | cons hbefore hafter first more =>
      rename_i before after t tail call calls
      obtain ⟨hcall, hcalls⟩ := gives_call (trimStart_callsSource style call calls rest) hgives
      have hname := first.identifier
      rw [trimStart_callSource style hname] at hcall hcalls
      have harguments := CallText.isPrintable hexact first hcall
      -- the call is printed, so that reading goes on where the others start
      obtain ⟨rest', houtcome, hsame⟩ := (callText_source style span call hname harguments).reads
        source (endsCall_calls style calls hrest)
      obtain ⟨-, -, hlast⟩ := Reading.outcome_iff.mp houtcome
      rw [hlast] at hcalls
      exact (callsPrintable_cons style call calls).mpr ⟨⟨hname, harguments⟩,
        CallsText.isPrintable hexact more hrest (hcalls.congr (readCalls_congr source span hsame))⟩

theorem CallText.isPrintable (hexact : style.IsExact) {s rest : List Char}
    {call : FormatterCall} (h : CallText span s call)
    (hgives : (readCall source span (callSource style call ++ rest)).Gives (some call)) :
    ArgumentsPrintable style call.arguments := by
  have hidentifier := h.identifier
  cases h with
  | bare hname => trivial
  | empty hname hbefore hinside => trivial
  | arguments hname hbefore hinside list hafter =>
      exact ArgumentsText.isPrintable hexact list allBlank_nil
        (gives_list hexact hidentifier list hgives)

theorem ArgumentsText.isPrintable (hexact : style.IsExact) {formatter : String}
    {s before rest : List Char} {arguments : List Argument} (h : ArgumentsText span s arguments)
    (hbefore : AllBlank before)
    (hgives : (readArguments source span formatter
      (before ++ (argumentsSource style [] arguments ++ ')' :: rest))).Gives (some arguments)) :
    ArgumentsPrintable style arguments := by
  cases h with
  | last only =>
      rename_i argument
      rw [argumentsSource_cons, argumentsSource, List.nil_append, List.append_nil] at hgives
      have hargument := ArgumentText.isPrintable hexact only hbefore
        (follows_append rest allBlank_nil (Or.inr rfl)) (gives_argument hgives)
      exact (argumentsPrintable_cons style argument []).mpr ⟨hargument, trivial⟩
  | cons first hbefore' hafter' more =>
      rename_i t before' after' tail argument arguments
      rw [argumentsSource_cons, argumentsSource_separated style more.ne_nil, List.nil_append,
        List.append_assoc, List.append_assoc] at hgives
      have hfollows : Follows ([',', ' '] ++ (argumentsSource style [] arguments ++ ')' :: rest)) :=
        follows_append _ allBlank_nil (Or.inl rfl)
      have hargument :=
        ArgumentText.isPrintable hexact first hbefore hfollows (gives_argument hgives)
      -- the argument is printed, so that reading stops at the comma behind it
      obtain ⟨rest', houtcome, hsame⟩ := (argumentText_source style span argument hargument).reads
        source hbefore hfollows
      obtain ⟨-, -, hlast⟩ := Reading.outcome_iff.mp houtcome
      have hcomma := (congrArg trimStart hlast).trans hsame
      have hmore := gives_arguments (hcomma.trans (trimStart_cons rfl)) hgives
      exact (argumentsPrintable_cons style argument arguments).mpr
        ⟨hargument, ArgumentsText.isPrintable hexact more allBlank_space hmore⟩

theorem ArgumentText.isPrintable (hexact : style.IsExact) {s before rest : List Char}
    {argument : Argument} (h : ArgumentText span s argument) (hbefore : AllBlank before)
    (hrest : Follows rest)
    (hgives : (readArgument source span
      (before ++ (argumentSource style argument ++ rest))).Gives (some argument)) :
    ArgumentPrintable style argument := by
  cases h with
  | literal text => exact hexact.covers hbefore hrest.boundary hgives
  | nested text hstart =>
      rename_i expression
      obtain ⟨hstarts, hchain⟩ := gives_nested hgives
      have hpath := text.path.2
      rw [argumentSource, trimStart_source style text hbefore] at hstarts hchain
      refine ⟨ChainText.isPrintable hexact text hrest hchain, ?_⟩
      obtain ⟨path, calls, _⟩ := expression
      rw [Expression.source, List.append_assoc] at hstarts
      exact isNestedPath_of_startsNoLiteral hpath
        (atBoundary_calls style calls hrest.boundary) hstarts

end

mutual

/-- A derived expression has all its parts at its place. -/
theorem ChainText.placed {s : List Char} {expression : Expression}
    (h : ChainText span s expression) : expression.placed span = expression := by
  cases h with
  | mk hname hchars hparse more => rw [Expression.placed, CallsText.placed more]

theorem CallsText.placed {s : List Char} {calls : List FormatterCall}
    (h : CallsText span s calls) : callsPlaced span calls = calls := by
  cases h with
  | nil => rfl
  | cons hbefore hafter first more =>
      rw [callsPlaced_cons, CallText.placed first, CallsText.placed more]

theorem CallText.placed {s : List Char} {call : FormatterCall} (h : CallText span s call) :
    callPlaced span call = call := by
  cases h with
  | bare hname | empty hname => rfl
  | arguments hname hbefore hinside list hafter => rw [callPlaced, ArgumentsText.placed list]

theorem ArgumentsText.placed {s : List Char} {arguments : List Argument}
    (h : ArgumentsText span s arguments) : argumentsPlaced span arguments = arguments := by
  cases h with
  | last only => rw [argumentsPlaced_cons, ArgumentText.placed only, argumentsPlaced]
  | cons first hbefore hafter more =>
      rw [argumentsPlaced_cons, ArgumentText.placed first, ArgumentsText.placed more]

theorem ArgumentText.placed {s : List Char} {argument : Argument}
    (h : ArgumentText span s argument) : argumentPlaced span argument = argument := by
  cases h with
  | literal text => rfl
  | nested text hstart => rw [argumentPlaced, ChainText.placed text]

end

/-- An expression that was read without an error is read back from what a style prints
exactly if the style can print it. -/
theorem read_source_iff (hexact : style.IsExact) {expression : Expression}
    (h : read source span = (expression, [])) :
    read (String.ofList (expression.source style)) span = (expression, []) ↔
      expression.IsPrintable style := by
  obtain ⟨before, s, after, -, -, -, htext⟩ := derives_read h
  constructor
  · intro hread
    obtain ⟨hvalue, hfaults⟩ := Prod.mk.inj hread
    have hnone := (List.append_eq_nil_iff.mp (List.map_eq_nil_iff.mp hfaults)).1
    have hgives : (readChain (String.ofList (expression.source style)) span
        (expression.source style ++ [])).Gives expression := by
      rw [String.toList_ofList] at hvalue hnone
      rw [List.append_nil]
      exact ⟨hvalue, hnone⟩
    exact htext.isPrintable hexact (follows_of_allBlank allBlank_nil) hgives
  · intro hprintable
    have hread := read_source style span expression hprintable allBlank_nil allBlank_nil
    rwa [List.nil_append, List.append_nil, htext.placed] at hread

/-- An expression that was read without an error is read back from its text exactly if
its literals are shown and no nested path is a keyword. -/
theorem read_text_iff {source : String} {span : Span} {expression : Expression}
    (h : read source span = (expression, [])) :
    read expression.text span = (expression, []) ↔ expression.IsPrintable .displayed := by
  rw [← read_source_iff LiteralStyle.displayed_isExact h, source_displayed, String.ofList_toList]

/-- The path `x` with a formatter applied to one literal. -/
def applied (value : Literal) (span : Span) : Expression :=
  ⟨⟨[.name "x"], "x"⟩, [⟨"f", [.literal value]⟩], span⟩

theorem read_applied {s : List Char} {value : Literal} (span : Span) (h : LiteralText s value) :
    read ("x | f(" ++ String.ofList s ++ ")") span = (applied value span, []) := by
  have hname : IsIdentifier ['f'] := ⟨by decide, List.all_eq_true.mp rfl⟩
  have hcall : CallText span _ _ := .arguments hname allBlank_nil allBlank_nil
    (.last (.literal h)) allBlank_nil
  have hpath : Path.parse (String.ofList ['x']) = .ok ⟨[.name "x"], "x"⟩ := rfl
  have hchain : ChainText span _ _ := .mk (by decide) (List.all_eq_true.mp rfl) hpath
    (.cons allBlank_space allBlank_space hcall .nil)
  have hread : read _ span = (applied value span, []) :=
    read_of_chainText allBlank_nil hchain allBlank_nil
  rw [← hread]
  congr 1
  rw [← String.toList_inj]
  simp

/-- Single quotes are displayed as double ones, and read back. -/
theorem read_text_quoted :
    let span : Span := ⟨0, 10, 1, 1⟩
    let expression := applied (.string "a\"b") span
    read "x | f('a\"b')" span = (expression, []) ∧ expression.text = "x | f(\"a\\\"b\")" ∧
      read expression.text span = (expression, []) := by
  intro span expression
  have hquoted : QuotedText '\'' ['a', '"', 'b'] ['a', '"', 'b'] :=
    .plain (by decide) (by decide) (.plain (by decide) (by decide)
      (.plain (by decide) (by decide) .nil))
  have hread := read_applied span (.string (Or.inr rfl) hquoted)
  have hshown : ∀ c ∈ "a\"b".toList, isShownChar c = true := List.all_eq_true.mp rfl
  refine ⟨hread, by decide +kernel, (read_text_iff hread).mpr ⟨rfl, ?_⟩⟩
  exact ⟨⟨by decide, List.all_eq_true.mp rfl⟩, ⟨hshown, trivial⟩, trivial⟩

/-- A whole double is displayed as an integer, and read back as one. -/
theorem read_text_whole :
    let span : Span := ⟨0, 10, 1, 1⟩
    let expression := applied (.float (.ofInt 2)) span
    read "x | f(2.0)" span = (expression, []) ∧ expression.text = "x | f(2)" ∧
      read expression.text span = (applied (.int 2) span, []) ∧
      read expression.text span ≠ (expression, []) := by
  intro span expression
  have hfloat : NumberText ['2', '.', '0'] (.float (.ofInt 2)) :=
    .mk (Or.inl rfl) (by decide) (List.all_eq_true.mp rfl) (by decide +kernel)
  have hint : NumberText ['2'] (.int 2) := LiteralStyle.numberText_toString 2
  have htext : expression.text = "x | f(2)" := by decide +kernel
  have hback : read expression.text span = (applied (.int 2) span, []) := by
    rw [htext]
    exact read_applied span (.number hint)
  refine ⟨read_applied span (.number hfloat), htext, hback, ?_⟩
  rw [hback]
  simp [expression, applied]

end Expression

end Stencil
