import Stencil.Proofs.Expression.Completeness
import Stencil.Proofs.Number.Decimal

/-!
Printing expressions. The printed text of an expression whose names and
literals can be written down is derived by the grammar, so that reading it
gives the expression back.
-/

namespace Stencil

open Text

/-- A way to write literals. It writes those that it covers as texts that
denote them. -/
structure LiteralStyle where
  write : Literal → List Char
  Covers : Literal → Prop
  denotes : ∀ value, Covers value → Expression.LiteralText (write value) value

namespace Expression

variable (style : LiteralStyle)

mutual

def source : Expression → List Char
  | ⟨path, calls, _⟩ => path.text.toList ++ callsSource calls

/-- The text of calls, each after a bar. -/
def callsSource : List FormatterCall → List Char
  | [] => []
  | ⟨name, arguments⟩ :: calls =>
      let list := if arguments.isEmpty then []
        else '(' :: (argumentsSource [] arguments ++ [')'])
      ' ' :: '|' :: ' ' :: (name.toList ++ (list ++ callsSource calls))

/-- The text of arguments. A separator stands before the first, and a comma
before each of the others. -/
def argumentsSource (separator : List Char) : List Argument → List Char
  | [] => []
  | .literal value :: arguments =>
      separator ++ (style.write value ++ argumentsSource [',', ' '] arguments)
  | .nested expression :: arguments =>
      separator ++ (expression.source ++ argumentsSource [',', ' '] arguments)

end

def argumentSource : Argument → List Char
  | .literal value => style.write value
  | .nested expression => expression.source style

def callSource : FormatterCall → List Char
  | ⟨name, arguments⟩ => name.toList ++ if arguments.isEmpty then []
      else '(' :: (argumentsSource style [] arguments ++ [')'])

theorem argumentsSource_cons (separator : List Char) (argument : Argument)
    (arguments : List Argument) :
    argumentsSource style separator (argument :: arguments) =
      separator ++
        (argumentSource style argument ++ argumentsSource style [',', ' '] arguments) := by
  cases argument <;> rw [argumentsSource, argumentSource]

theorem callsSource_cons (call : FormatterCall) (calls : List FormatterCall) :
    callsSource style (call :: calls) =
      ' ' :: '|' :: ' ' :: (callSource style call ++ callsSource style calls) := by
  obtain ⟨name, arguments⟩ := call
  rw [callsSource, callSource, List.append_assoc]

/-- The text of a path that is read as an argument is not taken for a literal. -/
structure IsNestedPath (s : List Char) : Prop where
  number : startsNumber s = false
  keyword : s ∉ keywords.map Prod.fst

mutual

/-- The parts of an expression can be written down: paths that are read back,
identifiers, and literals that the style covers. -/
def IsPrintable : Expression → Prop
  | ⟨path, calls, _⟩ => Path.parse path.text = .ok path ∧ CallsPrintable calls

def CallsPrintable : List FormatterCall → Prop
  | [] => True
  | ⟨name, arguments⟩ :: calls =>
      IsIdentifier name.toList ∧ ArgumentsPrintable arguments ∧ CallsPrintable calls

def ArgumentsPrintable : List Argument → Prop
  | [] => True
  | .literal value :: arguments => style.Covers value ∧ ArgumentsPrintable arguments
  | .nested expression :: arguments =>
      expression.IsPrintable ∧ IsNestedPath expression.path.text.toList ∧
        ArgumentsPrintable arguments

end

def ArgumentPrintable : Argument → Prop
  | .literal value => style.Covers value
  | .nested expression =>
      expression.IsPrintable style ∧ IsNestedPath expression.path.text.toList

theorem argumentsPrintable_cons (argument : Argument) (arguments : List Argument) :
    ArgumentsPrintable style (argument :: arguments) ↔
      ArgumentPrintable style argument ∧ ArgumentsPrintable style arguments := by
  cases argument with
  | literal value => rw [ArgumentsPrintable, ArgumentPrintable]
  | nested expression => rw [ArgumentsPrintable, ArgumentPrintable, and_assoc]

theorem callsPrintable_cons (call : FormatterCall) (calls : List FormatterCall) :
    CallsPrintable style (call :: calls) ↔
      (IsIdentifier call.name.toList ∧ ArgumentsPrintable style call.arguments) ∧
        CallsPrintable style calls := by
  obtain ⟨name, arguments⟩ := call
  rw [CallsPrintable, and_assoc]

mutual

/-- The expression with all its parts at one place. -/
def placed (span : Span) : Expression → Expression
  | ⟨path, calls, _⟩ => ⟨path, callsPlaced span calls, span⟩

def callsPlaced (span : Span) : List FormatterCall → List FormatterCall
  | [] => []
  | ⟨name, arguments⟩ :: calls => ⟨name, argumentsPlaced span arguments⟩ :: callsPlaced span calls

def argumentsPlaced (span : Span) : List Argument → List Argument
  | [] => []
  | .literal value :: arguments => .literal value :: argumentsPlaced span arguments
  | .nested expression :: arguments =>
      .nested (expression.placed span) :: argumentsPlaced span arguments

end

def callPlaced (span : Span) : FormatterCall → FormatterCall
  | ⟨name, arguments⟩ => ⟨name, argumentsPlaced span arguments⟩

theorem callsPlaced_cons (span : Span) (call : FormatterCall) (calls : List FormatterCall) :
    callsPlaced span (call :: calls) = callPlaced span call :: callsPlaced span calls := by
  obtain ⟨name, arguments⟩ := call
  rw [callsPlaced, callPlaced]

def argumentPlaced (span : Span) : Argument → Argument
  | .literal value => .literal value
  | .nested expression => .nested (expression.placed span)

theorem argumentsPlaced_cons (span : Span) (argument : Argument) (arguments : List Argument) :
    argumentsPlaced span (argument :: arguments) =
      argumentPlaced span argument :: argumentsPlaced span arguments := by
  cases argument <;> rw [argumentsPlaced, argumentPlaced]

mutual

theorem placed_placed (span span' : Span) :
    (expression : Expression) → (expression.placed span).placed span' = expression.placed span'
  | ⟨path, calls, _⟩ => by simp only [placed, callsPlaced_callsPlaced span span' calls]

theorem callsPlaced_callsPlaced (span span' : Span) : (calls : List FormatterCall) →
    callsPlaced span' (callsPlaced span calls) = callsPlaced span' calls
  | [] => rfl
  | ⟨name, arguments⟩ :: calls => by
      simp only [callsPlaced, argumentsPlaced_argumentsPlaced span span' arguments,
        callsPlaced_callsPlaced span span' calls]

theorem argumentsPlaced_argumentsPlaced (span span' : Span) : (arguments : List Argument) →
    argumentsPlaced span' (argumentsPlaced span arguments) = argumentsPlaced span' arguments
  | [] => rfl
  | .literal value :: arguments => by
      simp only [argumentsPlaced, argumentsPlaced_argumentsPlaced span span' arguments]
  | .nested expression :: arguments => by
      simp only [argumentsPlaced, placed_placed span span' expression,
        argumentsPlaced_argumentsPlaced span span' arguments]

end

theorem atBoundary_callsSource (calls : List FormatterCall) :
    atBoundary (callsSource style calls) = true := by
  cases calls with
  | nil => rfl
  | cons call calls =>
      obtain ⟨name, arguments⟩ := call
      rfl

/-- A path that may be an argument starts no literal, whatever calls follow. -/
theorem IsNestedPath.startsNoLiteral {s rest : List Char} (h : IsNestedPath s)
    (htext : Path.IsPathText s) (hrest : atBoundary rest = true) :
    StartsNoLiteral (s ++ rest) := by
  refine ⟨(startsNumber_append htext.nonempty hrest).trans h.number, ?_⟩
  rw [keyword?_append hrest, keyword?, List.findSome?_eq_none_iff]
  rintro ⟨word, value⟩ hmem
  apply if_neg
  intro hword
  rw [Bool.and_eq_true, List.isPrefixOf_iff_prefix] at hword
  obtain ⟨⟨more, rfl⟩, hend⟩ := hword
  rw [List.drop_left] at hend
  cases more with
  | nil =>
      apply h.keyword
      rw [List.append_nil]
      exact List.mem_map_of_mem hmem
  | cons c more =>
      have hc := htext.chars c (by simp)
      have hstop := not_mem_of_atBoundary hend not_isPathChar_of_isBlank rfl rfl c rfl
      rw [hc] at hstop
      cases hstop

theorem argumentsSource_separated {separator : List Char} {arguments : List Argument}
    (hsome : arguments ≠ []) :
    argumentsSource style separator arguments =
      separator ++ argumentsSource style [] arguments := by
  obtain ⟨argument, arguments, rfl⟩ := List.exists_cons_of_ne_nil hsome
  rw [argumentsSource_cons, argumentsSource_cons, List.nil_append]

theorem ArgumentsText.consPrinted {span : Span} {s : List Char} {argument : Argument}
    {arguments placed : List Argument} (first : ArgumentText span s argument)
    (hempty : arguments = [] → placed = [])
    (more : arguments ≠ [] → ArgumentsText span (argumentsSource style [] arguments) placed) :
    ArgumentsText span (s ++ argumentsSource style [',', ' '] arguments)
      (argument :: placed) := by
  by_cases hsome : arguments = []
  · rw [hempty hsome, hsome, argumentsSource, List.append_nil]
    exact .last first
  · rw [argumentsSource_separated style hsome]
    exact .cons first allBlank_nil allBlank_space (more hsome)

mutual

/-- The grammar derives the printed text of an expression. -/
theorem chainText_source (span : Span) : (expression : Expression) →
    IsPrintable style expression →
      ChainText span (source style expression) (expression.placed span)
  | ⟨path, calls, _⟩, ⟨hpath, hcalls⟩ => by
      obtain ⟨-, htext⟩ := Path.isPathText_of_parse hpath
      rw [← String.ofList_toList (s := path.text)] at hpath
      exact .mk htext.nonempty htext.chars (by simpa using hpath)
        (callsText_source span calls hcalls)

theorem callText_source (span : Span) : (call : FormatterCall) →
    IsIdentifier call.name.toList → ArgumentsPrintable style call.arguments →
      CallText span (callSource style call) (callPlaced span call)
  | ⟨name, arguments⟩, hname, harguments => by
      by_cases hsome : arguments = []
      · have h : CallText span _ _ := .bare hname
        rw [String.ofList_toList] at h
        simpa [callSource, callPlaced, hsome, argumentsPlaced] using h
      · have h := CallText.arguments hname allBlank_nil allBlank_nil
          (argumentsText_source span arguments harguments hsome) allBlank_nil
        rw [String.ofList_toList] at h
        simpa [callSource, callPlaced, hsome] using h

theorem callsText_source (span : Span) : (calls : List FormatterCall) →
    CallsPrintable style calls →
      CallsText span (callsSource style calls) (callsPlaced span calls)
  | [], _ => .nil
  | call :: calls, hall => by
      obtain ⟨⟨hname, harguments⟩, hcalls⟩ := (callsPrintable_cons style call calls).mp hall
      rw [callsSource_cons, callsPlaced_cons]
      exact .cons allBlank_space allBlank_space (callText_source span call hname harguments)
        (callsText_source span calls hcalls)

theorem argumentText_source (span : Span) : (argument : Argument) →
    ArgumentPrintable style argument →
      ArgumentText span (argumentSource style argument) (argumentPlaced span argument)
  | .literal value, hvalue => .literal (style.denotes value hvalue)
  | .nested expression, ⟨hexpression, hpath⟩ => by
      refine .nested (chainText_source span expression hexpression) ?_
      obtain ⟨path, calls, _⟩ := expression
      exact hpath.startsNoLiteral (Path.isPathText_of_parse hexpression.1).2
        (atBoundary_callsSource style calls)

theorem argumentsText_source (span : Span) : (arguments : List Argument) →
    ArgumentsPrintable style arguments → arguments ≠ [] →
      ArgumentsText span (argumentsSource style [] arguments) (argumentsPlaced span arguments)
  | [], _, hsome => absurd rfl hsome
  | argument :: arguments, hall, _ => by
      obtain ⟨hargument, hmore⟩ := (argumentsPrintable_cons style argument arguments).mp hall
      rw [argumentsSource_cons, argumentsPlaced_cons, List.nil_append]
      refine ArgumentsText.consPrinted style (argumentText_source span argument hargument) ?_
        (argumentsText_source span arguments hmore)
      rintro rfl
      rfl

end

/-- Reading the printed text of an expression gives the expression back, at the
place of the text. -/
theorem read_source {before after : List Char} (span : Span) (expression : Expression)
    (h : expression.IsPrintable style) (hbefore : AllBlank before) (hafter : AllBlank after) :
    read (String.ofList (before ++ (expression.source style ++ after))) span =
      (expression.placed span, []) :=
  read_of_chainText hbefore (chainText_source style span expression h) hafter

end Expression

namespace LiteralStyle

open Expression

/-- A character of a string in double quotes. -/
def quoteMark (c : Char) : List Char :=
  if c = '"' ∨ c = '\\' then ['\\', c] else [c]

/-- Keywords, numbers in decimal, and strings in double quotes. -/
def plainText : Literal → List Char
  | .null => ['n', 'u', 'l', 'l']
  | .bool true => ['t', 'r', 'u', 'e']
  | .bool false => ['f', 'a', 'l', 's', 'e']
  | .int i => (toString i.toInt).toList
  | .float x => x.text.toList
  | .string s => '"' :: (s.toList.flatMap quoteMark ++ ['"'])

def IsPlain : Literal → Prop
  | .float _ => False
  | _ => True

theorem quotedText_quoteMark (s : List Char) : QuotedText '"' (s.flatMap quoteMark) s := by
  induction s with
  | nil => exact .nil
  | cons c s ih =>
      rw [List.flatMap_cons, quoteMark]
      split
      · rename_i hc
        have hsame : unescape c = c := by rcases hc with rfl | rfl <;> rfl
        have h := QuotedText.escaped c ih
        rwa [hsame] at h
      · rename_i hc
        rw [not_or] at hc
        exact .plain hc.1 hc.2 ih

theorem numberText_toString (i : Int64) : NumberText (toString i.toInt).toList (.int i) := by
  have hvalue : numberOf? ((toString i.toInt).toList.filter (· != '_')) = some (.int i) := by
    have hnone : ∀ c ∈ (toString i.toInt).toList, (c != '_') = true := by
      intro c hc
      rw [Numeral.toList_toString] at hc
      rcases List.mem_append.mp hc with hsign | hdigit
      · split at hsign
        · rw [List.mem_singleton.mp hsign]
          rfl
        · cases hsign
      · have hisDigit := Numeral.isDigit_of_mem_toDigits c hdigit
        rw [bne_iff_ne]
        rintro rfl
        cases hisDigit
    rw [List.filter_eq_self.mpr hnone, numberOf?, Numeral.signed?_toString]
    rfl
  rw [Numeral.toList_toString] at hvalue ⊢
  refine .mk ?_ ?_ ?_ hvalue
  · split
    · exact Or.inr rfl
    · exact Or.inl rfl
  · obtain ⟨d, digits, hdigits, hd⟩ := Numeral.toDigits_cons i.toInt.natAbs
    rw [hdigits]
    split <;> simp [startsNumber, hd]
  · intro c hc
    simp [isNumberChar, Numeral.isDigit_of_mem_toDigits c hc]

/-- Literals that are not doubles are written as they are read. -/
def plain : LiteralStyle where
  write := plainText
  Covers := IsPlain
  denotes := by
    intro value hplain
    cases value with
    | null => exact .keyword (by simp [keywords, plainText])
    | bool b => cases b <;> exact .keyword (by simp [keywords, plainText])
    | int i => exact .number (numberText_toString i)
    | float x => exact hplain.elim
    | string s =>
        have h := LiteralText.string (Or.inl rfl) (quotedText_quoteMark s.toList)
        rwa [String.ofList_toList] at h

end LiteralStyle

end Stencil
