import Stencil.Proofs.Formatter.Conformity

/-!
The standard formatters take their values apart without asking for their types: where a
value is of another type, or an argument is missing, they fall back on something. Here
the fallbacks are a parameter, and no call by name depends on it.
-/

namespace Stencil.Formatter.Standard

/-- What the standard formatters fall back on for values that are not of the type they
expect, and for a first argument that is missing. -/
structure Fallback where
  items : Value → List Value
  chars : Value → List Char
  size : Value → Value
  separator : Value → String
  width : Value → Except FormatterError Nat
  integers : Value → Value → Except FormatterError Value
  numbers : Value → Value → Except FormatterError Value
  argument : Except FormatterError Value

namespace Fallback

/-- What they do fall back on. -/
def given : Fallback where
  items _ := []
  chars _ := []
  size _ := .int 0
  separator _ := ", "
  width value := .error (.widthType value.typeName)
  integers _ _ := .error .notIntegers
  numbers _ _ := .error .notNumbers
  argument := .error .missingArgument

def itemsOf (fallback : Fallback) : Value → List Value
  | .list items => items
  | value => fallback.items value

def charsOf (fallback : Fallback) : Value → List Char
  | .string s => s.toList
  | value => fallback.chars value

def sizeOf (fallback : Fallback) : Value → Value
  | .map entries => .ofNat entries.length
  | value => fallback.size value

def separatorOf (fallback : Fallback) : List Value → String
  | [] => ", "
  | .string s :: _ => s
  | value :: _ => fallback.separator value

def widthOf (fallback : Fallback) : Value → Except FormatterError Nat
  | .int i => Standard.width (.int i)
  | value => fallback.width value

def fillOf (fallback : Fallback) : Option Value → Except FormatterError Char
  | none => .ok ' '
  | some value => match fallback.charsOf value with
    | [c] => .ok c
    | s => .error (.fillLength (String.ofList s))

def firstOf (fallback : Fallback) (arguments : List Value) : Except FormatterError Value :=
  arguments[0]?.elim fallback.argument .ok

def padLeft (fallback : Fallback) (value : Value) (arguments : List Value) :
    Except FormatterError Value := do
  let text := fallback.charsOf value
  let width ← fallback.widthOf (← fallback.firstOf arguments)
  let fill ← fallback.fillOf arguments[1]?
  pure (ofChars (List.replicate (width - text.length) fill ++ text))

def truncate (fallback : Fallback) (value : Value) (arguments : List Value) :
    Except FormatterError Value := do
  let text := fallback.charsOf value
  let width ← fallback.widthOf (← fallback.firstOf arguments)
  if text.length ≤ width then pure (ofChars text)
  else pure (ofChars (text.take width ++ (arguments[1]?.map fallback.charsOf).getD []))

def onFirst (fallback : Fallback) (body : Value → Value → Except FormatterError Value)
    (value : Value) (arguments : List Value) : Reply :=
  match arguments with
  | argument :: _ => ⟨body value argument, false⟩
  | [] => ⟨fallback.argument, false⟩

def addIntegers (fallback : Fallback) : Value → Value → Except FormatterError Value
  | .int a, .int b => sum a b
  | a, b => fallback.integers a b

def addNumbers (fallback : Fallback) : Value → Value → Except FormatterError Value
  | .float a, .float b => .ok (.float (a.add b))
  | a, b => fallback.numbers a b

end Fallback

/-- A formatter that takes no arguments and does not fail. -/
def unary (name : String) (source : ParamType) (body : Value → Value) : Formatter :=
  ⟨name, ⟨source, [], 0, none⟩, fun value _ => .value (body value)⟩

open Fallback in
/-- The standard formatters with these fallbacks, in the order of their registration. -/
def withFallback (fallback : Fallback) : List Formatter := [
  unary "upper" .any fun value => .string (Text.upper (textOf value)),
  unary "lower" .any fun value => .string (Text.lower (textOf value)),
  unary "trim" .any fun value => ofChars (Text.trim (textOf value).toList),
  unary "length" .string fun value => .ofNat (fallback.charsOf value).length,
  unary "length" .list fun value => .ofNat (fallback.itemsOf value).length,
  unary "length" .map fallback.sizeOf,
  ⟨"join", ⟨.list, [.string], 1, none⟩, fun value arguments =>
    let texts := (fallback.itemsOf value).map textOf
    .value (.string (String.intercalate (fallback.separatorOf arguments) texts))⟩,
  ⟨"default", ⟨.any, [.any], 0, none⟩, fallback.onFirst fun value other =>
    .ok (orDefault value other)⟩,
  ⟨"add", ⟨.int, [.int], 0, none⟩, fallback.onFirst fallback.addIntegers⟩,
  ⟨"add", ⟨.float, [.float], 0, none⟩, fallback.onFirst fallback.addNumbers⟩,
  ⟨"equals", ⟨.any, [.any], 0, none⟩, fallback.onFirst fun value other =>
    .ok (.bool (value.equals other))⟩,
  unary "not" .any fun value => .bool !value.isTruthy,
  unary "first" .list fun value => (fallback.itemsOf value).head?.getD .null,
  unary "first" .string fun value => ofChar? (fallback.charsOf value).head?,
  unary "last" .list fun value => (fallback.itemsOf value).getLast?.getD .null,
  unary "last" .string fun value => ofChar? (fallback.charsOf value).getLast?,
  unary "reverse" .list fun value => .list (fallback.itemsOf value).reverse,
  unary "reverse" .string fun value => ofChars (fallback.charsOf value).reverse,
  ⟨"pad_left", ⟨.string, [.int, .string], 1, none⟩, fun value arguments =>
    ⟨fallback.padLeft value arguments, false⟩⟩,
  ⟨"truncate", ⟨.string, [.int, .string], 1, none⟩, fun value arguments =>
    ⟨fallback.truncate value arguments, false⟩⟩,
  unary "html_escape" .string fun value =>
    .string (Html.escape (String.ofList (fallback.charsOf value)))]

theorem charsOf_given : Fallback.given.charsOf = charsOf := by
  funext value
  cases value <;> rfl

theorem itemsOf_given : Fallback.given.itemsOf = itemsOf := by
  funext value
  cases value <;> rfl

theorem separatorOf_given (arguments : List Value) :
    Fallback.given.separatorOf arguments = (arguments.head?.bind Value.string?).getD ", " := by
  cases arguments with
  | nil => rfl
  | cons argument arguments => cases argument <;> rfl

theorem widthOf_given : Fallback.given.widthOf = width := by
  funext value
  cases value <;> rfl

theorem fillOf_given : Fallback.given.fillOf = fill := by
  funext value
  cases value with
  | none => rfl
  | some value =>
      exact congrArg (fun s : List Char => (match s with
        | [c] => .ok c
        | s => .error (.fillLength (String.ofList s)) : Except FormatterError Char))
        (congrFun charsOf_given value)

theorem padLeft_given : Fallback.given.padLeft = padLeft := by
  funext value arguments
  unfold Fallback.padLeft padLeft
  simp only [charsOf_given, widthOf_given, fillOf_given]
  rfl

theorem truncate_given : Fallback.given.truncate = truncate := by
  funext value arguments
  unfold Fallback.truncate truncate
  simp only [charsOf_given, widthOf_given]
  rfl

theorem withFallback_given : withFallback .given = all := by
  simp only [withFallback, charsOf_given, itemsOf_given, separatorOf_given, padLeft_given,
    truncate_given]
  rfl

end Stencil.Formatter.Standard

namespace Stencil

/-- The faults of the standard formatters with values of types that they do not expect. -/
def FormatterError.isTypeFault : FormatterError → Bool
  | missingArgument | notIntegers | notNumbers | widthType _ => true
  | notConvertible .. | tooManyArguments | sumOverflow .. | negativeWidth _ | fillLength _
  | failed _ => false

namespace ParamType

variable {value : Value}

theorem Conforms.int (h : int.Conforms value) : ∃ i, value = .int i := by
  cases value with
  | int i => exact ⟨i, rfl⟩
  | null | bool | float | string | list | map | object => cases h

theorem Conforms.float (h : float.Conforms value) : ∃ x, value = .float x := by
  cases value with
  | float x => exact ⟨x, rfl⟩
  | null | bool | int | string | list | map | object => cases h

theorem Conforms.string (h : string.Conforms value) : ∃ s, value = .string s := by
  cases value with
  | string s => exact ⟨s, rfl⟩
  | null | bool | int | float | list | map | object => cases h

theorem Conforms.list (h : list.Conforms value) : ∃ items, value = .list items := by
  cases value with
  | list items => exact ⟨items, rfl⟩
  | null | bool | int | float | string | map | object => cases h

theorem Conforms.map (h : map.Conforms value) : ∃ entries, value = .map entries := by
  cases value with
  | map entries => exact ⟨entries, rfl⟩
  | null | bool | int | float | string | list | object => cases h

end ParamType

namespace Signature.Admits

variable {of first second : ParamType} {source : Value} {arguments : List Value}

theorem conforms {signature : Signature} {param : ParamType} {argument : Value}
    (h : signature.Admits source arguments) (position : Nat)
    (hargument : arguments[position]? = some argument)
    (hparam : signature.paramAt? position = some param) : param.Conforms argument := by
  obtain ⟨_, hparam', hconforms⟩ := h.conform.ofArguments position argument hargument
  rw [Nat.zero_add, hparam] at hparam'
  obtain rfl := Option.some.inj hparam'
  exact hconforms

/-- One argument that cannot be left out. -/
theorem one (h : Admits ⟨of, [first], 0, none⟩ source arguments) :
    ∃ argument, arguments = [argument] ∧ first.Conforms argument := by
  rcases arguments with _ | ⟨argument, _ | ⟨other, rest⟩⟩
  · cases h.arity
  · exact ⟨argument, rfl, h.conforms 0 rfl rfl⟩
  · cases h.arity

/-- One argument that can be left out. -/
theorem atMostOne (h : Admits ⟨of, [first], 1, none⟩ source arguments) :
    arguments = [] ∨ ∃ argument, arguments = [argument] ∧ first.Conforms argument := by
  rcases arguments with _ | ⟨argument, _ | ⟨other, rest⟩⟩
  · exact Or.inl rfl
  · exact Or.inr ⟨argument, rfl, h.conforms 0 rfl rfl⟩
  · cases h.arity

/-- Two arguments of which the second can be left out. -/
theorem oneOrTwo (h : Admits ⟨of, [first, second], 1, none⟩ source arguments) :
    ∃ argument, first.Conforms argument ∧
      (arguments = [argument] ∨
        ∃ other, arguments = [argument, other] ∧ second.Conforms other) := by
  rcases arguments with _ | ⟨argument, _ | ⟨other, _ | ⟨more, rest⟩⟩⟩
  · cases h.arity
  · exact ⟨argument, h.conforms 0 rfl rfl, Or.inl rfl⟩
  · exact ⟨argument, h.conforms 0 rfl rfl, Or.inr ⟨other, rfl, h.conforms 1 rfl rfl⟩⟩
  · cases h.arity

end Signature.Admits

namespace Formatter

/-- Two overloads of one name and signature, with the same replies to all that the signature
admits, none of them a type fault. -/
structure Agrees (formatter other : Formatter) : Prop where
  sameName : other.name = formatter.name
  sameSignature : other.signature = formatter.signature
  sameReply : ∀ source arguments, formatter.signature.Admits source arguments →
    other.body source arguments = formatter.body source arguments
  sound : ∀ source arguments, formatter.signature.Admits source arguments →
    ∀ cause, (formatter.body source arguments).result = .error cause → cause.isTypeFault = false

namespace Standard

variable {fallback other : Fallback}

theorem agrees_unary (name : String) {source : ParamType} {body body' : Value → Value}
    (h : ∀ value, source.Conforms value → body' value = body value) :
    (unary name source body).Agrees (unary name source body') where
  sameName := rfl
  sameSignature := rfl
  sameReply value arguments hadmits := by
    unfold unary
    simp only [h value hadmits.conform.ofSource]
  sound value arguments hadmits := nofun

/-- Bodies that take text apart. -/
theorem agrees_chars (name : String) (body : List Char → Value) :
    (unary name .string fun value => body (fallback.charsOf value)).Agrees
      (unary name .string fun value => body (other.charsOf value)) := by
  apply agrees_unary
  intro value hvalue
  obtain ⟨s, rfl⟩ := hvalue.string
  rfl

/-- Bodies that take lists apart. -/
theorem agrees_items (name : String) (body : List Value → Value) :
    (unary name .list fun value => body (fallback.itemsOf value)).Agrees
      (unary name .list fun value => body (other.itemsOf value)) := by
  apply agrees_unary
  intro value hvalue
  obtain ⟨items, rfl⟩ := hvalue.list
  rfl

/-- Bodies that need their first argument. -/
theorem agrees_onFirst (name : String) {source first : ParamType}
    {body body' : Value → Value → Except FormatterError Value}
    (h : ∀ value argument, source.Conforms value → first.Conforms argument →
      body' value argument = body value argument ∧
        ∀ cause, body value argument = .error cause → cause.isTypeFault = false) :
    Agrees ⟨name, ⟨source, [first], 0, none⟩, fallback.onFirst body⟩
      ⟨name, ⟨source, [first], 0, none⟩, other.onFirst body'⟩ where
  sameName := rfl
  sameSignature := rfl
  sameReply value arguments hadmits := by
    obtain ⟨argument, rfl, hargument⟩ := hadmits.one
    simp only [Fallback.onFirst, (h value argument hadmits.conform.ofSource hargument).1]
  sound value arguments hadmits := by
    obtain ⟨argument, rfl, hargument⟩ := hadmits.one
    exact (h value argument hadmits.conform.ofSource hargument).2

theorem agrees_join : Agrees
    ⟨"join", ⟨.list, [.string], 1, none⟩, fun value arguments =>
      .value (.string (String.intercalate (fallback.separatorOf arguments)
        ((fallback.itemsOf value).map textOf)))⟩
    ⟨"join", ⟨.list, [.string], 1, none⟩, fun value arguments =>
      .value (.string (String.intercalate (other.separatorOf arguments)
        ((other.itemsOf value).map textOf)))⟩ where
  sameName := rfl
  sameSignature := rfl
  sameReply value arguments hadmits := by
    obtain ⟨items, rfl⟩ := hadmits.conform.ofSource.list
    rcases hadmits.atMostOne with rfl | ⟨argument, rfl, hargument⟩
    · rfl
    · obtain ⟨s, rfl⟩ := hargument.string
      rfl
  sound value arguments hadmits := nofun

theorem sum_sound (a b : Int64) (cause : FormatterError) (h : sum a b = .error cause) :
    cause.isTypeFault = false := by
  unfold sum at h
  split at h
  · cases h
  · obtain rfl := Except.error.inj h
    rfl

theorem agrees_addIntegers : Agrees
    ⟨"add", ⟨.int, [.int], 0, none⟩, fallback.onFirst fallback.addIntegers⟩
    ⟨"add", ⟨.int, [.int], 0, none⟩, other.onFirst other.addIntegers⟩ := by
  apply agrees_onFirst
  intro value argument hvalue hargument
  obtain ⟨a, rfl⟩ := hvalue.int
  obtain ⟨b, rfl⟩ := hargument.int
  exact ⟨rfl, sum_sound a b⟩

theorem agrees_addNumbers : Agrees
    ⟨"add", ⟨.float, [.float], 0, none⟩, fallback.onFirst fallback.addNumbers⟩
    ⟨"add", ⟨.float, [.float], 0, none⟩, other.onFirst other.addNumbers⟩ := by
  apply agrees_onFirst
  intro value argument hvalue hargument
  obtain ⟨a, rfl⟩ := hvalue.float
  obtain ⟨b, rfl⟩ := hargument.float
  exact ⟨rfl, nofun⟩

/-- An integer is a width unless it is negative. -/
theorem width_sound (i : Int64) (cause : FormatterError) (h : width (.int i) = .error cause) :
    cause.isTypeFault = false := by
  unfold width at h
  split at h
  · split at h
    · cases h
    · obtain rfl := Except.error.inj h
      rfl
  · rename_i notInt
    exact absurd rfl (notInt i)

/-- Text fills if it is one character. -/
theorem fillOf_sound (filling : Option Value) (cause : FormatterError)
    (h : fallback.fillOf filling = .error cause) : cause.isTypeFault = false := by
  unfold Fallback.fillOf at h
  split at h
  · cases h
  · split at h
    · cases h
    · obtain rfl := Except.error.inj h
      rfl

/-- A width and what else is made of it fail where one of them does. -/
theorem widthOf_bind_sound (i : Int64) {next : Nat → Except FormatterError Value}
    (hnext : ∀ width cause, next width = .error cause → cause.isTypeFault = false)
    (cause : FormatterError) (h : (width (.int i) >>= next) = .error cause) :
    cause.isTypeFault = false := by
  cases hwidth : width (.int i) with
  | error found =>
      rw [hwidth] at h
      obtain rfl := Except.error.inj h
      exact width_sound i found hwidth
  | ok n =>
      rw [hwidth] at h
      exact hnext n cause h

/-- Bodies that need text, a width and at most one more text. -/
theorem agrees_width (name : String) (body body' : Value → List Value → Except FormatterError Value)
    (reply : ∀ s i, body' (.string s) [.int i] = body (.string s) [.int i] ∧
      ∀ t, body' (.string s) [.int i, .string t] = body (.string s) [.int i, .string t])
    (sound : ∀ s i rest cause, body (.string s) (.int i :: rest) = .error cause →
      cause.isTypeFault = false) :
    Agrees ⟨name, ⟨.string, [.int, .string], 1, none⟩, fun value arguments =>
        ⟨body value arguments, false⟩⟩
      ⟨name, ⟨.string, [.int, .string], 1, none⟩, fun value arguments =>
        ⟨body' value arguments, false⟩⟩ where
  sameName := rfl
  sameSignature := rfl
  sameReply value arguments hadmits := by
    obtain ⟨s, rfl⟩ := hadmits.conform.ofSource.string
    obtain ⟨argument, hargument, hrest⟩ := hadmits.oneOrTwo
    obtain ⟨i, rfl⟩ := hargument.int
    rcases hrest with rfl | ⟨text, rfl, htext⟩
    · simp only [(reply s i).1]
    · obtain ⟨t, rfl⟩ := htext.string
      simp only [(reply s i).2 t]
  sound value arguments hadmits := by
    obtain ⟨s, rfl⟩ := hadmits.conform.ofSource.string
    obtain ⟨argument, hargument, hrest⟩ := hadmits.oneOrTwo
    obtain ⟨i, rfl⟩ := hargument.int
    rcases hrest with rfl | ⟨text, rfl, -⟩
    · exact sound s i []
    · exact sound s i [text]

theorem agrees_padLeft : Agrees
    ⟨"pad_left", ⟨.string, [.int, .string], 1, none⟩, fun value arguments =>
      ⟨fallback.padLeft value arguments, false⟩⟩
    ⟨"pad_left", ⟨.string, [.int, .string], 1, none⟩, fun value arguments =>
      ⟨other.padLeft value arguments, false⟩⟩ := by
  apply agrees_width
  · exact fun s i => ⟨rfl, fun t => rfl⟩
  · intro s i rest
    apply widthOf_bind_sound i
    intro n cause hcause
    cases hfill : fallback.fillOf (.int i :: rest)[1]? with
    | error found =>
        rw [hfill] at hcause
        obtain rfl := Except.error.inj hcause
        exact fillOf_sound _ found hfill
    | ok c =>
        rw [hfill] at hcause
        cases hcause

theorem agrees_truncate : Agrees
    ⟨"truncate", ⟨.string, [.int, .string], 1, none⟩, fun value arguments =>
      ⟨fallback.truncate value arguments, false⟩⟩
    ⟨"truncate", ⟨.string, [.int, .string], 1, none⟩, fun value arguments =>
      ⟨other.truncate value arguments, false⟩⟩ := by
  apply agrees_width
  · exact fun s i => ⟨rfl, fun t => rfl⟩
  · intro s i rest
    apply widthOf_bind_sound i
    intro n cause hcause
    split at hcause <;> cases hcause

/-- Whatever they fall back on, the standard formatters agree where they are admitted. -/
theorem agrees_withFallback (fallback other : Fallback) :
    List.Forall₂ Agrees (withFallback fallback) (withFallback other) := by
  have hsame (name : String) (source : ParamType) (body : Value → Value) :
      (unary name source body).Agrees (unary name source body) :=
    agrees_unary name fun _ _ => rfl
  have hsize : (unary "length" .map fallback.sizeOf).Agrees
      (unary "length" .map other.sizeOf) := by
    apply agrees_unary
    intro value hvalue
    obtain ⟨entries, rfl⟩ := hvalue.map
    rfl
  have htotal (name : String) (body : Value → Value → Value) :
      Agrees ⟨name, ⟨.any, [.any], 0, none⟩, fallback.onFirst fun a b => .ok (body a b)⟩
        ⟨name, ⟨.any, [.any], 0, none⟩, other.onFirst fun a b => .ok (body a b)⟩ :=
    agrees_onFirst name fun _ _ _ _ => ⟨rfl, nofun⟩
  unfold withFallback
  simp only [List.forall₂_cons, List.forall₂_nil_left_iff, and_true]
  exact ⟨hsame _ _ _, hsame _ _ _, hsame _ _ _, agrees_chars _ fun s => .ofNat s.length,
    agrees_items _ fun items => .ofNat items.length, hsize, agrees_join, htotal _ _,
    agrees_addIntegers, agrees_addNumbers, htotal _ _, hsame _ _ _,
    agrees_items _ fun items => items.head?.getD .null, agrees_chars _ fun s => ofChar? s.head?,
    agrees_items _ fun items => items.getLast?.getD .null,
    agrees_chars _ fun s => ofChar? s.getLast?, agrees_items _ fun items => .list items.reverse,
    agrees_chars _ fun s => ofChars s.reverse, agrees_padLeft, agrees_truncate,
    agrees_chars _ fun s => .string (Html.escape (String.ofList s))⟩

end Standard

end Formatter

/-- A value that is not converted is no type fault of a body. -/
theorem ParamType.convert_sound {param : ParamType} {value : Value} {cause : FormatterError}
    (h : param.convert value = .error cause) : cause.isTypeFault = false := by
  unfold convert at h
  split at h
  · cases h
  · obtain rfl := Except.error.inj h
    rfl

theorem Signature.convertFrom_sound {signature : Signature} {position : Nat}
    {arguments : List Value} {cause : FormatterError}
    (h : signature.convertFrom position arguments = .error cause) : cause.isTypeFault = false := by
  induction arguments generalizing position with
  | nil => cases h
  | cons argument arguments ih =>
      rw [convertFrom] at h
      cases hparam : signature.paramAt? position with
      | none =>
          rw [hparam] at h
          obtain rfl := Except.error.inj h
          rfl
      | some param =>
          rw [hparam] at h
          cases hfirst : param.convert argument with
          | error found =>
              simp only [hfirst] at h
              obtain rfl := Except.error.inj h
              exact ParamType.convert_sound hfirst
          | ok first =>
              simp only [hfirst] at h
              cases hothers : signature.convertFrom (position + 1) arguments with
              | error found =>
                  rw [hothers] at h
                  obtain rfl := Except.error.inj h
                  exact ih hothers
              | ok others =>
                  rw [hothers] at h
                  cases h

namespace Registry

open Formatter.Standard

variable {registry : Registry} {name : String} {source : Value} {arguments : List Value}
  {formatter other : Formatter}

/-- Formatters that agree where they are admitted stand for each other. -/
theorem standsFor_of_agrees (h : formatter.Agrees other) :
    registry.StandsFor name source arguments formatter other where
  sameName := h.sameName
  sameSignature := h.sameSignature
  sameReply source' arguments' hreaches :=
    h.sameReply source' arguments' hreaches.receives.admitted

theorem invoke_withFallback (fallback : Fallback) (name : String) (source : Value)
    (arguments : List Value) :
    (⟨withFallback fallback⟩ : Registry).invoke name source arguments =
      standard.invoke name source arguments := by
  apply invoke_congr
  have hall : standard.formatters = withFallback .given := withFallback_given.symm
  rw [hall]
  exact (agrees_withFallback .given fallback).imp fun _ _ => standsFor_of_agrees

theorem select_eq_error {cause : CallError}
    (h : registry.select name source arguments = .error cause) :
    cause = .unresolved name (callText source arguments) := by
  unfold select at h
  split at h
  · cases h
  · exact (Except.error.inj h).symm

/-- The reply of a standard formatter that is selected is no type fault. -/
theorem call_sound (hselect : standard.select name source arguments = .ok formatter)
    {cause : FormatterError} (h : (formatter.call source arguments).result = .error cause) :
    cause.isTypeFault = false := by
  cases hsource : formatter.signature.source.convert source with
  | error found =>
      simp only [Formatter.call, hsource] at h
      obtain rfl := Except.error.inj h
      exact ParamType.convert_sound hsource
  | ok source' =>
      cases harguments : formatter.signature.convertFrom 0 arguments with
      | error found =>
          simp only [Formatter.call, hsource, harguments] at h
          obtain rfl := Except.error.inj h
          exact Signature.convertFrom_sound harguments
      | ok arguments' =>
          have hreaches : standard.Reaches name source arguments formatter source' arguments' :=
            ⟨hselect, hsource, harguments⟩
          have hmem : formatter ∈ withFallback .given := by
            rw [withFallback_given]
            exact (List.mem_filter.mp (fits_of_select hselect).1).1
          have hagrees := List.forall₂_same.mp (agrees_withFallback .given .given) formatter hmem
          rw [call_of_reaches hreaches] at h
          exact hagrees.sound source' arguments' hreaches.receives.admitted cause h

theorem invoke_sound {cause : FormatterError}
    (h : (standard.invoke name source arguments).1 = .error (.failed name cause)) :
    cause.isTypeFault = false := by
  unfold invoke at h
  cases hselect : standard.select name source arguments with
  | error found =>
      rw [hselect] at h
      cases (select_eq_error hselect).symm.trans (Except.error.inj h)
  | ok formatter =>
      rw [hselect] at h
      simp only at h
      split at h
      · cases h
      · rename_i found hresult
        obtain rfl : found = cause := by
          cases h
          rfl
        exact call_sound hselect hresult

/-- A body that a call reaches replies for it, and it is given as many arguments as its
signature admits, and the source and each argument as a value of the type that is declared
for it. Bodies that differ elsewhere make no difference. So the standard formatters never
fall back on anything for a missing argument or a value of another type. -/
theorem bodies_receive_declared_types (registry : Registry) (name : String) (source : Value)
    (arguments : List Value) :
    (∀ formatter source' arguments',
      registry.Reaches name source arguments formatter source' arguments' →
        formatter ∈ registry.candidates name ∧
        formatter.signature.Receives source arguments source' arguments' ∧
        formatter.call source arguments = formatter.body source' arguments') ∧
    (∀ other : Registry,
      List.Forall₂ (registry.StandsFor name source arguments) registry.formatters
        other.formatters →
      other.invoke name source arguments = registry.invoke name source arguments) ∧
    (∀ fallback, (⟨withFallback fallback⟩ : Registry).invoke name source arguments =
      standard.invoke name source arguments) ∧
    ∀ cause, (standard.invoke name source arguments).1 = .error (.failed name cause) →
      cause.isTypeFault = false := by
  refine ⟨?_, fun other => invoke_congr,
    fun fallback => invoke_withFallback fallback name source arguments, fun cause => invoke_sound⟩
  intro formatter source' arguments' hreaches
  exact ⟨(fits_of_select hreaches.selected).1, hreaches.receives, call_of_reaches hreaches⟩

/-- An integer is filled up as text, and a negative width is refused as a width. -/
theorem padLeft_receives_text :
    let source := Value.int 42
    let padLeft := standard.formatters[18]
    let strict : Fallback := { Fallback.given with argument := .error (.failed "no argument") }
    (standard.Reaches "pad_left" source [.int 4] padLeft (.string "42") [.int 4] ∧
      padLeft.signature.Receives source [.int 4] (.string "42") [.int 4]) ∧
    (⟨withFallback strict⟩ : Registry).invoke "pad_left" source [.int (-1)] =
      standard.invoke "pad_left" source [.int (-1)] ∧
    (standard.invoke "pad_left" source [.int (-1)]).1 =
      .error (.failed "pad_left" (.negativeWidth (-1))) ∧
    (FormatterError.negativeWidth (-1)).isTypeFault = false := by
  intro source padLeft strict
  have honly : standard.candidates "pad_left" = [padLeft] := rfl
  have hselect (argument : Value) (hfits : (padLeft.signature.score source [argument]).isSome) :
      standard.select "pad_left" source [argument] = .ok padLeft := by
    have hmem : padLeft ∈ standard.candidates "pad_left" := honly ▸ List.mem_singleton_self _
    obtain ⟨selected, hselect⟩ := exists_select hmem hfits
    have hselected := (fits_of_select hselect).1
    rw [honly] at hselected
    rw [hselect, List.mem_singleton.mp hselected]
  have hreaches : standard.Reaches "pad_left" source [.int 4] padLeft (.string "42") [.int 4] :=
    ⟨hselect _ rfl, rfl, rfl⟩
  have hnegative : (standard.invoke "pad_left" source [.int (-1)]).1 =
      .error (.failed "pad_left" (.negativeWidth (-1))) := by
    rw [invoke, hselect _ rfl]
    rfl
  have htypes := bodies_receive_declared_types standard "pad_left" source
  refine ⟨⟨hreaches, ((htypes _).1 _ _ _ hreaches).2.1⟩, (htypes _).2.1 _ ?_, hnegative,
    (htypes _).2.2.2 _ hnegative⟩
  have hall : standard.formatters = withFallback .given := withFallback_given.symm
  rw [hall]
  exact (agrees_withFallback .given strict).imp fun _ _ => standsFor_of_agrees

end Registry

end Stencil
