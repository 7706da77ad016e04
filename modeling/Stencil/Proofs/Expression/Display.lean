import Stencil.Proofs.Expression.Printing
import Stencil.Proofs.Number.Shortest

/-!
Displayed expressions. Strings are displayed with escapes for characters that would
not show, of which a reader undoes only some, and doubles in decimal, which a reader
takes for integers if they look like them. The literals that are displayed as they
are read make up a style, so that the expressions made of them are read back.
-/

namespace Stencil

open Text

/-- A character that is displayed as itself or by an escape that a reader undoes. -/
def isShownChar (c : Char) : Bool :=
  c == '\n' || c == '\t' || isPrintable c

namespace Expression

theorem hexDigits_ne (n : Nat) : ∀ c ∈ hexDigits n, c ≠ '"' ∧ c ≠ '\\' := by
  have hdigit : ∀ k < 16, k.digitChar ≠ '"' ∧ k.digitChar ≠ '\\' := by decide
  unfold hexDigits
  induction n using Nat.strongRecOn with
  | ind n ih =>
      intro c hc
      rcases Nat.lt_or_ge n 16 with hlt | hge
      · rw [Nat.toDigits_of_lt_base hlt, List.mem_singleton] at hc
        exact hc ▸ hdigit n hlt
      · rw [Nat.toDigits_of_base_le (by decide) hge, List.mem_append, List.mem_singleton] at hc
        rcases hc with hc | rfl
        · exact ih (n / 16) (by omega) c hc
        · exact hdigit (n % 16) (Nat.mod_lt n (by decide))

/-- Characters that are no marks stand for themselves. -/
theorem QuotedText.append {quote : Char} {run s text : List Char}
    (hrun : ∀ c ∈ run, c ≠ quote ∧ c ≠ '\\') (more : QuotedText quote s text) :
    QuotedText quote (run ++ s) (run ++ text) := by
  induction run with
  | nil => exact more
  | cons c run ih =>
      obtain ⟨⟨hquote, hescape⟩, hrun⟩ := List.forall_mem_cons.mp hrun
      exact .plain hquote hescape (ih hrun)

/-- A displayed character is read back as itself if it is shown, and otherwise as
characters the first of which is another one. -/
theorem quotedText_quoteChar (c : Char) {s text : List Char} (more : QuotedText '"' s text) :
    ∃ d t, QuotedText '"' (quoteChar c ++ s) (d :: (t ++ text)) ∧
      if isShownChar c then d = c ∧ t = [] else d ≠ c := by
  unfold quoteChar
  split
  · exact ⟨'"', [], .escaped '"' more, rfl, rfl⟩
  · exact ⟨'\\', [], .escaped '\\' more, rfl, rfl⟩
  · exact ⟨'\n', [], .escaped 'n' more, rfl, rfl⟩
  · exact ⟨'r', [], .escaped 'r' more, by decide⟩
  · exact ⟨'\t', [], .escaped 't' more, rfl, rfl⟩
  · exact ⟨'0', [], .escaped '0' more, by decide⟩
  · rename_i hquote hescape hnewline _ htab _
    split
    · rename_i hprintable
      refine ⟨c, [], .plain hquote hescape more, ?_⟩
      rw [isShownChar, hprintable, Bool.or_true, if_pos rfl]
      exact ⟨rfl, rfl⟩
    · rename_i hprintable
      have hshown : isShownChar c = false := by
        simpa [isShownChar, hprintable] using ⟨hnewline, htab⟩
      have hrun : ∀ d ∈ ['\x7b'] ++ hexDigits c.toNat ++ ['\x7d'], d ≠ '"' ∧ d ≠ '\\' :=
        List.forall_mem_append.mpr ⟨List.forall_mem_append.mpr
          ⟨by simp, hexDigits_ne c.toNat⟩, by simp⟩
      refine ⟨'u', _, .escaped 'u' (more.append hrun), ?_⟩
      rw [hshown, if_neg (by decide)]
      rintro rfl
      exact hprintable (by decide)

/-- A displayed string is read back as itself exactly if all its characters are shown. -/
theorem exists_quotedText (s : List Char) :
    ∃ text, QuotedText '"' (s.flatMap quoteChar) text ∧
      (text = s ↔ ∀ c ∈ s, isShownChar c = true) := by
  induction s with
  | nil => exact ⟨[], .nil, by simp⟩
  | cons c s ih =>
      obtain ⟨text, hquoted, hback⟩ := ih
      obtain ⟨d, t, hchar, hshown⟩ := quotedText_quoteChar c hquoted
      refine ⟨d :: (t ++ text), hchar, ?_⟩
      rw [List.forall_mem_cons, ← hback]
      split at hshown
      · rename_i hc
        obtain ⟨rfl, rfl⟩ := hshown
        simp [hc]
      · rename_i hc
        simp [hc, hshown]

/-- Digits with a point in place, behind a minus sign or not, are a number if they
denote a value. -/
theorem numberText_point {negative : Bool} {d : Char} {t : List Char} {value : Literal}
    (hd : d.isDigit = true) (hdigits : ∀ c ∈ d :: t, c.isDigit = true ∨ c = '.')
    (hvalue : numberOf? ((if negative then ['-'] else []) ++ d :: t) = some value) :
    NumberText ((if negative then ['-'] else []) ++ d :: t) value := by
  have hplain : ∀ c ∈ (if negative then ['-'] else []) ++ d :: t, (c != '_') = true := by
    refine List.forall_mem_append.mpr ⟨by cases negative <;> simp, fun c hc => ?_⟩
    rw [bne_iff_ne]
    rintro rfl
    exact (hdigits '_' hc).elim (by decide) (by decide)
  refine .mk ?_ ?_ ?_ (by rwa [List.filter_eq_self.mpr hplain])
  · split
    · exact Or.inr rfl
    · exact Or.inl rfl
  · split <;> simp [startsNumber, hd]
  · intro c hc
    rcases hdigits c hc with hdigit | rfl
    · simp [isNumberChar, hdigit]
    · rfl

/-- A finite double is displayed as a number, which is the double unless it is an
integer. -/
theorem exists_numberText (negative : Bool) (code : Fin Binary64.codeCount) :
    ∃ value, NumberText (Binary64.finite negative code).text.toList value ∧
      (value = .float (.finite negative code) ↔
        Numeral.signed? (Binary64.finite negative code).text.toList = none) := by
  have hdouble := Binary64.double?_text negative code
  obtain ⟨digits, exponent, hdigits, hsome, htext, -⟩ := Binary64.exists_magnitudeText code.isLt
  have hmem := Binary64.mem_positionalText hdigits exponent
  obtain ⟨d, t, hhead, hd⟩ := Binary64.positionalText_head hdigits hsome exponent
  rw [Binary64.text_finite, htext, hhead] at hdouble ⊢
  rw [hhead] at hmem
  cases hsigned : Numeral.signed? ((if negative then ['-'] else []) ++ d :: t) with
  | none =>
      refine ⟨.float (.finite negative code), numberText_point hd hmem ?_, by simp⟩
      rw [numberOf?, hsigned, hdouble]
      rfl
  | some i =>
      refine ⟨.int i, numberText_point hd hmem ?_, by simp⟩
      rw [numberOf?, hsigned]
      rfl

end Expression

/-- A literal whose text denotes it: strings that show, and doubles that are not
special and do not look like integers. -/
def Literal.IsShown : Literal → Prop
  | .string s => ∀ c ∈ s.toList, isShownChar c = true
  | .float (.finite negative code) =>
      Numeral.signed? (Binary64.finite negative code).text.toList = none
  | .float _ => False
  | _ => True

/-- The text of a literal denotes one, which is the literal if it is shown, or it is
the name of a special double, which starts no literal. -/
theorem Literal.text_forms (value : Literal) :
    (∃ back, Expression.LiteralText value.text.toList back ∧ (back = value ↔ value.IsShown)) ∨
    (¬value.IsShown ∧ Expression.StartsNoLiteral value.text.toList ∧
      ∃ c s, value.text.toList = c :: s ∧ isPathChar c = true) := by
  cases value with
  | null => exact Or.inl ⟨.null, .keyword (by decide), by simp [IsShown]⟩
  | bool b => exact Or.inl ⟨.bool b, .keyword (by cases b <;> decide), by simp [IsShown]⟩
  | int i =>
      exact Or.inl ⟨.int i, .number (LiteralStyle.numberText_toString i), by simp [IsShown]⟩
  | float x =>
      cases x with
      | nan => exact Or.inr ⟨id, ⟨by decide, by decide⟩, 'N', ['a', 'N'], by decide, by decide⟩
      | infinite negative =>
          cases negative with
          | true =>
              exact Or.inr ⟨id, ⟨by decide, by decide⟩, '-', ['i', 'n', 'f'], by decide, by decide⟩
          | false =>
              exact Or.inr ⟨id, ⟨by decide, by decide⟩, 'i', ['n', 'f'], by decide, by decide⟩
      | finite negative code =>
          obtain ⟨back, hnumber, hback⟩ := Expression.exists_numberText negative code
          exact Or.inl ⟨back, .number hnumber, hback⟩
  | string s =>
      obtain ⟨text, hquoted, hback⟩ := Expression.exists_quotedText s.toList
      have htext : (Literal.string s).text.toList = '"' :: (s.toList.flatMap quoteChar ++ ['"']) :=
        String.toList_ofList
      refine Or.inl ⟨.string (String.ofList text), htext ▸ .string (Or.inl rfl) hquoted, ?_⟩
      rw [IsShown, ← hback, Literal.string.injEq, ← String.toList_inj, String.toList_ofList]

/-- The literals that are shown are written as they are displayed. -/
def LiteralStyle.displayed : LiteralStyle where
  write value := value.text.toList
  Covers := Literal.IsShown
  denotes := by
    intro value hshown
    obtain ⟨back, htext, hback⟩ | ⟨hhidden, -⟩ := value.text_forms
    · exact hback.mpr hshown ▸ htext
    · exact absurd hshown hhidden

namespace Expression

theorem intercalate_argumentTexts (argument : String) {arguments : List Argument}
    (hsome : arguments ≠ []) :
    String.intercalate ", " (argument :: argumentTexts arguments) =
      argument ++ ", " ++ String.intercalate ", " (argumentTexts arguments) := by
  cases arguments with
  | nil => exact absurd rfl hsome
  | cons argument' arguments =>
      cases argument' <;> rw [argumentTexts, String.intercalate_cons_cons]

mutual

/-- The text of an expression is printed in the style that displays literals. -/
theorem source_displayed : (expression : Expression) →
    source .displayed expression = expression.text.toList
  | ⟨path, calls, _⟩ => by
      rw [source, text, String.toList_append, callsSource_displayed calls]

theorem callsSource_displayed : (calls : List FormatterCall) →
    callsSource .displayed calls = (callsText calls).toList
  | [] => rfl
  | ⟨name, arguments⟩ :: calls => by
      rw [callsSource, callsText, callsSource_displayed calls]
      by_cases hsome : arguments = []
      · simp [hsome]
      · simp [hsome, argumentsSource_displayed arguments hsome]

theorem argumentsSource_displayed : (arguments : List Argument) → arguments ≠ [] →
    argumentsSource .displayed [] arguments =
      (String.intercalate ", " (argumentTexts arguments)).toList
  | [], hsome => absurd rfl hsome
  | argument :: arguments, _ => by
      have hmore (first : String) :
          first.toList ++ argumentsSource .displayed [',', ' '] arguments =
            (String.intercalate ", " (first :: argumentTexts arguments)).toList := by
        by_cases hsome : arguments = []
        · rw [hsome, argumentsSource, argumentTexts, String.intercalate_singleton, List.append_nil]
        · rw [argumentsSource_separated .displayed hsome, intercalate_argumentTexts first hsome,
            argumentsSource_displayed arguments hsome, String.toList_append, String.toList_append,
            List.append_assoc]
          rfl
      cases argument with
      | literal value => exact hmore value.text
      | nested expression =>
          rw [argumentsSource, source_displayed expression]
          exact hmore expression.text

end

end Expression

end Stencil
