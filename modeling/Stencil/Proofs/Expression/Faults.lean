import Stencil.Proofs.Expression.Steps

/-!
What a reader of expressions can report. Every fault is about a path or about
a formatter call; none is about the tags around the expression.
-/

namespace Stencil

/-- Faults inside a tag: a text that is no path, or a malformed call. -/
def Fault.InExpression (fault : Fault) : Prop :=
  fault.kind = .invalidPath ∨ fault.kind = .malformedFormatter

namespace Expression

open Text

/-- Every fault that a reading met is one of an expression. -/
def Reading.Ordinary {s : List Char} {α : Type} (reading : Reading s α) : Prop :=
  ∀ fault ∈ reading.faults, fault.InExpression

/-- A reading is ordinary if its faults are those of ordinary readings. -/
theorem Reading.ordinary_of_outcome {s : List Char} {α : Type} {reading : Reading s α}
    {value : α} {faults : List Fault} {rest : List Char}
    (h : reading.outcome = (value, faults, rest))
    (hfaults : ∀ fault ∈ faults, fault.InExpression) : reading.Ordinary := by
  obtain ⟨-, rfl, -⟩ := Reading.outcome_iff.mp h
  exact hfaults

private theorem inExpression_append {first second : List Fault}
    (hfirst : ∀ fault ∈ first, fault.InExpression)
    (hsecond : ∀ fault ∈ second, fault.InExpression) :
    ∀ fault ∈ first ++ second, fault.InExpression := by
  intro fault hfault
  rcases List.mem_append.mp hfault with hmem | hmem
  · exact hfirst fault hmem
  · exact hsecond fault hmem

private theorem inExpression_singleton {fault : Fault} (h : fault.InExpression) :
    ∀ f ∈ [fault], f.InExpression := by
  intro f hf
  rwa [List.mem_singleton.mp hf]

theorem readPath_ordinary (s : List Char) : (readPath s).Ordinary := by
  cases hparse : Path.parse (String.ofList (s.takeWhile isPathChar)) with
  | ok path =>
      exact Reading.ordinary_of_outcome (readPath_path hparse) (by simp)
  | error cause =>
      exact Reading.ordinary_of_outcome (readPath_error hparse)
        (inExpression_singleton (Or.inl rfl))

theorem readString_ordinary (source : String) (quote : Char) (s : List Char) :
    (readString source quote s).Ordinary := by
  intro fault hfault
  unfold readString at hfault
  split at hfault
  · cases hfault
  · exact inExpression_singleton (Or.inr rfl) fault hfault

theorem readNumber_ordinary (s : List Char) : (readNumber s).Ordinary := by
  intro fault hfault
  simp only [readNumber] at hfault
  generalize (numberOf? _).isNone = invalid at hfault
  cases invalid with
  | false => cases hfault
  | true => exact inExpression_singleton (Or.inr rfl) fault hfault

/-- The readers of chains, calls and arguments call each other, so that what
they report is settled by one induction over all of them. -/
theorem readers_ordinary (source : String) (span : Span) :
    (∀ s, (readChain source span s).Ordinary) ∧
    (∀ s, (readCalls source span s).Ordinary) ∧
    (∀ s, (readCall source span s).Ordinary) ∧
    (∀ formatter s, (readArguments source span formatter s).Ordinary) ∧
    (∀ s, (readArgument source span s).Ordinary) := by
  apply readChain.mutual_induct source span
  case case1 =>
    intro s path _ hcalls
    exact Reading.ordinary_of_outcome readChain_step
      (inExpression_append (readPath_ordinary _) hcalls)
  case case2 =>
    intro s t hbar call _ _ value hvalue hcall hmore
    exact Reading.ordinary_of_outcome (readCalls_call hbar hvalue)
      (inExpression_append hcall hmore)
  case case3 =>
    intro s t hbar call _ _ hvalue _ hcall hmore
    exact Reading.ordinary_of_outcome (readCalls_malformed hbar hvalue)
      (inExpression_append hcall hmore)
  case case4 =>
    intro s hno
    exact Reading.ordinary_of_outcome (readCalls_end hno) (by simp)
  case case5 =>
    intro s name rest _ hname
    rw [ofList_isEmpty, List.isEmpty_iff] at hname
    exact Reading.ordinary_of_outcome (readCall_nameless hname)
      (inExpression_singleton (Or.inr rfl))
  case case6 =>
    intro s name rest _ hname t hparen _ rest' hclose
    rw [ofList_isEmpty, List.isEmpty_iff] at hname
    exact Reading.ordinary_of_outcome (readCall_empty hname hparen hclose) (by simp)
  case case7 =>
    intro s name rest _ hname t hparen _ hno harguments
    rw [ofList_isEmpty, List.isEmpty_iff] at hname
    exact Reading.ordinary_of_outcome (readCall_arguments hname hparen hno) harguments
  case case8 =>
    intro s name rest _ hname hno
    rw [ofList_isEmpty, List.isEmpty_iff] at hname
    exact Reading.ordinary_of_outcome (readCall_bare hname hno) (by simp)
  case case9 =>
    intro formatter s argument hvalue hargument
    exact Reading.ordinary_of_outcome (readArguments_failed hvalue) hargument
  case case10 =>
    intro formatter s argument value hvalue t hcomma _ hargument hmore
    exact Reading.ordinary_of_outcome (readArguments_more hvalue hcomma)
      (inExpression_append hargument hmore)
  case case11 =>
    intro formatter s argument value hvalue t hclose hargument
    exact Reading.ordinary_of_outcome (readArguments_last hvalue hclose) hargument
  case case12 =>
    intro formatter s argument value hvalue hcomma hclose hargument
    refine Reading.ordinary_of_outcome (readArguments_broken hvalue hcomma hclose)
      (inExpression_append hargument (inExpression_singleton ?_))
    split
    · exact Or.inr rfl
    · exact Or.inr rfl
  case case13 =>
    intro s hend
    exact Reading.ordinary_of_outcome (readArgument_end hend)
      (inExpression_singleton (Or.inr rfl))
  case case14 =>
    intro s c t hc _ hquote
    exact Reading.ordinary_of_outcome (readArgument_string hc hquote)
      (readString_ordinary source c t)
  case case15 =>
    intro s c t hc _ hquote hdigit
    exact Reading.ordinary_of_outcome (readArgument_number hc hquote hdigit)
      (readNumber_ordinary _)
  case case16 =>
    intro s c t hc _ hquote hdigit value length hkeyword
    exact Reading.ordinary_of_outcome (readArgument_keyword hc hquote hdigit hkeyword)
      (by simp)
  case case17 =>
    intro s c t hc _ hquote hdigit hkeyword hchain
    exact Reading.ordinary_of_outcome (readArgument_nested hc hquote hdigit hkeyword) hchain

/-- Reading a tag reports nothing but faults inside the tag. -/
theorem read_ordinary (source : String) (span : Span) :
    ∀ error ∈ (read source span).2, error.fault.InExpression := by
  intro error herror
  obtain ⟨fault, hfault, rfl⟩ := List.mem_map.mp herror
  refine inExpression_append ((readers_ordinary source span).1 source.toList) ?_ fault hfault
  unfold trailingFaults
  split
  · simp
  · refine inExpression_singleton ?_
    generalize (readChain source span source.toList).value.calls.isEmpty = bare
    cases bare with
    | true => exact Or.inl rfl
    | false => exact Or.inr rfl

end Expression

end Stencil
