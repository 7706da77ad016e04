import Stencil.Proofs.Expression.Printing

/-!
The place of a tag is no part of what its text says. Reading the text at another place
gives the same expression, at that place, and the same faults.
-/

namespace Stencil.Expression

open Text

variable {s : List Char} {source : String} {span span' : Span}

/-- The second reading says at another place what the first one says. -/
def Reading.Moved {α : Type} (place : α → α) (first second : Reading s α) : Prop :=
  second.outcome = (place first.value, first.faults, first.rest)

namespace Reading.Moved

variable {α : Type} {place : α → α} {first second : Reading s α}

theorem value_eq (h : Moved place first second) : second.value = place first.value :=
  (Reading.outcome_iff.mp h).1

theorem faults_eq (h : Moved place first second) : second.faults = first.faults :=
  (Reading.outcome_iff.mp h).2.1

theorem rest_eq (h : Moved place first second) : second.rest = first.rest :=
  (Reading.outcome_iff.mp h).2.2

/-- Readings of which the outcomes are known are compared by them. -/
theorem of_outcome {value value' : α} {faults : List Fault} {rest : List Char}
    (hfirst : first.outcome = (value, faults, rest))
    (hsecond : second.outcome = (value', faults, rest)) (hvalue : value' = place value) :
    Moved place first second := by
  obtain ⟨hvalue', hfaults, hrest⟩ := Reading.outcome_iff.mp hfirst
  rw [Moved, hsecond, hvalue, hvalue', hfaults, hrest]

end Reading.Moved

/-- The readers call each other, so that one induction settles all of them. -/
theorem readers_moved (source : String) (span span' : Span) :
    (∀ s, Reading.Moved (placed span') (readChain source span s) (readChain source span' s)) ∧
    (∀ s, Reading.Moved (callsPlaced span') (readCalls source span s)
      (readCalls source span' s)) ∧
    (∀ s, Reading.Moved (Option.map (callPlaced span')) (readCall source span s)
      (readCall source span' s)) ∧
    (∀ formatter s, Reading.Moved (Option.map (argumentsPlaced span'))
      (readArguments source span formatter s) (readArguments source span' formatter s)) ∧
    (∀ s, Reading.Moved (Option.map (argumentPlaced span')) (readArgument source span s)
      (readArgument source span' s)) := by
  apply readChain.mutual_induct source span
  case case1 =>
    intro s path _ (hcalls : Reading.Moved _
      (readCalls source span (readPath (trimStart s)).rest) _)
    have hsecond : (readChain source span' s).outcome = _ := readChain_step
    simp only [] at hsecond
    rw [hcalls.value_eq, hcalls.faults_eq, hcalls.rest_eq] at hsecond
    exact .of_outcome readChain_step hsecond rfl
  case case2 =>
    intro s t hbar call _ _ value hvalue hcall (hmore : Reading.Moved _
      (readCalls source span (readCall source span (trimStart t)).rest) _)
    have hvalue' := hcall.value_eq.trans (congrArg _ hvalue)
    have hsecond := readCalls_call hbar hvalue'
    simp only [] at hsecond
    rw [hcall.rest_eq, hcall.faults_eq, hmore.value_eq, hmore.faults_eq, hmore.rest_eq]
      at hsecond
    exact .of_outcome (readCalls_call hbar hvalue) hsecond (callsPlaced_cons ..).symm
  case case3 =>
    intro s t hbar call _ _ hvalue _ hcall (hmore : Reading.Moved _
      (readCalls source span (recover 0 none (readCall source span (trimStart t)).rest)) _)
    have hvalue' := hcall.value_eq.trans (congrArg _ hvalue)
    have hsecond := readCalls_malformed hbar hvalue'
    simp only [] at hsecond
    rw [hcall.rest_eq, hcall.faults_eq, hmore.value_eq, hmore.faults_eq, hmore.rest_eq]
      at hsecond
    exact .of_outcome (readCalls_malformed hbar hvalue) hsecond rfl
  case case4 =>
    intro s hno
    exact .of_outcome (readCalls_end hno) (readCalls_end hno) rfl
  case case5 =>
    intro s name rest _ hname
    rw [ofList_isEmpty, List.isEmpty_iff] at hname
    exact .of_outcome (readCall_nameless hname) (readCall_nameless hname) rfl
  case case6 =>
    intro s name rest _ hname t hparen _ rest' hclose
    rw [ofList_isEmpty, List.isEmpty_iff] at hname
    exact .of_outcome (readCall_empty hname hparen hclose) (readCall_empty hname hparen hclose) rfl
  case case7 =>
    intro s name rest _ hname t hparen _ hno (harguments : Reading.Moved _
      (readArguments source span (String.ofList (s.takeWhile isFormatterChar)) (trimStart t)) _)
    rw [ofList_isEmpty, List.isEmpty_iff] at hname
    have hsecond : (readCall source span' s).outcome = _ := readCall_arguments hname hparen hno
    simp only [] at hsecond
    rw [harguments.value_eq, harguments.faults_eq, harguments.rest_eq] at hsecond
    refine .of_outcome (readCall_arguments hname hparen hno) hsecond ?_
    rw [Option.map_map, Option.map_map]
    rfl
  case case8 =>
    intro s name rest _ hname hno
    rw [ofList_isEmpty, List.isEmpty_iff] at hname
    exact .of_outcome (readCall_bare hname hno) (readCall_bare hname hno) rfl
  case case9 =>
    intro formatter s argument hvalue hargument
    have hvalue' := hargument.value_eq.trans (congrArg _ hvalue)
    have hsecond : (readArguments source span' formatter s).outcome = _ :=
      readArguments_failed hvalue'
    simp only [hargument.faults_eq, hargument.rest_eq] at hsecond
    exact .of_outcome (readArguments_failed hvalue) hsecond rfl
  case case10 =>
    intro formatter s argument value hvalue t hcomma _ hargument hmore
    have hvalue' := hargument.value_eq.trans (congrArg _ hvalue)
    have hcomma' : trimStart (readArgument source span' s).rest = ',' :: t := by
      rwa [hargument.rest_eq]
    have hsecond : (readArguments source span' formatter s).outcome = _ :=
      readArguments_more hvalue' hcomma'
    simp only [hargument.faults_eq, hmore.value_eq, hmore.faults_eq, hmore.rest_eq] at hsecond
    refine .of_outcome (readArguments_more hvalue hcomma) hsecond ?_
    cases (readArguments source span formatter t).value with
    | none => rfl
    | some values => exact congrArg some (argumentsPlaced_cons ..).symm
  case case11 =>
    intro formatter s argument value hvalue t hclose hargument
    have hvalue' := hargument.value_eq.trans (congrArg _ hvalue)
    have hclose' : trimStart (readArgument source span' s).rest = ')' :: t := by
      rwa [hargument.rest_eq]
    have hsecond : (readArguments source span' formatter s).outcome = _ :=
      readArguments_last hvalue' hclose'
    rw [hargument.faults_eq] at hsecond
    exact .of_outcome (readArguments_last hvalue hclose) hsecond
      (congrArg some (argumentsPlaced_cons span' value []).symm)
  case case12 =>
    intro formatter s argument value hvalue hcomma hclose hargument
    have hvalue' := hargument.value_eq.trans (congrArg _ hvalue)
    have hsecond : (readArguments source span' formatter s).outcome = _ :=
      readArguments_broken hvalue' (by rwa [hargument.rest_eq]) (by rwa [hargument.rest_eq])
    simp only [hargument.faults_eq, hargument.rest_eq] at hsecond
    exact .of_outcome (readArguments_broken hvalue hcomma hclose) hsecond rfl
  case case13 =>
    intro s hend
    exact .of_outcome (readArgument_end hend) (readArgument_end hend) rfl
  case case14 =>
    intro s c t hc _ hquote
    refine .of_outcome (readArgument_string hc hquote) (readArgument_string hc hquote) ?_
    cases (readString source c t).value <;> rfl
  case case15 =>
    intro s c t hc _ hquote hdigit
    refine .of_outcome (readArgument_number hc hquote hdigit)
      (readArgument_number hc hquote hdigit) ?_
    cases (readNumber (trimStart s)).value <;> rfl
  case case16 =>
    intro s c t hc _ hquote hdigit value length hkeyword
    exact .of_outcome (readArgument_keyword hc hquote hdigit hkeyword)
      (readArgument_keyword hc hquote hdigit hkeyword) rfl
  case case17 =>
    intro s c t hc _ hquote hdigit hkeyword hchain
    have hsecond : (readArgument source span' s).outcome = _ :=
      readArgument_nested hc hquote hdigit hkeyword
    simp only [hchain.value_eq, hchain.faults_eq, hchain.rest_eq] at hsecond
    refine .of_outcome (readArgument_nested hc hquote hdigit hkeyword) hsecond ?_
    cases (readChain source span (trimStart s)).faults.isEmpty <;> rfl

/-- The same text in a tag at another place is the same expression with the same faults. -/
theorem read_moved (source : String) (span span' : Span) :
    read source span' = ((read source span).1.placed span',
      (read source span).2.map fun error => ⟨error.fault, span'⟩) := by
  have hchain := (readers_moved source span span').1 source.toList
  have htrailing (expression : Expression) (rest : List Char) :
      trailingFaults source (expression.placed span') rest =
        trailingFaults source expression rest := by
    obtain ⟨path, calls, place⟩ := expression
    cases calls with
    | nil => rfl
    | cons call calls => rw [placed, callsPlaced_cons]; rfl
  simp only [read, hchain.value_eq, hchain.faults_eq, hchain.rest_eq, htrailing, List.map_map]
  rfl

end Stencil.Expression
