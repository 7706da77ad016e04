import Mathlib.Data.List.Forall2
import Stencil.Proofs.Formatter.Applicability

/-!
What the bodies of formatters are given. A call by name reaches a body only after every
value was converted, so the body is given as many arguments as its signature admits, each
of the type that is declared for it. What bodies do with anything else has no effect.
-/

namespace Stencil

namespace ParamType

/-- The value is of the type: any value where every one is taken, an integer or a double
where a number is, and an object if its type has the name. -/
def Conforms : ParamType → Value → Prop
  | any, _ => True
  | bool, .bool _ | int, .int _ | float, .float _ | string, .string _ | list, .list _
  | map, .map _ => True
  | number, .int _ | number, .float _ => True
  | object typeName, .object host => host.typeName = typeName
  | _, _ => False

/-- Some values of other types are converted to the type. -/
def converts : ParamType → Bool
  | int | float | string => true
  | any | bool | number | list | map | object _ => false

/-- What a parameter is given for a value is of its type, and it is the value itself unless
that was of another type and has been converted. -/
structure Receives (param : ParamType) (value received : Value) : Prop where
  conforms : param.Conforms received
  unchanged : param.Conforms value ∨ param.converts = false → received = value

variable {param : ParamType} {value received : Value}

/-- A value that is passed as it is is of the type. -/
theorem Receives.refl (h : param.Conforms value) : param.Receives value value :=
  ⟨h, fun _ => rfl⟩

/-- A value that is converted is of another type before. -/
theorem Receives.of_converted (conforms : param.Conforms received)
    (other : ¬param.Conforms value) (converts : param.converts = true) :
    param.Receives value received := by
  refine ⟨conforms, ?_⟩
  rintro (hvalue | hnever)
  · exact absurd hvalue other
  · rw [converts] at hnever
    cases hnever

/-- Where nothing is converted, what scores is of the type. -/
theorem conforms_of_score (hnever : param.converts = false)
    (h : (param.score value).isSome = true) : param.Conforms value := by
  unfold score at h
  split at h
  case h_8 typeName host =>
    split at h
    · assumption
    · cases h
  all_goals trivial

/-- Where nothing is converted, what is received is the value. -/
theorem eq_of_convert (hnever : param.converts = false) (h : param.convert value = .ok received) :
    param.Conforms value ∧ received = value := by
  have hasis : param.convert? value = if (param.score value).isSome then some value else none := by
    cases param with
    | any | bool | number | list | map | object => rfl
    | int | float | string => cases hnever
  rw [convert, hasis] at h
  cases hfits : (param.score value).isSome with
  | true =>
      rw [hfits] at h
      exact ⟨conforms_of_score hnever hfits, (Except.ok.inj h).symm⟩
  | false =>
      rw [hfits] at h
      cases h

theorem int_of_convert_float {x : Binary64} (h : int.convert (.float x) = .ok received) :
    ∃ i, received = .int i := by
  unfold convert at h
  split at h
  · rename_i converted hconverted
    obtain rfl := Except.ok.inj h
    simp only [convert?, Option.map_eq_map, Option.bind_eq_bind, Option.bind_eq_some_iff,
      Option.map_eq_some_iff] at hconverted
    obtain ⟨whole, -, i, -, rfl⟩ := hconverted
    exact ⟨i, rfl⟩
  · cases h

theorem receives_of_convert (h : param.convert value = .ok received) :
    param.Receives value received := by
  cases hconverts : param.converts with
  | false =>
      obtain ⟨hconforms, rfl⟩ := eq_of_convert hconverts h
      exact .refl hconforms
  | true =>
      cases param with
      | any | bool | number | list | map | object => cases hconverts
      | int =>
          cases value with
          | int i =>
              obtain rfl := Except.ok.inj h
              exact .refl trivial
          | float x =>
              obtain ⟨i, rfl⟩ := int_of_convert_float h
              exact .of_converted trivial id rfl
          | null | bool | string | list | map | object => cases h
      | float =>
          cases value with
          | float x =>
              obtain rfl := Except.ok.inj h
              exact .refl trivial
          | int i =>
              obtain rfl := Except.ok.inj h
              exact .of_converted trivial id rfl
          | null | bool | string | list | map | object => cases h
      | string =>
          cases value with
          | string s =>
              obtain rfl := Except.ok.inj h
              exact .refl trivial
          | bool | int | float =>
              obtain rfl := Except.ok.inj h
              exact .of_converted trivial id rfl
          | null | list | map | object => cases h

end ParamType

namespace Signature

/-- As many arguments as are admitted, and every value of the type that is declared for it. -/
structure Admits (signature : Signature) (source : Value) (arguments : List Value) : Prop where
  arity : signature.acceptsArity arguments.length = true
  conform : signature.Each ParamType.Conforms source arguments

/-- What a body with the signature is given for the values of a call. -/
structure Receives (signature : Signature) (source : Value) (arguments : List Value)
    (source' : Value) (arguments' : List Value) : Prop where
  admitted : signature.Admits source' arguments'
  length : arguments'.length = arguments.length
  ofSource : signature.source.Receives source source'
  ofArguments : ∀ position param, signature.paramAt? position = some param →
    ∀ argument argument', arguments[position]? = some argument →
      arguments'[position]? = some argument' → param.Receives argument argument'

variable {signature : Signature} {source source' : Value} {arguments arguments' : List Value}

/-- Arguments are received one by one. -/
theorem receives_of_convertFrom {position : Nat}
    (h : signature.convertFrom position arguments = .ok arguments') :
    arguments'.length = arguments.length ∧
      ∀ offset argument', arguments'[offset]? = some argument' →
        ∃ param argument, signature.paramAt? (position + offset) = some param ∧
          arguments[offset]? = some argument ∧ param.Receives argument argument' := by
  induction arguments generalizing position arguments' with
  | nil =>
      obtain rfl := Except.ok.inj h
      exact ⟨rfl, nofun⟩
  | cons argument arguments ih =>
      rw [convertFrom] at h
      cases hparam : signature.paramAt? position with
      | none =>
          rw [hparam] at h
          cases h
      | some param =>
          rw [hparam] at h
          obtain ⟨first, hfirst, hrest⟩ := bind_eq_ok.mp h
          obtain ⟨others, hothers, heq⟩ := bind_eq_ok.mp hrest
          obtain rfl := Except.ok.inj heq
          obtain ⟨hlength, hreceives⟩ := ih hothers
          refine ⟨congrArg (· + 1) hlength, ?_⟩
          rintro (_ | offset) argument' hargument'
          · obtain rfl := Option.some.inj hargument'
            exact ⟨param, argument, hparam, rfl, ParamType.receives_of_convert hfirst⟩
          · rw [← Nat.add_assoc, Nat.add_right_comm]
            exact hreceives offset argument' hargument'

theorem receives_of_converts (harity : signature.acceptsArity arguments.length = true)
    (hsource : signature.source.convert source = .ok source')
    (harguments : signature.convertFrom 0 arguments = .ok arguments') :
    signature.Receives source arguments source' arguments' := by
  have hreceives := ParamType.receives_of_convert hsource
  obtain ⟨hlength, hall⟩ := receives_of_convertFrom harguments
  refine ⟨⟨hlength ▸ harity, hreceives.conforms, ?_⟩, hlength, hreceives, ?_⟩
  · intro position argument' hargument'
    obtain ⟨param, argument, hparam, -, hone⟩ := hall position argument' hargument'
    exact ⟨param, hparam, hone.conforms⟩
  · intro position param hparam argument argument' hargument hargument'
    obtain ⟨_, _, hparam', hargument'', hone⟩ := hall position argument' hargument'
    rw [Nat.zero_add, hparam] at hparam'
    rw [hargument] at hargument''
    obtain rfl := Option.some.inj hparam'
    obtain rfl := Option.some.inj hargument''
    exact hone

end Signature

/-- Sorting by a test that does not tell related elements apart relates the results. -/
theorem forall₂_mergeSort {α β : Type} {R : α → β → Prop} {le : α → α → Bool}
    {le' : β → β → Bool} (hle : ∀ a a' b b', R a b → R a' b' → le a a' = le' b b')
    {as : List α} {bs : List β} (h : List.Forall₂ R as bs) :
    List.Forall₂ R (as.mergeSort le) (bs.mergeSort le') := by
  obtain ⟨hlength, hrel⟩ := List.forall₂_iff_zip.mp h
  have has : (as.zip bs).map Prod.fst = as := List.map_fst_zip (Nat.le_of_eq hlength)
  have hbs : (as.zip bs).map Prod.snd = bs := List.map_snd_zip (Nat.le_of_eq hlength.symm)
  have hfst : ((as.zip bs).mergeSort fun a b => le a.1 b.1).map Prod.fst = as.mergeSort le := by
    rw [List.map_mergeSort (f := Prod.fst) (s := le) fun _ _ _ _ => rfl, has]
  have hsnd : ((as.zip bs).mergeSort fun a b => le a.1 b.1).map Prod.snd = bs.mergeSort le' := by
    rw [List.map_mergeSort (f := Prod.snd) (s := le') fun a ha b hb =>
      hle _ _ _ _ (hrel ha) (hrel hb), hbs]
  rw [← hfst, ← hsnd, List.forall₂_map_left_iff, List.forall₂_map_right_iff, List.forall₂_same]
  intro pair hpair
  exact hrel (List.mem_mergeSort.mp hpair)

namespace Registry

/-- A call by name reaches a body: the overload is selected, and the values of the call are
converted to these. -/
structure Reaches (registry : Registry) (name : String) (source : Value) (arguments : List Value)
    (formatter : Formatter) (source' : Value) (arguments' : List Value) : Prop where
  selected : registry.select name source arguments = .ok formatter
  ofSource : formatter.signature.source.convert source = .ok source'
  ofArguments : formatter.signature.convertFrom 0 arguments = .ok arguments'

/-- An overload in the place of another: it has the same name and signature, and the same
replies where a call of the registry reaches it. -/
structure StandsFor (registry : Registry) (name : String) (source : Value)
    (arguments : List Value) (formatter other : Formatter) : Prop where
  sameName : other.name = formatter.name
  sameSignature : other.signature = formatter.signature
  sameReply : ∀ source' arguments',
    registry.Reaches name source arguments formatter source' arguments' →
      other.body source' arguments' = formatter.body source' arguments'

variable {registry other : Registry} {name : String} {source source' : Value}
  {arguments arguments' : List Value} {formatter : Formatter}

/-- A body is given what its signature admits. -/
theorem Reaches.receives
    (h : registry.Reaches name source arguments formatter source' arguments') :
    formatter.signature.Receives source arguments source' arguments' := by
  have harity := (Signature.score_isSome_iff_each.mp (fits_of_select h.selected).2).1
  exact Signature.receives_of_converts harity h.ofSource h.ofArguments

/-- Registries with the same names and signatures rank the same overloads. -/
theorem rank_congr
    (h : List.Forall₂ (registry.StandsFor name source arguments) registry.formatters
      other.formatters) :
    List.Forall₂ (fun a b => a.1 = b.1 ∧ registry.StandsFor name source arguments a.2 b.2)
      (registry.rank name source arguments) (other.rank name source arguments) := by
  have hcandidates : List.Forall₂ (registry.StandsFor name source arguments)
      (registry.candidates name) (other.candidates name) := by
    refine List.rel_filter ?_ h
    intro formatter stand hstands
    simp only [hstands.sameName]
  unfold rank
  refine forall₂_mergeSort ?_ (List.rel_filterMap ?_ (List.rel_reverse hcandidates))
  · rintro a a' b b' ⟨hfit, -⟩ ⟨hfit', -⟩
    simp only [hfit, hfit']
  · intro formatter stand hstands
    simp only [hstands.sameSignature]
    cases formatter.signature.score source arguments with
    | none => exact .none
    | some fit => exact .some ⟨rfl, hstands⟩

/-- The reply of a body that is reached is the reply of the call. -/
theorem call_of_reaches
    (h : registry.Reaches name source arguments formatter source' arguments') :
    formatter.call source arguments = formatter.body source' arguments' := by
  simp only [Formatter.call, h.ofSource, h.ofArguments]
  rfl

/-- What is selected stands for what was, and a call that fails fails for the same cause. -/
theorem select_congr
    (h : List.Forall₂ (registry.StandsFor name source arguments) registry.formatters
      other.formatters) :
    match registry.select name source arguments with
    | .ok formatter => ∃ stand, other.select name source arguments = .ok stand ∧
        registry.StandsFor name source arguments formatter stand
    | .error cause => other.select name source arguments = .error cause := by
  have hrank := rank_congr h
  unfold select
  generalize registry.rank name source arguments = ranked at hrank
  generalize other.rank name source arguments = others at hrank
  cases hrank with
  | nil => rfl
  | cons hfirst hrest => exact ⟨_, rfl, hfirst.2⟩

/-- A call depends on bodies only where it reaches them. -/
theorem invoke_congr
    (h : List.Forall₂ (registry.StandsFor name source arguments) registry.formatters
      other.formatters) :
    other.invoke name source arguments = registry.invoke name source arguments := by
  have hothers := select_congr h
  unfold invoke
  cases hselect : registry.select name source arguments with
  | error cause =>
      rw [hselect] at hothers
      simp only at hothers
      rw [hothers]
  | ok formatter =>
      rw [hselect] at hothers
      obtain ⟨stand, hother, hstands⟩ := hothers
      have hcall : stand.call source arguments = formatter.call source arguments := by
        unfold Formatter.call
        rw [hstands.sameSignature]
        cases hsource : formatter.signature.source.convert source with
        | error cause => rfl
        | ok source' =>
            cases harguments : formatter.signature.convertFrom 0 arguments with
            | error cause => rfl
            | ok arguments' =>
                exact hstands.sameReply source' arguments' ⟨hselect, hsource, harguments⟩
      rw [hother]
      simp only [hcall]

end Registry

end Stencil
