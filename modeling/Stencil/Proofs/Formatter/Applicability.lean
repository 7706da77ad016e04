import Stencil.Formatter.Standard
import Stencil.Proofs.Formatter.Selection

/-!
When an overload takes a call. How well values fit and what they are converted to
are told by two tables over types and values, which agree but for one kind of
value: a whole double beyond the integers of 64 bits scores as an integer, and is
not converted to one.
-/

namespace Stencil

theorem bind_eq_ok {ε α β : Type} {first : Except ε α} {next : α → Except ε β} {b : β} :
    (first >>= next) = .ok b ↔ ∃ a, first = .ok a ∧ next a = .ok b := by
  cases first with
  | error error => simp [bind, Except.bind]
  | ok a => simp [bind, Except.bind]

namespace ParamType

/-- The value can be passed. -/
def Takes (param : ParamType) (value : Value) : Prop :=
  ∃ converted, param.convert value = .ok converted

/-- The value scores as an integer and is too large for one. -/
def overrates : ParamType → Value → Bool
  | int, .float x => x.integer?.any fun i => Numeral.signedLimit < i.natAbs
  | _, _ => false

variable {param : ParamType} {value : Value}

theorem takes_iff : param.Takes value ↔ (param.convert? value).isSome = true := by
  unfold Takes convert
  cases param.convert? value with
  | none => simp
  | some converted => simp

theorem saturate?_isSome_iff {i : Int} :
    (saturate? i).isSome = true ↔ ¬Numeral.signedLimit < i.natAbs := by
  unfold saturate?
  split
  · simpa
  · simp
    omega

/-- A double scores as an integer if it is whole; it is converted, or too large. -/
theorem score_int_float_isSome_iff {x : Binary64} :
    (int.score (.float x)).isSome = true ↔
      (int.convert? (.float x)).isSome = true ∨ int.overrates (.float x) = true := by
  simp only [score, convert?, overrates]
  cases x.integer? with
  | none => simp
  | some i =>
      simp [saturate?_isSome_iff]
      omega

/-- A value fits exactly if it can be passed, but for those that are too large. -/
theorem score_isSome_iff :
    (param.score value).isSome = true ↔ param.Takes value ∨ param.overrates value = true := by
  rw [takes_iff]
  by_cases hint : ∃ x, param = int ∧ value = .float x
  · obtain ⟨x, rfl, rfl⟩ := hint
    exact score_int_float_isSome_iff
  · have hrated : param.overrates value = false := by
      unfold overrates
      split
      · exact absurd ⟨_, rfl, rfl⟩ hint
      · rfl
    unfold convert?
    split
    · exact absurd ⟨_, rfl, rfl⟩ hint
    · simp [score]
    · simp [score]
    · simp [score]
    · simp [score]
    · -- what is passed as it is is passed whenever it scores
      cases param.score _ with
      | none => simpa using hrated
      | some score => simp

theorem not_takes_of_overrates (h : param.overrates value = true) : ¬param.Takes value := by
  unfold overrates at h
  split at h
  · rename_i x
    rw [takes_iff, convert?]
    cases hwhole : x.integer? with
    | none => simp
    | some i =>
        rw [hwhole] at h
        simpa [saturate?_isSome_iff] using h
  · cases h

theorem takes_iff_fits :
    param.Takes value ↔ (param.score value).isSome = true ∧ param.overrates value = false := by
  rw [score_isSome_iff]
  cases hrated : param.overrates value with
  | false => simp
  | true => simpa using not_takes_of_overrates hrated

end ParamType

namespace Signature

/-- Something holds of every argument from a position on and of its parameter. -/
def EachFrom (signature : Signature) (P : ParamType → Value → Prop) (position : Nat)
    (arguments : List Value) : Prop :=
  ∀ offset argument, arguments[offset]? = some argument →
    ∃ param, signature.paramAt? (position + offset) = some param ∧ P param argument

/-- Something holds of the source and its type, and of every argument and its
parameter. -/
structure Each (signature : Signature) (P : ParamType → Value → Prop) (source : Value)
    (arguments : List Value) : Prop where
  ofSource : P signature.source source
  ofArguments : signature.EachFrom P 0 arguments

/-- Some value of the call is too large for the integer that it scores as. -/
def overrates (signature : Signature) (source : Value) (arguments : List Value) : Bool :=
  signature.source.overrates source ||
    arguments.zipIdx.any fun (argument, position) =>
      (signature.paramAt? position).any (·.overrates argument)

/-- The overload can be called: it takes as many arguments, and each of the values
can be passed. -/
structure Accepts (signature : Signature) (source : Value) (arguments : List Value) : Prop where
  arity : signature.acceptsArity arguments.length = true
  takes : signature.Each ParamType.Takes source arguments

variable {signature : Signature} {P Q : ParamType → Value → Prop} {position : Nat}
  {source argument : Value} {arguments : List Value}

theorem eachFrom_nil : signature.EachFrom P position [] := by
  intro offset argument hargument
  cases hargument

theorem eachFrom_cons : signature.EachFrom P position (argument :: arguments) ↔
    (∃ param, signature.paramAt? position = some param ∧ P param argument) ∧
      signature.EachFrom P (position + 1) arguments := by
  have hposition (offset : Nat) : position + 1 + offset = position + (offset + 1) := by
    omega
  constructor
  · intro h
    refine ⟨h 0 argument rfl, ?_⟩
    intro offset other hother
    rw [hposition]
    exact h (offset + 1) other hother
  · rintro ⟨hfirst, hothers⟩ (_ | offset) other hother
    · obtain rfl := Option.some.inj hother
      exact hfirst
    · rw [← hposition]
      exact hothers offset other hother

/-- Arguments score together if each of them scores. -/
theorem scoreFrom_isSome_iff (signature : Signature) (position : Nat) (arguments : List Value) :
    (signature.scoreFrom position arguments).isSome = true ↔
      signature.EachFrom (fun param value => (param.score value).isSome = true) position
        arguments := by
  induction arguments generalizing position with
  | nil => simp [scoreFrom, eachFrom_nil]
  | cons argument arguments ih =>
      rw [eachFrom_cons, ← ih, scoreFrom]
      cases signature.paramAt? position with
      | none => simp
      | some param =>
          cases hown : param.score argument with
          | none => simp [hown]
          | some own =>
              cases signature.scoreFrom (position + 1) arguments with
              | none => simp [hown]
              | some others => simp [hown]

/-- Arguments are converted together if each of them is converted. -/
theorem convertFrom_ok_iff (signature : Signature) (position : Nat) (arguments : List Value) :
    (∃ converted, signature.convertFrom position arguments = .ok converted) ↔
      signature.EachFrom ParamType.Takes position arguments := by
  induction arguments generalizing position with
  | nil => exact ⟨fun _ => eachFrom_nil, fun _ => ⟨[], rfl⟩⟩
  | cons argument arguments ih =>
      rw [eachFrom_cons, ← ih, convertFrom]
      cases signature.paramAt? position with
      | none =>
          constructor
          · rintro ⟨converted, hconverted⟩
            cases hconverted
          · rintro ⟨⟨param, hparam, -⟩, -⟩
            cases hparam
      | some param =>
          constructor
          · rintro ⟨converted, hconverted⟩
            obtain ⟨first, hfirst, hrest⟩ := bind_eq_ok.mp hconverted
            obtain ⟨others, hothers, -⟩ := bind_eq_ok.mp hrest
            exact ⟨⟨param, rfl, first, hfirst⟩, others, hothers⟩
          · rintro ⟨⟨_, hparam, first, hfirst⟩, others, hothers⟩
            obtain rfl := Option.some.inj hparam
            refine ⟨first :: others, ?_⟩
            simp only [hfirst, hothers]
            rfl

/-- A call fits if its number of arguments does and every value. -/
theorem score_isSome_iff_each : (signature.score source arguments).isSome = true ↔
    signature.acceptsArity arguments.length = true ∧
      signature.Each (fun param value => (param.score value).isSome = true) source
        arguments := by
  have hfrom := scoreFrom_isSome_iff signature 0 arguments
  rw [score]
  constructor
  · intro h
    split at h
    · rename_i harity
      cases hown : signature.source.score source with
      | none => simp [hown] at h
      | some own =>
          cases hothers : signature.scoreFrom 0 arguments with
          | none => simp [hown, hothers] at h
          | some others =>
              refine ⟨harity, by rw [hown]; rfl, hfrom.mp ?_⟩
              rw [hothers]
              rfl
    · cases h
  · rintro ⟨harity, hsource, harguments⟩
    obtain ⟨own, hown⟩ := Option.isSome_iff_exists.mp hsource
    obtain ⟨others, hothers⟩ := Option.isSome_iff_exists.mp (hfrom.mpr harguments)
    simp [harity, hown, hothers]

theorem Each.imp (h : signature.Each P source arguments)
    (himp : ∀ param value, P param value → Q param value) : signature.Each Q source arguments := by
  refine ⟨himp _ _ h.ofSource, ?_⟩
  intro offset argument hargument
  obtain ⟨param, hparam, hholds⟩ := h.ofArguments offset argument hargument
  exact ⟨param, hparam, himp _ _ hholds⟩

theorem overrates_eq_false_iff : signature.overrates source arguments = false ↔
    signature.source.overrates source = false ∧
      ∀ position argument, arguments[position]? = some argument →
        ∀ param, signature.paramAt? position = some param → param.overrates argument = false := by
  have hone (found : Option ParamType) (argument : Value) :
      found.any (·.overrates argument) = false ↔
        ∀ param, found = some param → param.overrates argument = false := by
    cases found with
    | none => simp
    | some param => simp
  simp only [overrates, Bool.or_eq_false_iff, List.any_eq_false, Prod.forall,
    List.mem_zipIdx_iff_getElem?, Bool.not_eq_true, hone]
  exact and_congr_right fun _ => forall_comm

/-- The overloads that can be called are those that fit and overrate no value. -/
theorem accepts_iff : signature.Accepts source arguments ↔
    (signature.score source arguments).isSome = true ∧
      signature.overrates source arguments = false := by
  rw [score_isSome_iff_each, overrates_eq_false_iff]
  constructor
  · rintro ⟨harity, htakes⟩
    have hfits := htakes.imp fun param value h => (ParamType.takes_iff_fits.mp h).1
    refine ⟨⟨harity, hfits⟩, (ParamType.takes_iff_fits.mp htakes.ofSource).2, ?_⟩
    intro position argument hargument param hparam
    obtain ⟨param', hparam', htaken⟩ := htakes.ofArguments position argument hargument
    rw [Nat.zero_add, hparam] at hparam'
    obtain rfl := Option.some.inj hparam'
    exact (ParamType.takes_iff_fits.mp htaken).2
  · rintro ⟨⟨harity, hfits⟩, hsource, harguments⟩
    refine ⟨harity, ParamType.takes_iff_fits.mpr ⟨hfits.ofSource, hsource⟩, ?_⟩
    intro position argument hargument
    obtain ⟨param, hparam, hfit⟩ := hfits.ofArguments position argument hargument
    refine ⟨param, hparam, ParamType.takes_iff_fits.mpr ⟨hfit, ?_⟩⟩
    rw [Nat.zero_add] at hparam
    exact harguments position argument hargument param hparam

end Signature

/-- The body is called, with what the values of the call are converted to. -/
def Formatter.Converts (formatter : Formatter) (source : Value) (arguments : List Value) : Prop :=
  ∃ source' arguments', formatter.signature.source.convert source = .ok source' ∧
    formatter.signature.convertFrom 0 arguments = .ok arguments' ∧
    formatter.call source arguments = formatter.body source' arguments'

theorem Formatter.converts_iff_takes {formatter : Formatter} {source : Value}
    {arguments : List Value} :
    formatter.Converts source arguments ↔
      formatter.signature.Each ParamType.Takes source arguments := by
  constructor
  · rintro ⟨source', arguments', hsource, harguments, -⟩
    exact ⟨⟨source', hsource⟩,
      (formatter.signature.convertFrom_ok_iff 0 arguments).mp ⟨arguments', harguments⟩⟩
  · rintro ⟨⟨source', hsource⟩, htakes⟩
    obtain ⟨arguments', harguments⟩ :=
      (formatter.signature.convertFrom_ok_iff 0 arguments).mpr htakes
    refine ⟨source', arguments', hsource, harguments, ?_⟩
    simp only [call, hsource, harguments]
    rfl

namespace Registry

variable {registry : Registry} {name : String} {source : Value} {arguments : List Value}
  {formatter : Formatter}

/-- A candidate that fits is called, unless it overrates a value. -/
theorem converts_iff_of_select (h : registry.select name source arguments = .ok formatter) :
    formatter.Converts source arguments ↔
      formatter.signature.overrates source arguments = false := by
  have hfits := (fits_of_select h).2
  rw [Formatter.converts_iff_takes]
  constructor
  · intro htakes
    have harity := (Signature.score_isSome_iff_each.mp hfits).1
    exact (Signature.accepts_iff.mp ⟨harity, htakes⟩).2
  · intro hrated
    exact (Signature.accepts_iff.mpr ⟨hfits, hrated⟩).takes

/-- An overload fits a call if it takes as many arguments and each value can be passed,
or is too large for the integer it scores as. So the overloads that can be called are
those that fit and overrate nothing; a selected one is called with converted values
unless it overrates one of them; and where no candidate does, one that can be called
is selected if there is any. -/
theorem fits_iff_accepts_unless_overrated (registry : Registry) (name : String) (source : Value)
    (arguments : List Value) :
    (∀ signature : Signature,
      ((signature.score source arguments).isSome = true ↔
        signature.acceptsArity arguments.length = true ∧
          signature.Each (fun param value => param.Takes value ∨ param.overrates value = true)
            source arguments) ∧
      (signature.Accepts source arguments ↔
        (signature.score source arguments).isSome = true ∧
          signature.overrates source arguments = false)) ∧
    (∀ formatter, registry.select name source arguments = .ok formatter →
      (formatter.Converts source arguments ↔
        formatter.signature.overrates source arguments = false)) ∧
    ((∀ formatter ∈ registry.candidates name,
        formatter.signature.overrates source arguments = false) →
      ((∃ formatter ∈ registry.candidates name, formatter.signature.Accepts source arguments) ↔
        ∃ selected, registry.select name source arguments = .ok selected ∧
          selected.Converts source arguments)) := by
  refine ⟨fun signature => ⟨?_, Signature.accepts_iff⟩, fun formatter => converts_iff_of_select,
    fun hrated => ⟨?_, ?_⟩⟩
  · rw [Signature.score_isSome_iff_each]
    simp only [ParamType.score_isSome_iff]
  · rintro ⟨formatter, hmem, haccepts⟩
    obtain ⟨selected, hselect⟩ := exists_select hmem (Signature.accepts_iff.mp haccepts).1
    have hselected := hrated selected (fits_of_select hselect).1
    exact ⟨selected, hselect, (converts_iff_of_select hselect).mpr hselected⟩
  · rintro ⟨selected, hselect, -⟩
    obtain ⟨hmem, hfits⟩ := fits_of_select hselect
    exact ⟨selected, hmem, Signature.accepts_iff.mpr ⟨hfits, hrated selected hmem⟩⟩

/-- Both standard overloads of `add` take an integer and a whole double. -/
theorem add_accepts_mixed :
    let source := Value.float (.ofInt 2)
    let arguments := [Value.int 3]
    (∀ formatter ∈ standard.candidates "add",
      formatter.signature.overrates source arguments = false) ∧
    ∃ selected, standard.select "add" source arguments = .ok selected ∧
      selected.Converts source arguments := by
  intro source arguments
  have hrated : ∀ formatter ∈ standard.candidates "add",
      formatter.signature.overrates source arguments = false := by
    decide +kernel
  have hfits : ∃ formatter ∈ standard.candidates "add",
      (formatter.signature.score source arguments).isSome = true := by
    decide +kernel
  obtain ⟨formatter, hmem, hfits⟩ := hfits
  obtain ⟨haccepts, -, hselects⟩ :=
    fits_iff_accepts_unless_overrated standard "add" source arguments
  refine ⟨hrated, (hselects hrated).mp ⟨formatter, hmem, ?_⟩⟩
  exact (haccepts formatter.signature).2.mpr ⟨hfits, hrated formatter hmem⟩

/-- An overload for every value beside one for integers. -/
def overlapping : Registry := ⟨[
  ⟨"f", ⟨.any, [], 0, none⟩, fun _ _ => .value (.string "any")⟩,
  ⟨"f", ⟨.int, [], 0, none⟩, fun _ _ => .value (.string "integer")⟩]⟩

/-- Ten to the nineteenth, as a double, fits an overload for integers that it cannot be
passed to. It is selected for a call although another overload can be called. -/
theorem integer_overrates :
    let source := Value.float (.ofInt 10000000000000000000)
    ¬(∀ (signature : Signature) (source : Value) (arguments : List Value),
      (signature.score source arguments).isSome = true ↔ signature.Accepts source arguments) ∧
    (∃ formatter ∈ overlapping.candidates "f", formatter.signature.Accepts source []) ∧
    ∃ selected, overlapping.select "f" source [] = .ok selected ∧
      ¬selected.Converts source [] := by
  intro source
  refine ⟨?_, ?_, ?_⟩
  · intro hclaim
    have haccepts := (hclaim ⟨.int, [], 0, none⟩ source []).mp (by decide +kernel)
    have hrated := (Signature.accepts_iff.mp haccepts).2
    have hlarge : Signature.overrates ⟨.int, [], 0, none⟩ source [] = true := by
      decide +kernel
    rw [hlarge] at hrated
    cases hrated
  · simp only [Signature.accepts_iff]
    decide +kernel
  · have hinteger : ∃ formatter ∈ overlapping.candidates "f",
        formatter.signature.score source [] = some 2 := by
      decide +kernel
    have hother : ∀ formatter ∈ overlapping.candidates "f",
        formatter.signature.overrates source [] = false →
          formatter.signature.score source [] = some 1 := by
      decide +kernel
    obtain ⟨integer, hmem, hfit⟩ := hinteger
    obtain ⟨selected, hselect⟩ := exists_select hmem (by rw [hfit]; rfl)
    refine ⟨selected, hselect, ?_⟩
    rw [converts_iff_of_select hselect]
    intro hrated
    -- the overload that overrates nothing fits less well than the one for integers
    obtain ⟨best, hbest, hle⟩ := best_of_select hselect hmem hfit
    rw [hother selected (fits_of_select hselect).1 hrated] at hbest
    obtain rfl := Option.some.inj hbest
    omega

end Registry

end Stencil
