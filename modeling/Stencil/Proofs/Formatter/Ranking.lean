import Mathlib.Algebra.GroupWithZero.Nat
import Mathlib.Algebra.Order.Group.Nat
import Mathlib.Algebra.Order.BigOperators.Group.List
import Mathlib.Data.List.Induction
import Mathlib.Data.List.Nodup
import Stencil.Proofs.Formatter.Applicability

/-!
The ranking of overloads, one registration after another. An overload that is
registered last enters the ranking behind those that fit better and ahead of all
others. So it is selected if none fits better, and else it changes nothing.
-/

namespace Stencil

/-- An overload that takes a call: where it is registered, and how well it fits. -/
structure Contender where
  position : Nat
  fit : Nat
  formatter : Formatter

namespace Contender

/-- A contender as a ranking lists it. -/
def entry (contender : Contender) : Nat × Formatter :=
  (contender.fit, contender.formatter)

/-- The better fit is ahead, and of equal fits the later registration. -/
def Ahead (a b : Contender) : Prop :=
  b.fit < a.fit ∨ b.fit = a.fit ∧ b.position < a.position

theorem Ahead.fit_le {a b : Contender} (h : a.Ahead b) : b.fit ≤ a.fit := by
  rcases h with hless | ⟨heq, -⟩
  · exact Nat.le_of_lt hless
  · exact Nat.le_of_eq heq

end Contender

theorem ParamType.score_le {param : ParamType} {value : Value} {fit : Nat}
    (h : param.score value = some fit) : fit ≤ 3 := by
  unfold score at h
  split at h <;> simp at h <;> omega

namespace Signature

/-- The scores of the source and of each argument of a call, zero for those that are
not taken. -/
def scores (signature : Signature) (source : Value) (arguments : List Value) : List Nat :=
  (signature.source.score source).getD 0 ::
    arguments.mapIdx fun position argument =>
      ((signature.paramAt? position).bind (·.score argument)).getD 0

/-- An overload scores at least as well as another on the source and on every argument
of a call, and better on one of them. -/
structure Outdoes (better worse : Signature) (source : Value) (arguments : List Value) :
    Prop where
  each : List.Forall₂ (· ≤ ·) (worse.scores source arguments) (better.scores source arguments)
  one : ∃ pair ∈ (worse.scores source arguments).zip (better.scores source arguments),
    pair.1 < pair.2

variable {signature better worse : Signature} {source : Value} {arguments : List Value}

theorem scoreFrom_eq_sum {position fit : Nat}
    (h : signature.scoreFrom position arguments = some fit) :
    fit = (arguments.mapIdx fun offset argument =>
      ((signature.paramAt? (position + offset)).bind (·.score argument)).getD 0).sum := by
  induction arguments generalizing position fit with
  | nil => exact (Option.some.inj h).symm
  | cons argument arguments ih =>
      simp only [scoreFrom, Option.bind_eq_bind, Option.bind_eq_some_iff, Option.pure_def,
        Option.some.injEq] at h
      obtain ⟨param, hparam, own, hown, others, hothers, rfl⟩ := h
      have hrest := ih hothers
      simp only [Nat.add_assoc, Nat.add_comm 1] at hrest
      simp [List.mapIdx_cons, hparam, hown, hrest]

/-- The score of a call is the sum of the scores of its values. -/
theorem score_eq_sum {fit : Nat} (h : signature.score source arguments = some fit) :
    fit = (signature.scores source arguments).sum := by
  unfold score at h
  split at h
  · simp only [Option.bind_eq_bind, Option.bind_eq_some_iff, Option.pure_def,
      Option.some.injEq] at h
    obtain ⟨own, hown, others, hothers, rfl⟩ := h
    have hsum := scoreFrom_eq_sum hothers
    simp only [Nat.zero_add] at hsum
    rw [scores, hown, Option.getD_some, List.sum_cons, ← hsum]
  · cases h

/-- Each value adds at most three to the score of a call. -/
theorem score_le {fit : Nat} (h : signature.score source arguments = some fit) :
    fit ≤ 3 * (arguments.length + 1) := by
  have hscore (score : Option Nat) (hle : ∀ fit, score = some fit → fit ≤ 3) :
      score.getD 0 ≤ 3 := by
    cases score with
    | none => exact Nat.zero_le 3
    | some fit => exact hle fit rfl
  have hall : ∀ fit ∈ signature.scores source arguments, fit ≤ 3 := by
    refine List.forall_mem_cons.mpr ⟨hscore _ fun _ => ParamType.score_le, ?_⟩
    intro fit hmem
    obtain ⟨position, hposition, rfl⟩ := List.mem_mapIdx.mp hmem
    refine hscore _ fun fit hfit => ?_
    obtain ⟨param, -, hfit⟩ := Option.bind_eq_some_iff.mp hfit
    exact ParamType.score_le hfit
  have hsum := List.sum_le_card_nsmul _ 3 hall
  rw [← score_eq_sum h, scores, List.length_cons, List.length_mapIdx, Nat.nsmul_eq_mul] at hsum
  rwa [Nat.mul_comm]

/-- A word of 32 bits holds the score of a call with less than a billion arguments. -/
theorem toNat_ofNat_score {fit : Nat} (h : signature.score source arguments = some fit)
    (hcount : arguments.length < 1000000000) : (UInt32.ofNat fit).toNat = fit := by
  have hle := score_le h
  rw [UInt32.toNat_ofNat']
  exact Nat.mod_eq_of_lt (by omega)

theorem sum_lt_sum_of_forall₂ {low high : List Nat} (each : List.Forall₂ (· ≤ ·) low high)
    (one : ∃ pair ∈ low.zip high, pair.1 < pair.2) : low.sum < high.sum := by
  induction each with
  | nil =>
      obtain ⟨pair, hmem, -⟩ := one
      cases hmem
  | @cons a b low high hle hrest ih =>
      obtain ⟨pair, hmem, hless⟩ := one
      rw [List.sum_cons, List.sum_cons]
      rcases List.mem_cons.mp hmem with rfl | hmore
      · exact Nat.add_lt_add_of_lt_of_le hless hrest.sum_le_sum
      · exact Nat.add_lt_add_of_le_of_lt hle (ih ⟨pair, hmore, hless⟩)

/-- An overload that outdoes another fits better. -/
theorem Outdoes.score_lt (h : better.Outdoes worse source arguments) {low high : Nat}
    (hlow : worse.score source arguments = some low)
    (hhigh : better.score source arguments = some high) : low < high := by
  rw [score_eq_sum hlow, score_eq_sum hhigh]
  exact sum_lt_sum_of_forall₂ h.each h.one

end Signature

namespace Registry

/-- Every registry is made by registering one overload after another. -/
theorem register_induction {motive : Registry → Prop} (empty : motive empty)
    (register : ∀ registry formatter, motive registry → motive (registry.register formatter))
    (registry : Registry) : motive registry := by
  obtain ⟨formatters⟩ := registry
  induction formatters using List.reverseRecOn with
  | nil => exact empty
  | append_singleton formatters formatter ih => exact register ⟨formatters⟩ formatter ih

/-- A contender is an overload of the name that takes the call. -/
structure Contends (registry : Registry) (name : String) (source : Value)
    (arguments : List Value) (contender : Contender) : Prop where
  registered : registry.formatters[contender.position]? = some contender.formatter
  named : contender.formatter.name = name
  fits : contender.formatter.signature.score source arguments = some contender.fit

/-- The ranking lists these contenders: all that there are, each once, and each behind
those that are ahead of it. -/
structure Ranks (registry : Registry) (name : String) (source : Value)
    (arguments : List Value) (contenders : List Contender) : Prop where
  listed : registry.rank name source arguments = contenders.map Contender.entry
  all : ∀ contender, contender ∈ contenders ↔ registry.Contends name source arguments contender
  once : (contenders.map Contender.position).Nodup
  ordered : contenders.Pairwise Contender.Ahead

/-- An overload takes a call at least as well as all that the ranking lists. -/
def Tops (registry : Registry) (name : String) (source : Value) (arguments : List Value)
    (formatter : Formatter) : Prop :=
  formatter.name = name ∧ ∃ fit, formatter.signature.score source arguments = some fit ∧
    ∀ entry ∈ registry.rank name source arguments, entry.1 ≤ fit

variable {registry : Registry} {name : String} {source : Value} {arguments : List Value}
  {formatter : Formatter}

theorem candidates_register (registry : Registry) (formatter : Formatter) (name : String) :
    (registry.register formatter).candidates name =
      registry.candidates name ++ if formatter.name = name then [formatter] else [] := by
  rw [candidates, candidates, register, List.filter_append]
  by_cases hname : formatter.name = name
  · simp [hname]
  · simp [hname]

/-- What does not take a call leaves its ranking as it is. -/
theorem rank_register_of_not (h : ∀ fit, formatter.name = name →
    formatter.signature.score source arguments ≠ some fit) :
    (registry.register formatter).rank name source arguments =
      registry.rank name source arguments := by
  rw [rank, rank, candidates_register]
  by_cases hname : formatter.name = name
  · have hnone : formatter.signature.score source arguments = none :=
      Option.eq_none_iff_forall_ne_some.mpr fun fit => h fit hname
    simp [hname, hnone]
  · simp [hname]

/-- What takes a call enters its ranking behind all that fit better. -/
theorem rank_register (registry : Registry) {fit : Nat} (hname : formatter.name = name)
    (hfit : formatter.signature.score source arguments = some fit) :
    ∃ better others, registry.rank name source arguments = better ++ others ∧
      (registry.register formatter).rank name source arguments =
        better ++ (fit, formatter) :: others ∧
      ∀ entry ∈ better, fit < entry.1 := by
  have hstart : (registry.register formatter).rank name source arguments =
      ((fit, formatter) :: (registry.candidates name).reverse.filterMap fun candidate =>
        (candidate.signature.score source arguments).map fun score =>
          (score, candidate)).mergeSort fun a b => b.1 ≤ a.1 := by
    rw [rank, candidates_register, if_pos hname]
    simp [hfit]
  obtain ⟨better, others, hnew, hold, hbetter⟩ := @List.mergeSort_cons (Nat × Formatter)
    (fun a b => b.1 ≤ a.1) (by simp; omega) (by simp; omega) (fit, formatter)
    ((registry.candidates name).reverse.filterMap fun candidate =>
      (candidate.signature.score source arguments).map fun score => (score, candidate))
  refine ⟨better, others, hold, hstart.trans hnew, ?_⟩
  intro entry hentry
  simpa using hbetter entry hentry

/-- Overloads behind a new one fit it no better. -/
theorem le_of_rank_register {fit : Nat} {better others : List (Nat × Formatter)}
    (h : (registry.register formatter).rank name source arguments =
      better ++ (fit, formatter) :: others) : ∀ entry ∈ others, entry.1 ≤ fit := by
  have hsorted := (registry.register formatter).sorted_rank name source arguments
  rw [h] at hsorted
  have hbehind := (List.pairwise_append.mp hsorted).2.1
  exact fun entry hentry => List.rel_of_pairwise_cons hbehind hentry

theorem select_of_rank_eq {other : Registry}
    (h : other.rank name source arguments = registry.rank name source arguments) :
    other.select name source arguments = registry.select name source arguments := by
  rw [select, select, h]

theorem select_register_of_tops (h : registry.Tops name source arguments formatter) :
    (registry.register formatter).select name source arguments = .ok formatter := by
  obtain ⟨hname, fit, hfit, htop⟩ := h
  obtain ⟨better, others, hold, hnew, hbetter⟩ := registry.rank_register hname hfit
  have hfirst : better = [] := by
    apply List.eq_nil_iff_forall_not_mem.mpr
    intro entry hentry
    have hle := htop entry (hold ▸ List.mem_append_left _ hentry)
    have hless := hbetter entry hentry
    omega
  rw [select, hnew, hfirst]
  rfl

theorem select_register_of_not_tops (h : ¬registry.Tops name source arguments formatter) :
    (registry.register formatter).select name source arguments =
      registry.select name source arguments := by
  by_cases htakes : ∃ fit, formatter.name = name ∧
      formatter.signature.score source arguments = some fit
  · obtain ⟨fit, hname, hfit⟩ := htakes
    obtain ⟨better, others, hold, hnew, -⟩ := registry.rank_register hname hfit
    cases better with
    | nil =>
        refine absurd ⟨hname, fit, hfit, ?_⟩ h
        rw [hold]
        exact le_of_rank_register hnew
    | cons best better =>
        rw [select, select, hold, hnew]
        rfl
  · apply select_of_rank_eq
    apply rank_register_of_not
    intro fit hname hfit
    exact htakes ⟨fit, hname, hfit⟩

theorem getElem?_register {position : Nat} {other : Formatter} :
    (registry.register formatter).formatters[position]? = some other ↔
      registry.formatters[position]? = some other ∨
        position = registry.size ∧ formatter = other := by
  rw [register, size]
  rcases Nat.lt_trichotomy position registry.formatters.length with hless | rfl | hmore
  · have hother : position ≠ registry.formatters.length := by omega
    simp [List.getElem?_append_left hless, hother]
  · simp
  · have hnew : ¬position < registry.formatters.length + 1 := by omega
    have hold : ¬position < registry.formatters.length := by omega
    have hother : position ≠ registry.formatters.length := by omega
    simp [hnew, hold, hother]

/-- The contenders of an extended registry are those that there were, and the new
overload if it takes the call. -/
theorem contends_register {contender : Contender} :
    (registry.register formatter).Contends name source arguments contender ↔
      registry.Contends name source arguments contender ∨
        formatter.name = name ∧ ∃ fit, formatter.signature.score source arguments = some fit ∧
          contender = ⟨registry.size, fit, formatter⟩ := by
  obtain ⟨position, fit, contending⟩ := contender
  constructor
  · rintro ⟨hregistered, hnamed, hfits⟩
    rcases getElem?_register.mp hregistered with hold | ⟨rfl, rfl⟩
    · exact Or.inl ⟨hold, hnamed, hfits⟩
    · exact Or.inr ⟨hnamed, fit, hfits, rfl⟩
  · rintro (⟨hregistered, hnamed, hfits⟩ | ⟨hnamed, _, hfits, heq⟩)
    · exact ⟨getElem?_register.mpr (Or.inl hregistered), hnamed, hfits⟩
    · cases heq
      exact ⟨getElem?_register.mpr (Or.inr ⟨rfl, rfl⟩), hnamed, hfits⟩

theorem Contends.position_lt {contender : Contender}
    (h : registry.Contends name source arguments contender) :
    contender.position < registry.size :=
  (List.getElem?_eq_some_iff.mp h.registered).1

theorem Ranks.register_of_not {contenders : List Contender}
    (h : registry.Ranks name source arguments contenders)
    (hnot : ∀ fit, formatter.name = name →
      formatter.signature.score source arguments ≠ some fit) :
    (registry.register formatter).Ranks name source arguments contenders where
  listed := (rank_register_of_not hnot).trans h.listed
  all contender := by
    rw [h.all, contends_register]
    constructor
    · exact Or.inl
    · rintro (hold | ⟨hname, fit, hfit, -⟩)
      · exact hold
      · exact absurd hfit (hnot fit hname)
  once := h.once
  ordered := h.ordered

theorem Ranks.register {contenders : List Contender} {fit : Nat}
    (h : registry.Ranks name source arguments contenders) (hname : formatter.name = name)
    (hfit : formatter.signature.score source arguments = some fit) :
    ∃ extended, (registry.register formatter).Ranks name source arguments extended := by
  obtain ⟨better, others, hold, hnew, hbetter⟩ := registry.rank_register hname hfit
  obtain ⟨front, back, rfl, rfl, rfl⟩ := List.map_eq_append_iff.mp (h.listed.symm.trans hold)
  have hearlier (contender : Contender) (hmem : contender ∈ front ++ back) :
      contender.position < registry.size := ((h.all contender).mp hmem).position_lt
  refine ⟨front ++ ⟨registry.size, fit, formatter⟩ :: back, ?_, ?_, ?_, ?_⟩
  · rw [hnew, List.map_append, List.map_cons]
    rfl
  · intro contender
    rw [contends_register, ← h.all]
    simp only [hname, hfit, true_and, Option.some.injEq, exists_eq_left', List.mem_append,
      List.mem_cons]
    tauto
  · have hperm : (front ++ (⟨registry.size, fit, formatter⟩ : Contender) :: back).Perm
        (⟨registry.size, fit, formatter⟩ :: (front ++ back)) := List.perm_middle
    rw [(hperm.map _).nodup_iff, List.map_cons, List.nodup_cons]
    refine ⟨?_, h.once⟩
    intro hmem
    obtain ⟨contender, hcontender, hposition⟩ := List.mem_map.mp hmem
    have hless := hearlier contender hcontender
    simp only at hposition
    omega
  · obtain ⟨hfront, hback, hacross⟩ := List.pairwise_append.mp h.ordered
    have hbehind (contender : Contender) (hmem : contender ∈ back) : contender.fit ≤ fit :=
      le_of_rank_register hnew contender.entry (List.mem_map_of_mem hmem)
    refine List.pairwise_append.mpr ⟨hfront, List.pairwise_cons.mpr ⟨?_, hback⟩, ?_⟩
    · intro contender hmem
      have hless := hearlier contender (List.mem_append_right _ hmem)
      rcases Nat.lt_or_eq_of_le (hbehind contender hmem) with hworse | hequal
      · exact Or.inl hworse
      · exact Or.inr ⟨hequal, hless⟩
    · intro contender hmem other hother
      rcases List.mem_cons.mp hother with rfl | hmore
      · exact Or.inl (hbetter contender.entry (List.mem_map_of_mem hmem))
      · exact hacross contender hmem other hmore

/-- Every ranking lists its contenders in their order. -/
theorem exists_ranks (registry : Registry) (name : String) (source : Value)
    (arguments : List Value) :
    ∃ contenders, registry.Ranks name source arguments contenders := by
  induction registry using register_induction with
  | empty =>
      refine ⟨[], by simp [rank, candidates, empty], ?_, List.nodup_nil, List.Pairwise.nil⟩
      intro contender
      constructor
      · intro hmem
        cases hmem
      · rintro ⟨hregistered, -, -⟩
        cases hregistered
  | register registry formatter ih =>
      obtain ⟨contenders, h⟩ := ih
      by_cases htakes : ∃ fit, formatter.name = name ∧
          formatter.signature.score source arguments = some fit
      · obtain ⟨fit, hname, hfit⟩ := htakes
        exact h.register hname hfit
      · refine ⟨contenders, h.register_of_not ?_⟩
        intro fit hname hfit
        exact htakes ⟨fit, hname, hfit⟩

namespace Ranks

variable {contenders : List Contender}

/-- Of two contenders the one that fits better stands ahead. -/
theorem lt_of_fit_lt (h : registry.Ranks name source arguments contenders)
    {i j : Nat} {a b : Contender} (ha : contenders[i]? = some a) (hb : contenders[j]? = some b)
    (hless : b.fit < a.fit) : i < j := by
  rcases Nat.lt_trichotomy i j with hahead | rfl | hbehind
  · exact hahead
  · obtain rfl := Option.some.inj (ha.symm.trans hb)
    omega
  · obtain ⟨hi, rfl⟩ := List.getElem?_eq_some_iff.mp ha
    obtain ⟨hj, rfl⟩ := List.getElem?_eq_some_iff.mp hb
    have hle := (List.pairwise_iff_getElem.mp h.ordered j i hj hi hbehind).fit_le
    omega

/-- The choice is ambiguous if the best fit is that of two contenders. -/
theorem isAmbiguous_iff (h : registry.Ranks name source arguments contenders) :
    registry.isAmbiguous name source arguments = true ↔
      ∃ a ∈ contenders, ∃ b ∈ contenders, a ≠ b ∧ a.fit = b.fit ∧
        ∀ other ∈ contenders, other.fit ≤ a.fit := by
  have hordered := h.ordered
  have hdistinct : contenders.Nodup := List.Nodup.of_map _ h.once
  rw [isAmbiguous, h.listed]
  match contenders, hordered, hdistinct with
  | [], _, _ => simp
  | [only], _, _ => simp +contextual
  | first :: second :: rest, hordered, hdistinct =>
      obtain ⟨hfirst, hrest⟩ := List.pairwise_cons.mp hordered
      have hbest (other : Contender) (hmem : other ∈ first :: second :: rest) :
          other.fit ≤ first.fit := by
        rcases List.mem_cons.mp hmem with rfl | hmore
        · exact Nat.le_refl _
        · exact (hfirst other hmore).fit_le
      have hnext (other : Contender) (hmem : other ∈ second :: rest) :
          other.fit ≤ second.fit := by
        rcases List.mem_cons.mp hmem with rfl | hmore
        · exact Nat.le_refl _
        · exact (List.rel_of_pairwise_cons hrest hmore).fit_le
      simp only [List.map_cons, Contender.entry, beq_iff_eq]
      constructor
      · intro heq
        refine ⟨first, by simp, second, by simp, ?_, heq, hbest⟩
        rintro rfl
        simp at hdistinct
      · rintro ⟨a, ha, b, hb, hne, heq, hmax⟩
        have hfirst := hmax first (by simp)
        have hsecond := hbest second (by simp)
        -- one of the two is not the first
        rcases List.mem_cons.mp ha with rfl | ha
        · rcases List.mem_cons.mp hb with rfl | hb
          · exact absurd rfl hne
          · have := hnext b hb
            omega
        · have := hnext a ha
          omega

end Ranks

/-- An overload that is registered last is selected if it fits as well as all that were
there, and else the choice stays what it was. The ranking lists every overload that takes
the call once, the better fit ahead and of equal fits the later registration; the choice
is ambiguous if the best fit is shared; and an overload that outdoes another is ahead. A
word of 32 bits holds every fit. -/
theorem selection_is_incremental (registry : Registry) (name : String) (source : Value)
    (arguments : List Value) :
    (∀ formatter,
      (registry.Tops name source arguments formatter →
        (registry.register formatter).select name source arguments = .ok formatter) ∧
      (¬registry.Tops name source arguments formatter →
        (registry.register formatter).select name source arguments =
          registry.select name source arguments)) ∧
    ∃ contenders, registry.Ranks name source arguments contenders ∧
      (registry.isAmbiguous name source arguments = true ↔
        ∃ a ∈ contenders, ∃ b ∈ contenders, a ≠ b ∧ a.fit = b.fit ∧
          ∀ other ∈ contenders, other.fit ≤ a.fit) ∧
      (∀ (i j : Nat) (a b : Contender), contenders[i]? = some a → contenders[j]? = some b →
        a.formatter.signature.Outdoes b.formatter.signature source arguments → i < j) ∧
      (arguments.length < 1000000000 →
        ∀ contender ∈ contenders, (UInt32.ofNat contender.fit).toNat = contender.fit) := by
  refine ⟨fun formatter => ⟨select_register_of_tops, select_register_of_not_tops⟩, ?_⟩
  obtain ⟨contenders, h⟩ := registry.exists_ranks name source arguments
  refine ⟨contenders, h, h.isAmbiguous_iff, ?_, ?_⟩
  · intro i j a b ha hb houtdoes
    have hfits := ((h.all a).mp (List.mem_of_getElem? ha)).fits
    have hworse := ((h.all b).mp (List.mem_of_getElem? hb)).fits
    exact h.lt_of_fit_lt ha hb (houtdoes.score_lt hworse hfits)
  · intro hcount contender hmem
    exact Signature.toNat_ofNat_score ((h.all contender).mp hmem).fits hcount

/-- Another overload for integers takes the place of the one that there was; another one
for every value does not. -/
theorem overlapping_selection :
    let source := Value.int 3
    let newer : Formatter := ⟨"f", ⟨.int, [], 0, none⟩, fun _ _ => .value (.string "newer")⟩
    let wider : Formatter := ⟨"f", ⟨.any, [], 0, none⟩, fun _ _ => .value (.string "wider")⟩
    (overlapping.register newer).select "f" source [] = .ok newer ∧
    (overlapping.register wider).select "f" source [] = overlapping.select "f" source [] ∧
    ∃ contenders, overlapping.Ranks "f" source [] contenders ∧
      ∃ (i j : Nat) (a b : Contender), contenders[i]? = some a ∧ contenders[j]? = some b ∧
        a.position = 1 ∧ b.position = 0 ∧ i < j ∧ (UInt32.ofNat a.fit).toNat = a.fit := by
  intro source newer wider
  obtain ⟨hselect, contenders, h, -, hahead, hwords⟩ :=
    selection_is_incremental overlapping "f" source []
  have hscores : ∀ formatter ∈ overlapping.candidates "f",
      formatter.signature.score source [] = some 1 ∨
        formatter.signature.score source [] = some 3 := by
    decide +kernel
  have htops : overlapping.Tops "f" source [] newer := by
    refine ⟨rfl, 3, rfl, ?_⟩
    rintro ⟨fit, formatter⟩ hentry
    obtain ⟨hmem, hfit⟩ := mem_rank_iff.mp hentry
    rcases hscores formatter hmem with hscore | hscore
    · have hfit := Option.some.inj (hscore.symm.trans hfit)
      omega
    · have hfit := Option.some.inj (hscore.symm.trans hfit)
      omega
  have hnot : ¬overlapping.Tops "f" source [] wider := by
    rintro ⟨-, fit, hfit, hbest⟩
    obtain rfl : 1 = fit := Option.some.inj hfit
    have hentry : (3, overlapping.formatters[1]) ∈ overlapping.rank "f" source [] :=
      mem_rank_iff.mpr ⟨List.mem_cons_of_mem _ (List.mem_cons_self ..), rfl⟩
    exact absurd (hbest _ hentry) (by decide)
  have hint : overlapping.Contends "f" source [] ⟨1, 3, overlapping.formatters[1]⟩ :=
    ⟨rfl, rfl, rfl⟩
  have hany : overlapping.Contends "f" source [] ⟨0, 1, overlapping.formatters[0]⟩ :=
    ⟨rfl, rfl, rfl⟩
  have hword := hwords (by decide) _ ((h.all _).mpr hint)
  obtain ⟨i, hi⟩ := List.mem_iff_getElem?.mp ((h.all _).mpr hint)
  obtain ⟨j, hj⟩ := List.mem_iff_getElem?.mp ((h.all _).mpr hany)
  refine ⟨(hselect newer).1 htops, (hselect wider).2 hnot, contenders, h, i, j, _, _, hi, hj,
    rfl, rfl, hahead i j _ _ hi hj ⟨?_, ?_⟩, hword⟩
  · decide +kernel
  · decide +kernel

end Registry

end Stencil
