import Stencil.Proofs.Render.Evaluation
import Stencil.Proofs.Render.Nesting

/-!
Sections. Every kind of section asks of the value of its expression whether it holds,
and all kinds but one ask whether the value is truthy. If it holds the body is rendered
in one or more rounds, and else the other branch is rendered once.
-/

namespace Stencil

/-- A value that is iterated is truthy if there is something in it. -/
theorem Value.isTruthy_of_elements? {value : Value} {values : List Value}
    (h : value.elements? = some values) : value.isTruthy = !values.isEmpty := by
  cases value with
  | list items =>
      obtain rfl := Option.some.inj h
      rfl
  | map entries =>
      obtain rfl := Option.some.inj h
      rw [isTruthy, List.isEmpty_map]
  | object host =>
      obtain ⟨length, hlength, rfl⟩ := Option.map_eq_some_iff.mp h
      rw [isTruthy, hlength]
      cases length with
      | zero => rfl
      | succ length =>
          rw [List.isEmpty_map, List.range_succ_eq_map]
          rfl
  | null | bool | int | float | string => cases h

/-- What a section asks of the value of its expression, if there is one, for its body to
be rendered. -/
def SectionKind.holds : SectionKind → Option Value → Bool
  | .truthy, value | .each, value | .plain, value => value.any Value.isTruthy
  | .falsy, value => !value.any Value.isTruthy
  | .within, value => value.any (!·.isNull)

/-- One time that the body of a section is rendered. The signal is polled before an
element of an iteration. -/
structure Round where
  context : Context
  polled : Bool

/-- The run in which the body of a round is rendered, if the signal lets it go on. -/
def Round.start (round : Round) (run : Run) : Run :=
  if round.polled then (run.handle .poll).2 else run

/-- A round for each of these elements, in order. -/
def Round.ofElements (ctx : Context) (path : String) (values : List Value) : List Round :=
  values.mapIdx fun index value =>
    ⟨ctx.enter (.ofElement path value ⟨index, values.length⟩), true⟩

/-- The rounds of a section that iterates or enters a value. -/
def SectionKind.roundsOf (kind : SectionKind) (ctx : Context) (path : String) (value : Value) :
    List Round :=
  match Script.elementsOf? kind value with
  | some values => Round.ofElements ctx path values
  | none =>
      let scope := if kind = .each then Scope.ofElement path value ⟨0, 1⟩
        else Scope.ofValue path value
      [⟨ctx.enter scope, false⟩]

/-- The rounds of a section that holds. -/
def SectionKind.rounds (kind : SectionKind) (ctx : Context) (scope : Scope) : List Round :=
  match kind, scope.value with
  | .truthy, _ | .falsy, _ => [⟨ctx, false⟩]
  | .each, some value | .plain, some value => kind.roundsOf ctx scope.path value
  | .within, some value => [⟨ctx.enter (.ofValue scope.path value), false⟩]
  | _, none => []

/-- Renders a body in one round after another, until an error stops it. -/
def Script.inTurn (body : Script.Body) : List Round → Run → Except RenderError Unit × Run
  | [], run => (.ok (), run)
  | round :: rounds, run =>
      match if round.polled then run.handle .poll else (.ok (), run) with
      | (.error error, run) => (.error error, run)
      | (.ok (), run) =>
          match (body round.context).perform run with
          | (.error error, run) => (.error error, run)
          | (.ok (), run) => inTurn body rounds run

namespace Script

variable {body otherwise : Body} {ctx : Context} {run : Run}

/-- A single round that is not polled for is the body. -/
theorem inTurn_single (body : Body) (ctx : Context) (run : Run) :
    inTurn body [⟨ctx, false⟩] run = (body ctx).perform run := by
  simp only [inTurn, Bool.false_eq_true, if_false]
  rcases (body ctx).perform run with ⟨error | _, after⟩ <;> rfl

theorem perform_elements (body : Body) (ctx : Context) (path : String) (length index : Nat)
    (values : List Value) (run : Run) :
    (elements body ctx path length index values).perform run =
      inTurn body (values.mapIdx fun offset value =>
        ⟨ctx.enter (.ofElement path value ⟨index + offset, length⟩), true⟩) run := by
  induction values generalizing index run with
  | nil => rfl
  | cons value values ih =>
      have hrest := ih (index + 1)
      simp only [Nat.add_right_comm, Nat.add_assoc] at hrest
      rw [elements, List.mapIdx_cons, inTurn, if_pos rfl]
      rcases hpoll : run.handle .poll with ⟨error | _, polled⟩
      · exact perform_event_error hpoll
      · rw [perform_event hpoll, perform_andThen]
        simp only
        rcases (body _).perform polled with ⟨error | _, after⟩
        · rfl
        · exact hrest after

theorem elements?_of_elementsOf? {kind : SectionKind} {value : Value} {values : List Value}
    (h : elementsOf? kind value = some values) : value.elements? = some values := by
  unfold elementsOf? at h
  split at h
  · cases h
  · exact h

/-- An iterating section renders its body if its value is truthy. -/
theorem perform_iterate (kind : SectionKind) (body otherwise : Body) (ctx : Context)
    (path : String) (value : Value) (run : Run) :
    (iterate kind body otherwise ctx path value).perform run =
      if value.isTruthy then inTurn body (kind.roundsOf ctx path value) run
      else (otherwise ctx).perform run := by
  unfold iterate SectionKind.roundsOf
  cases helements : elementsOf? kind value with
  | none =>
      cases value.isTruthy with
      | true => exact (inTurn_single body _ run).symm
      | false => rfl
  | some values =>
      rw [Value.isTruthy_of_elements? (elements?_of_elementsOf? helements)]
      cases values with
      | nil => rfl
      | cons first rest =>
          have hrounds :=
            perform_elements body ctx path (first :: rest).length 0 (first :: rest) run
          simp only [Nat.zero_add] at hrounds
          exact hrounds

theorem perform_branch (kind : SectionKind) (body otherwise : Body) (ctx : Context)
    (scope : Scope) (run : Run) :
    (branch kind body otherwise ctx scope).perform run =
      if kind.holds scope.value then inTurn body (kind.rounds ctx scope) run
      else (otherwise ctx).perform run := by
  unfold branch SectionKind.rounds SectionKind.holds
  cases kind with
  | truthy =>
      rw [inTurn_single]
      exact apply_ite (perform · run) _ _ _
  | falsy =>
      rw [inTurn_single]
      cases hany : scope.value.any Value.isTruthy <;> simp [hany]
  | each | plain =>
      cases scope.value with
      | none => rfl
      | some value => exact perform_iterate _ body otherwise ctx scope.path value run
  | within =>
      cases scope.value with
      | none => rfl
      | some value =>
          simp only [inTurn_single, Option.any_some]
          cases value.isNull <;> rfl

/-- A section is rendered by what its expression evaluates to. -/
theorem perform_block {env : Environment} {kind : SectionKind} {expression : Expression}
    {scope : Scope}
    (heval : (Evaluation.ofExpression env ctx (expectation kind) expression).result = .ok scope) :
    (block env kind expression body otherwise ctx).perform run =
      (branch kind body otherwise ctx scope).perform
        (run.after (Evaluation.ofExpression env ctx (expectation kind) expression).events) := by
  rw [block, Evaluation.script, heval]
  exact perform_afterEvents (Evaluation.follows_ofExpression _ expression).handle_ok _ run

/-- If the signal lets the run go on, the body is rendered in the first round. -/
theorem inTurn_cons {round : Round} {rounds : List Round}
    (hquiet : (run.signal.check).1 = .ok ()) :
    inTurn body (round :: rounds) run =
      match (body round.context).perform (round.start run) with
      | (.error error, run) => (.error error, run)
      | (.ok (), run) => inTurn body rounds run := by
  have hpoll : run.handle .poll = (.ok (), (run.handle .poll).2) := Prod.ext hquiet rfl
  rw [inTurn, Round.start]
  cases round.polled with
  | true =>
      rw [if_pos rfl, if_pos rfl, hpoll]
  | false => rfl

end Script

/-- The section renders its body once for each of these elements of a value. -/
inductive SectionKind.Visits : SectionKind → Value → List Value → Prop where
  | eachItem (items : List Value) : Visits .each (.list items) items
  | plainItem (items : List Value) : Visits .plain (.list items) items
  | entry (entries : List (String × Value)) : Visits .each (.map entries)
      (entries.map fun (key, value) => .map [("key", .string key), ("value", value)])
  | eachPosition {host : HostObject Value} {length : Nat} (sequence : host.length = some length) :
      Visits .each (.object host)
        ((List.range length).map fun position => (host.item? position).getD .null)
  | plainPosition {host : HostObject Value} {length : Nat} (sequence : host.length = some length) :
      Visits .plain (.object host)
        ((List.range length).map fun position => (host.item? position).getD .null)

namespace SectionKind

variable {kind : SectionKind} {value : Value} {values : List Value}

theorem Visits.elementsOf? (h : kind.Visits value values) :
    Script.elementsOf? kind value = some values := by
  cases h with
  | eachItem | plainItem | entry => rfl
  | eachPosition sequence | plainPosition sequence =>
      simp [Script.elementsOf?, Value.elements?, sequence]

theorem Visits.rounds (h : kind.Visits value values) (ctx : Context) {scope : Scope}
    (hvalue : scope.value = some value) :
    kind.rounds ctx scope = Round.ofElements ctx scope.path values := by
  have helements := h.elementsOf?
  cases h <;> simp [SectionKind.rounds, roundsOf, hvalue, helements]

theorem visits_of_elementsOf? (hkind : kind = .each ∨ kind = .plain)
    (h : Script.elementsOf? kind value = some values) : kind.Visits value values := by
  have helements := Script.elements?_of_elementsOf? h
  cases value with
  | list items =>
      obtain rfl := Option.some.inj helements
      rcases hkind with rfl | rfl
      · exact .eachItem items
      · exact .plainItem items
  | map entries =>
      rcases hkind with rfl | rfl
      · obtain rfl := Option.some.inj h
        exact .entry entries
      · cases h
  | object host =>
      obtain ⟨length, hlength, rfl⟩ := Option.map_eq_some_iff.mp helements
      rcases hkind with rfl | rfl
      · exact .eachPosition hlength
      · exact .plainPosition hlength
  | null | bool | int | float | string => cases helements

theorem elementsOf?_eq_none (hkind : kind = .each ∨ kind = .plain)
    (hone : ∀ values, ¬kind.Visits value values) : Script.elementsOf? kind value = none := by
  cases helements : Script.elementsOf? kind value with
  | none => rfl
  | some values => exact absurd (visits_of_elementsOf? hkind helements) (hone values)

/-- A truthy value has something to iterate, or is not iterated. -/
theorem roundsOf_ne_nil (kind : SectionKind) (ctx : Context) (path : String)
    (htruthy : value.isTruthy = true) : kind.roundsOf ctx path value ≠ [] := by
  unfold roundsOf
  split
  · rename_i values helements
    rw [Value.isTruthy_of_elements? (Script.elements?_of_elementsOf? helements)] at htruthy
    cases values with
    | nil => cases htruthy
    | cons first rest => simp [Round.ofElements]
  · exact List.cons_ne_nil _ _

variable {ctx : Context} {scope : Scope}

/-- A section that holds renders its body at least once. -/
theorem rounds_ne_nil (hholds : kind.holds scope.value = true) : kind.rounds ctx scope ≠ [] := by
  unfold rounds
  cases kind with
  | truthy | falsy => exact List.cons_ne_nil _ _
  | each | plain =>
      obtain ⟨value, hvalue, htruthy⟩ := (Option.any_eq_true _ _).mp hholds
      rw [hvalue]
      exact roundsOf_ne_nil _ ctx scope.path htruthy
  | within =>
      obtain ⟨value, hvalue, -⟩ := (Option.any_eq_true _ _).mp hholds
      rw [hvalue]
      exact List.cons_ne_nil _ _

/-- A section that holds and does not iterate renders its body once. -/
theorem length_rounds (hholds : kind.holds scope.value = true)
    (hone : ∀ value ∈ scope.value, ∀ values, ¬kind.Visits value values) :
    (kind.rounds ctx scope).length = 1 := by
  unfold rounds
  cases kind with
  | truthy | falsy => rfl
  | each | plain =>
      obtain ⟨value, hvalue, -⟩ := (Option.any_eq_true _ _).mp hholds
      have hnone := elementsOf?_eq_none (by simp) (hone value hvalue)
      rw [hvalue]
      simp only [roundsOf, hnone]
      rfl
  | within =>
      obtain ⟨value, hvalue, -⟩ := (Option.any_eq_true _ _).mp hholds
      rw [hvalue]
      rfl

end SectionKind

/-- The index of an iteration. -/
def Path.loopIndex : Path :=
  ⟨[.name "$index"], "$index"⟩

/-- Rounds over elements count from zero. -/
theorem Round.of_getElem?_ofElements {ctx : Context} {path : String} {values : List Value}
    {index : Nat} {round : Round} (h : (Round.ofElements ctx path values)[index]? = some round)
    (resolver : Option Resolver) :
    round.context.here.value = values[index]? ∧
      round.context.find? resolver .loopIndex = some ⟨.ofNat index, false⟩ := by
  rw [ofElements, List.getElem?_mapIdx] at h
  obtain ⟨value, hvalue, rfl⟩ := Option.map_eq_some_iff.mp h
  exact ⟨hvalue.symm, rfl⟩

/-- Two runs with the same output, signal, partials being rendered and partials
declared. What they record may differ. -/
structure Run.Alike (run run' : Run) : Prop where
  sink : run'.sink = run.sink
  signal : run'.signal = run.signal
  stack : run'.session.stack = run.session.stack
  declared : run'.session.declared = run.session.declared

namespace Run

variable {run run' : Run}

theorem Alike.refl (run : Run) : run.Alike run :=
  ⟨rfl, rfl, rfl, rfl⟩

/-- Whatever is recorded of items, runs that leave them stay alike. -/
theorem Alike.leaveItem (h : run.Alike run') (item item' : Item) :
    (run.leave (.item item)).Alike (run'.leave (.item item')) where
  sink := by rw [sink_leave, sink_leave, h.sink]
  signal := h.signal
  stack := by
    change (run'.session.recordItem item').stack = (run.session.recordItem item).stack
    rw [Session.stack_recordItem, Session.stack_recordItem, h.stack]
  declared := by rw [declared_leave, declared_leave, h.declared]

end Run

namespace Script

/-- A section on a condition is an inverted one with its branches the other way round. -/
theorem block_falsy (env : Environment) (expression : Expression) (body otherwise : Body)
    (ctx : Context) :
    block env .falsy expression otherwise body ctx =
      block env .truthy expression body otherwise ctx :=
  rfl

/-- Two items with one script come to one result, and to runs that are alike and have
recorded the same paths. -/
theorem perform_items_of_same {env : Environment} {enter : String → Body} {item item' : Item}
    {ctx : Context} (h : Script.item env enter item' ctx = Script.item env enter item ctx)
    (run : Run) :
    let done := (items env enter [item] ctx).perform run
    let done' := (items env enter [item'] ctx).perform run
    done'.1 = done.1 ∧ done.2.Alike done'.2 ∧ done'.2.unresolved = done.2.unresolved := by
  simp only [items_cons, items_nil]
  rcases hpoll : run.handle .poll with ⟨error | _, polled⟩
  · rw [perform_event_error hpoll, perform_event_error hpoll]
    exact ⟨rfl, .refl _, rfl⟩
  · rw [perform_event hpoll, perform_event hpoll, h]
    rcases hperform : (Script.item env enter item ctx).perform polled with ⟨error | _, after⟩
    · have hleft (rendered : Item) :
          (inside (.item rendered) (Script.item env enter item ctx) fun _ => done).perform polled =
            (.error error, after.leave (.item rendered)) := perform_inside_error hperform
      rw [hleft, hleft]
      exact ⟨rfl, (Run.Alike.refl after).leaveItem _ _, rfl⟩
    · have hleft (rendered : Item) :
          (inside (.item rendered) (Script.item env enter item ctx) fun _ => done).perform polled =
            (.ok (), after.leave (.item rendered)) := perform_inside hperform
      rw [hleft, hleft]
      exact ⟨rfl, (Run.Alike.refl after).leaveItem _ _, rfl⟩

/-- What comes of a section in a run, given what its expression evaluated to. If the
section holds, its body is rendered in its rounds: in one if it does not iterate, and else
in one for each element, in order; the first is begun if the signal lets the run go on. If
it does not hold, the other branch is rendered, once and in the scope of the section. -/
structure TruthPolicy (env : Environment) (enter : String → Body) (kind : SectionKind)
    (body otherwise : List Item) (ctx : Context) (scope : Scope) (run : Run)
    (done : Except RenderError Unit × Run) : Prop where
  holds : kind.holds scope.value = true →
    done = inTurn (items env enter body) (kind.rounds ctx scope) run
  fails : kind.holds scope.value = false → done = (items env enter otherwise ctx).perform run
  begins : kind.holds scope.value = true → (run.signal.check).1 = .ok () →
    ∃ first rest, kind.rounds ctx scope = first :: rest ∧
      done = match (items env enter body first.context).perform (first.start run) with
        | (.error error, run) => (.error error, run)
        | (.ok (), run) => inTurn (items env enter body) rest run
  once : kind.holds scope.value = true →
    (∀ value ∈ scope.value, ∀ values, ¬kind.Visits value values) →
    (kind.rounds ctx scope).length = 1
  visits : ∀ value ∈ scope.value, ∀ values, kind.Visits value values →
    kind.rounds ctx scope = Round.ofElements ctx scope.path values
  counts : ∀ value ∈ scope.value, ∀ values, kind.Visits value values →
    ∀ index (round : Round), (kind.rounds ctx scope)[index]? = some round →
      round.context.here.value = values[index]? ∧
      round.context.find? env.resolver .loopIndex = some ⟨.ofNat index, false⟩

theorem truthPolicy_branch (env : Environment) (enter : String → Body) (kind : SectionKind)
    (body otherwise : List Item) (ctx : Context) (scope : Scope) (run : Run) :
    TruthPolicy env enter kind body otherwise ctx scope run
      ((branch kind (items env enter body) (items env enter otherwise) ctx scope).perform run) := by
  have hdone := perform_branch kind (items env enter body) (items env enter otherwise) ctx scope run
  constructor
  case holds =>
    intro hholds
    rw [hdone, if_pos hholds]
  case fails =>
    intro hfails
    rw [hdone, hfails]
    exact if_neg Bool.false_ne_true
  case begins =>
    intro hholds hquiet
    obtain ⟨first, rest, hrounds⟩ := List.exists_cons_of_ne_nil (kind.rounds_ne_nil hholds)
    refine ⟨first, rest, hrounds, ?_⟩
    rw [hdone, if_pos hholds, hrounds, inTurn_cons hquiet]
  case once => exact SectionKind.length_rounds
  case visits =>
    intro value hvalue values hvisits
    exact hvisits.rounds ctx hvalue
  case counts =>
    intro value hvalue values hvisits index round hround
    rw [hvisits.rounds ctx hvalue] at hround
    exact Round.of_getElem?_ofElements hround env.resolver

/-- All kinds of sections follow one policy, whatever their expression evaluates to, if it
does. A section on a condition and an inverted one with its branches the other way round
do the same. -/
theorem sections_follow_policy (env : Environment) (enter : String → Body)
    (expression : Expression) (body otherwise : List Item) (ctx : Context) (run : Run) :
    (∀ kind scope span,
      let evaluation := Evaluation.ofExpression env ctx (expectation kind) expression
      evaluation.result = .ok scope →
      TruthPolicy env enter kind body otherwise ctx scope (run.after evaluation.events)
        ((item env enter (.block kind expression body otherwise span) ctx).perform run)) ∧
    (∀ span span',
      let done := (items env enter [.block .truthy expression body otherwise span] ctx).perform run
      let done' := (items env enter [.block .falsy expression otherwise body span'] ctx).perform run
      done'.1 = done.1 ∧ done.2.Alike done'.2 ∧ done'.2.unresolved = done.2.unresolved) := by
  constructor
  · intro kind scope span evaluation heval
    rw [item_block, perform_block heval]
    exact truthPolicy_branch env enter kind body otherwise ctx scope _
  · intro span span'
    apply perform_items_of_same
    rw [item_block, item_block, block_falsy]

/-- Over a list of two, `each` renders its body in two rounds. -/
theorem each_over_two :
    let values := [Value.string "a", Value.string "b"]
    let ctx := Context.root (.map [("items", .list values)])
    let expression : Expression := ⟨⟨[.name "items"], "items"⟩, [], ⟨8, 13, 1, 9⟩⟩
    let body := [Item.output ⟨.loopIndex, [], ⟨17, 23, 1, 18⟩⟩ true ⟨15, 25, 1, 16⟩]
    let env := Options.default.environment
    let enter := enterPartial env env.partialDepth
    let scope := Scope.ofFound "items" (some ⟨.list values, false⟩)
    let run := Template.greeting.start .memory .never
    let evaluation := Evaluation.ofExpression env ctx .sequence expression
    let item := Item.block .each expression body [] ⟨0, 34, 1, 1⟩
    evaluation.result = .ok scope ∧ SectionKind.holds .each scope.value = true ∧
      (Script.item env enter item ctx).perform run =
        inTurn (items env enter body) (Round.ofElements ctx "items" values)
          (run.after evaluation.events) := by
  intro values ctx expression body env enter scope run evaluation item
  have heval : evaluation.result = .ok scope := rfl
  have hpolicy := (sections_follow_policy env enter expression body [] ctx run).1 .each scope
    ⟨0, 34, 1, 1⟩ heval
  have hholds : SectionKind.holds .each scope.value = true := rfl
  have hrounds := hpolicy.visits (.list values) rfl values (.eachItem values)
  refine ⟨heval, hholds, ?_⟩
  rw [hpolicy.holds hholds, hrounds]
  rfl

end Script

end Stencil
