import Mathlib.Data.Prod.Lex
import Stencil.Proofs.Render.Recursion

/-!
The recursion of a render comes to an end. A call makes calls that are lighter, or
that are inside one partial more, of which there are only so many; and when a call
returns, the run is inside as many partials as before. So every call returns. What a
provider renders for an item may be larger than the item, but items of providers are
nested less deeply in it.
-/

namespace Stencil

variable {env : Environment}

theorem Session.depth_congr {session session' : Session} (h : session'.stack = session.stack) :
    session'.depth = session.depth := by
  rw [depth, h, depth]

theorem Run.depth_enter (run : Run) (bracket : Bracket) :
    (run.enter bracket).session.depth = run.session.depth + bracket.names.length := by
  rw [Session.depth, stack_enter, List.length_append, Session.depth]

namespace Plan

variable {plan : Plan} {run state last : Run} {callee : Call} {result : Except RenderError Unit}

/-- A call that returns leaves the stack of partials as it was. -/
theorem Returns.stack (h : Returns env plan run result last) :
    last.session.stack = run.session.stack := by
  induction h with
  | done run => rfl
  | fail error run => rfl
  | @event e next run after last result hhandle hnext ih =>
      have hhandled := run.stack_handle e
      rw [hhandle] at hhandled
      exact ih.trans hhandled
  | @eventError e next run after error hhandle =>
      have hhandled := run.stack_handle e
      rwa [hhandle] at hhandled
  | call hcallee hnext ihcallee ih => exact ih.trans ihcallee
  | callError hcallee ih => exact ih
  | inside hcallee hnext ihcallee ih =>
      rw [Run.stack_enter] at ihcallee
      exact ih.trans (Run.stack_leave ihcallee)
  | insideError hcallee ih =>
      rw [Run.stack_enter] at ih
      exact Run.stack_leave ih
  | attempt hbody hnext ihbody ih => exact ih.trans ihbody
  | depth hnext ih => exact ih
  | declared hnext ih => exact ih
  | partials hnext ih => exact ih

/-- What a plan returns is what performing its script comes to. -/
theorem Returns.perform_eq (h : Returns env plan run result last) {script : Script}
    (hdescribes : plan.Describes env run.session.depth script) :
    script.perform run = (result, last) := by
  induction h generalizing script with
  | done run =>
      cases hdescribes
      rfl
  | fail error run =>
      cases hdescribes
      rfl
  | @event e next run after last result hhandle hnext ih =>
      have hstack := run.stack_handle e
      rw [hhandle] at hstack
      cases hdescribes with
      | event e hdescribes =>
          rw [Script.perform_event hhandle]
          rw [← Session.depth_congr hstack] at hdescribes
          exact ih hdescribes
  | eventError hhandle =>
      cases hdescribes
      exact Script.perform_event_error hhandle
  | @call callee next run after last result hcallee hnext ihcallee ih =>
      cases hdescribes with
      | call callee hdescribes =>
          rw [Script.perform_andThen, ihcallee (callee.describes_plan env _)]
          rw [← Session.depth_congr hcallee.stack] at hdescribes
          exact ih hdescribes
  | @callError callee next run after error hcallee ih =>
      cases hdescribes with
      | call callee hdescribes =>
          rw [Script.perform_andThen, ih (callee.describes_plan env _)]
  | @inside bracket callee next run after last result hcallee hnext ihcallee ih =>
      have hstack := hcallee.stack
      rw [Run.stack_enter] at hstack
      cases hdescribes with
      | inside bracket callee hdescribes =>
          have hbody := ihcallee (callee.describes_plan env _)
          rw [Run.depth_enter] at hbody
          rw [Script.perform_inside hbody]
          rw [← Session.depth_congr (Run.stack_leave hstack)] at hdescribes
          exact ih hdescribes
  | @insideError bracket callee next run after error hcallee ih =>
      cases hdescribes with
      | inside bracket callee hdescribes =>
          have hbody := ih (callee.describes_plan env _)
          rw [Run.depth_enter] at hbody
          exact Script.perform_inside_error hbody
  | attempt hbody hnext ihbody ih =>
      cases hdescribes with
      | attempt hdescribes hafter =>
          rw [Script.perform_attempt, ihbody hdescribes]
          apply ih
          rw [Session.depth_congr hbody.stack]
          exact hafter _
  | depth hnext ih =>
      cases hdescribes with
      | depth hdescribes => exact ih hdescribes
  | declared hnext ih =>
      cases hdescribes with
      | declared name hdescribes =>
          rw [Script.perform]
          exact ih (hdescribes _)
  | partials hnext ih =>
      cases hdescribes with
      | partials hdescribes =>
          rw [Script.perform]
          exact ih (hdescribes _)

/-- A plan returns if every call that it makes does. -/
theorem exists_returns_of_makes (plan : Plan) (run : Run)
    (h : ∀ callee state, Makes env plan run callee state →
      ∃ result last, Returns env (callee.plan env) state result last) :
    ∃ result last, Returns env plan run result last := by
  induction plan generalizing run with
  | done => exact ⟨_, _, .done run⟩
  | fail error => exact ⟨_, _, .fail error run⟩
  | event e next ih =>
      rcases hhandle : run.handle e with ⟨error | _, after⟩
      · exact ⟨_, _, .eventError hhandle⟩
      · obtain ⟨result, last, hnext⟩ := ih () after fun callee state hmakes =>
          h callee state (.event hhandle hmakes)
        exact ⟨result, last, .event hhandle hnext⟩
  | call callee next ih =>
      obtain ⟨error | _, after, hcallee⟩ := h callee run (.call callee next run)
      · exact ⟨_, _, .callError hcallee⟩
      · obtain ⟨result, last, hnext⟩ := ih () after fun callee state hmakes =>
          h callee state (.afterCall hcallee hmakes)
        exact ⟨result, last, .call hcallee hnext⟩
  | inside bracket callee next ih =>
      obtain ⟨error | _, after, hcallee⟩ :=
        h callee (run.enter bracket) (.inside bracket callee next run)
      · exact ⟨_, _, .insideError hcallee⟩
      · obtain ⟨result, last, hnext⟩ := ih () (after.leave bracket) fun callee state hmakes =>
          h callee state (.afterInside hcallee hmakes)
        exact ⟨result, last, .inside hcallee hnext⟩
  | attempt body next ihbody ih =>
      obtain ⟨attempted, after, hbody⟩ := ihbody run fun callee state hmakes =>
        h callee state (.attempt hmakes)
      obtain ⟨result, last, hnext⟩ := ih attempted after fun callee state hmakes =>
        h callee state (.afterAttempt hbody hmakes)
      exact ⟨result, last, .attempt hbody hnext⟩
  | depth next ih =>
      obtain ⟨result, last, hnext⟩ := ih _ run fun callee state hmakes =>
        h callee state (.depth hmakes)
      exact ⟨result, last, .depth hnext⟩
  | declared name next ih =>
      obtain ⟨result, last, hnext⟩ := ih _ run fun callee state hmakes =>
        h callee state (.declared hmakes)
      exact ⟨result, last, .declared hnext⟩
  | partials next ih =>
      obtain ⟨result, last, hnext⟩ := ih _ run fun callee state hmakes =>
        h callee state (.partials hmakes)
      exact ⟨result, last, .partials hnext⟩

end Plan

namespace Item

mutual

/-- How deeply items of providers are nested where an item is rendered. -/
def customDepth : Item → Nat
  | literal _ | output .. | reference .. | declaration .. => 0
  | block _ _ body otherwise _ => max (customDepthAll body) (customDepthAll otherwise)
  | custom _ children => customDepthAll children + 1

def customDepthAll : List Item → Nat
  | [] => 0
  | first :: rest => max first.customDepth (customDepthAll rest)

end

theorem customDepthAll_le_iff {forest : List Item} {depth : Nat} :
    customDepthAll forest ≤ depth ↔ ∀ item ∈ forest, item.customDepth ≤ depth := by
  induction forest with
  | nil => simp [customDepthAll]
  | cons first rest ih => rw [customDepthAll, Nat.max_le, ih, List.forall_mem_cons]

mutual

theorem customDepth_of_builtin : (item : Item) →
    (∀ tag children, custom tag children ∉ item.walk) → item.customDepth = 0
  | literal _, _ | output .., _ | reference .., _ | declaration .., _ => rfl
  | block kind expression body otherwise span, hbuiltin => by
      have hbody := customDepthAll_of_builtin body fun tag children hmem =>
        hbuiltin tag children (List.mem_cons_of_mem _ (List.mem_append_left _ hmem))
      have hother := customDepthAll_of_builtin otherwise fun tag children hmem =>
        hbuiltin tag children (List.mem_cons_of_mem _ (List.mem_append_right _ hmem))
      rw [customDepth, hbody, hother, Nat.max_self]
  | custom tag children, hbuiltin => absurd (List.mem_cons_self ..) (hbuiltin tag children)

theorem customDepthAll_of_builtin : (forest : List Item) →
    (∀ tag children, custom tag children ∉ walkAll forest) → customDepthAll forest = 0
  | [], _ => rfl
  | first :: rest, hbuiltin => by
      have hfirst := customDepth_of_builtin first fun tag children hmem =>
        hbuiltin tag children (List.mem_append_left _ hmem)
      have hrest := customDepthAll_of_builtin rest fun tag children hmem =>
        hbuiltin tag children (List.mem_append_right _ hmem)
      rw [customDepthAll, hfirst, hrest, Nat.max_self]

end

/-- Items of providers are nested no deeper in what is selected than in the children. -/
theorem customDepthAll_selection_le (children : List Item) (selection : Selection) :
    customDepthAll (selection.items children) ≤ customDepthAll children := by
  obtain hsubset | ⟨forest, rfl⟩ := selection.items_subset_or_made children
  · have hchildren := customDepthAll_le_iff.mp (Nat.le_refl (customDepthAll children))
    exact customDepthAll_le_iff.mpr fun item hitem => hchildren item (hsubset hitem)
  · rw [Selection.items, customDepthAll_of_builtin forest.items forest.builtin]
    exact Nat.zero_le _

end Item

/-- What a call has to render, apart from the bodies of partials: how deeply items of
providers are nested in it, and then how much it is. That is three for each item, so that
there is room for the calls between an item and its children. -/
def Call.weight : Call → Nat ×ₗ Nat
  | items forest _ => toLex (Item.customDepthAll forest, 3 * (Item.walkAll forest).length + 1)
  | item rendered _ => toLex (rendered.customDepth, 3 * rendered.walk.length)
  | block _ _ body otherwise _ =>
      toLex (max (Item.customDepthAll body) (Item.customDepthAll otherwise),
        3 * ((Item.walkAll body).length + (Item.walkAll otherwise).length) + 2)
  | reference .. => toLex (0, 0)

namespace Plan

/-- The plan makes only calls that are lighter than this, and enters no partial. -/
def Descends (weight : Nat ×ₗ Nat) : Plan → Prop
  | done | fail _ => True
  | event _ next => (next ()).Descends weight
  | call callee next => callee.weight < weight ∧ (next ()).Descends weight
  | inside bracket callee next =>
      bracket.names = [] ∧ callee.weight < weight ∧ (next ()).Descends weight
  | attempt body next => body.Descends weight ∧ ∀ result, (next result).Descends weight
  | depth next => ∀ count, (next count).Descends weight
  | declared _ next => ∀ found, (next found).Descends weight
  | partials next => ∀ names, (next names).Descends weight

variable {weight : Nat ×ₗ Nat}

/-- Calls of a plan that descends are lighter, and inside the same partials. -/
theorem Makes.of_descends {plan : Plan} {run state : Run} {callee : Call}
    (h : Makes env plan run callee state) (hdescends : plan.Descends weight) :
    callee.weight < weight ∧ state.session.stack = run.session.stack := by
  induction h with
  | @event e next run after state callee hhandle hnext ih =>
      have hhandled := run.stack_handle e
      rw [hhandle] at hhandled
      exact ⟨(ih hdescends).1, (ih hdescends).2.trans hhandled⟩
  | call callee next run => exact ⟨hdescends.1, rfl⟩
  | afterCall hfirst hnext ih =>
      obtain ⟨hweight, hstack⟩ := ih hdescends.2
      exact ⟨hweight, hstack.trans hfirst.stack⟩
  | inside bracket callee next run =>
      obtain ⟨hnames, hweight, -⟩ := hdescends
      exact ⟨hweight, by rw [Run.stack_enter, hnames, List.append_nil]⟩
  | afterInside hfirst hnext ih =>
      obtain ⟨hweight, hstack⟩ := ih hdescends.2.2
      have hleft := hfirst.stack
      rw [Run.stack_enter] at hleft
      exact ⟨hweight, hstack.trans (Run.stack_leave hleft)⟩
  | attempt hbody ih => exact ih hdescends.1
  | afterAttempt hbody hnext ih =>
      obtain ⟨hweight, hstack⟩ := ih (hdescends.2 _)
      exact ⟨hweight, hstack.trans hbody.stack⟩
  | depth hnext ih => exact ih (hdescends _)
  | declared hnext ih => exact ih (hdescends _)
  | partials hnext ih => exact ih (hdescends _)

theorem descends_afterEvents (events : List Event) {plan : Plan} (h : plan.Descends weight) :
    (afterEvents events plan).Descends weight := by
  induction events with
  | nil => exact h
  | cons e events ih => exact ih

theorem descends_evaluation {α : Type} (evaluated : Evaluation α) {next : α → Plan}
    (hnext : ∀ a, (next a).Descends weight) : (evaluation evaluated next).Descends weight := by
  apply descends_afterEvents
  cases evaluated.result with
  | ok a => exact hnext a
  | error error => trivial

/-- The items of a forest are no heavier than the forest. -/
theorem descends_items (ctx : Context) {forest : List Item}
    (h : toLex (Item.customDepthAll forest, 3 * (Item.walkAll forest).length) < weight) :
    (items ctx forest).Descends weight := by
  induction forest with
  | nil => trivial
  | cons rendered rest ih =>
      rw [Item.customDepthAll, Item.walkAll, List.length_append, Nat.mul_add] at h
      have hrendered : (Call.item rendered ctx).weight < weight :=
        lt_of_le_of_lt (Prod.Lex.toLex_mono ⟨Nat.le_max_left .., Nat.le_add_right ..⟩) h
      have hrest : toLex (Item.customDepthAll rest, 3 * (Item.walkAll rest).length) < weight :=
        lt_of_le_of_lt (Prod.Lex.toLex_mono ⟨Nat.le_max_right .., Nat.le_add_left ..⟩) h
      exact ⟨rfl, hrendered, ih hrest⟩

/-- The forest is light enough to be rendered, whatever its scope is. -/
def Fits (weight : Nat ×ₗ Nat) (forest : List Item) : Prop :=
  toLex (Item.customDepthAll forest, 3 * (Item.walkAll forest).length + 1) < weight

theorem descends_ofCall_items {forest : List Item} (h : Fits weight forest) (ctx : Context) :
    (ofCall (.items forest ctx)).Descends weight :=
  ⟨h, trivial⟩

section

variable {body otherwise : List Item} (hbody : Fits weight body)
include hbody

theorem descends_elements (ctx : Context) (path : String) (length index : Nat)
    (values : List Value) : (elements body ctx path length index values).Descends weight := by
  induction values generalizing index with
  | nil => trivial
  | cons value values ih => exact ⟨hbody, ih (index + 1)⟩

theorem descends_iterate (hother : Fits weight otherwise) (kind : SectionKind) (ctx : Context)
    (path : String) (value : Value) :
    (iterate kind body otherwise ctx path value).Descends weight := by
  unfold iterate
  split
  · exact descends_ofCall_items hother ctx
  · exact descends_elements hbody ctx path _ 0 _
  · split
    · exact descends_ofCall_items hbody _
    · exact descends_ofCall_items hother ctx

theorem descends_branch (hother : Fits weight otherwise) (kind : SectionKind) (ctx : Context)
    (scope : Scope) : (branch kind body otherwise ctx scope).Descends weight := by
  unfold branch
  split
  · split
    · exact descends_ofCall_items hbody ctx
    · exact descends_ofCall_items hother ctx
  · split
    · exact descends_ofCall_items hother ctx
    · exact descends_ofCall_items hbody ctx
  · exact descends_iterate hbody hother _ ctx _ _
  · exact descends_iterate hbody hother _ ctx _ _
  · split
    · exact descends_ofCall_items hother ctx
    · exact descends_ofCall_items hbody _
  · exact descends_ofCall_items hother ctx

end

theorem descends_recipe {children : List Item}
    (hchildren : ∀ selection : Selection, Fits weight (selection.items children)) (ctx : Context)
    (steps : Recipe) : (recipe env children ctx steps).Descends weight := by
  induction steps with
  | done => trivial
  | fail error => trivial
  | write text next ih => exact ⟨trivial, ih⟩
  | evaluate expression expected next ih => exact descends_afterEvents _ (ih _)
  | render selection scope next ih =>
      exact ⟨descends_ofCall_items (hchildren selection) _, ih⟩
  | declare name body next ih => exact ih ()
  | partials next ih => exact ih
  | nullText next ih => exact ih _

end Plan

/-- Apart from a reference, a call makes only lighter calls, and enters no partial. -/
theorem Call.descends_plan (env : Environment) (call : Call)
    (h : ∀ name ctx, call ≠ .reference name ctx) : (call.plan env).Descends call.weight := by
  cases call with
  | items forest ctx =>
      exact Plan.descends_items ctx
        (Prod.Lex.toLex_lt_toLex'.mpr ⟨Nat.le_refl _, fun _ => Nat.lt_succ_self _⟩)
  | item rendered ctx =>
      cases rendered with
      | literal text => trivial
      | output expression escape span => exact Plan.descends_evaluation _ fun scope => trivial
      | block kind expression body otherwise span =>
          refine ⟨Prod.Lex.toLex_lt_toLex'.mpr ⟨Nat.le_refl _, fun _ => ?_⟩, trivial⟩
          simp only [Item.walk, List.length_cons, List.length_append]
          omega
      | reference name span =>
          exact ⟨Prod.Lex.toLex_lt_toLex'.mpr ⟨Nat.le_refl _, fun _ => Nat.succ_pos _⟩, trivial⟩
      | declaration name body span => trivial
      | custom tag children =>
          rw [plan]
          split
          · apply Plan.descends_recipe
            intro selection
            have hdepth := Item.customDepthAll_selection_le children selection
            refine Prod.Lex.toLex_lt_toLex.mpr (.inl ?_)
            rw [Item.customDepth]
            exact Nat.lt_succ_of_le hdepth
          · trivial
  | block kind expression body otherwise ctx =>
      apply Plan.descends_evaluation
      intro scope
      apply Plan.descends_branch
      · exact Prod.Lex.toLex_lt_toLex'.mpr ⟨Nat.le_max_left .., fun _ => by omega⟩
      · exact Prod.Lex.toLex_lt_toLex'.mpr ⟨Nat.le_max_right .., fun _ => by omega⟩
  | reference name ctx => exact absurd rfl (h name ctx)

namespace Plan

variable {name : String} {ctx : Context} {run state : Run} {callee : Call}

theorem Makes.of_partialBody {body : List Item}
    (h : Makes env (.partialBody name ctx body) run callee state) :
    state.session.depth = run.session.depth + 1 := by
  cases h with
  | inside =>
      rw [Session.depth, Run.stack_enter, List.length_append]
      rfl
  | afterInside hfirst hnext => cases hnext

theorem Makes.of_enterPartial (h : Makes env (.enterPartial env name ctx) run callee state) :
    state.session.depth = run.session.depth + 1 := by
  cases h with
  | declared hnext =>
      dsimp only at hnext
      split at hnext
      · exact hnext.of_partialBody
      · split at hnext
        · cases hnext
        · split at hnext
          · exact hnext.of_partialBody
          · cases hnext

/-- A reference makes a call only while more partials may be nested, and then inside
one more. -/
theorem Makes.of_reference (h : Makes env (.reference env name ctx) run callee state) :
    run.session.depth < env.partialDepth ∧ state.session.depth = run.session.depth + 1 := by
  cases h with
  | depth hnext =>
      dsimp only at hnext
      split at hnext
      · split at hnext <;> cases hnext
      · rename_i hfull
        exact ⟨Nat.lt_of_not_le hfull, hnext.of_enterPartial⟩

end Plan

/-- What a call has before it: how many partials may still be nested, and then how much
there is to render. -/
def Call.size (env : Environment) (start : Call × Run) : Nat ×ₗ Nat ×ₗ Nat :=
  toLex (env.partialDepth - start.2.session.depth, start.1.weight)

/-- A call makes calls that are smaller. -/
theorem Calls.size_lt {callee caller : Call × Run} (h : Calls env callee caller) :
    Call.size env callee < Call.size env caller := by
  obtain ⟨callee, state⟩ := callee
  obtain ⟨caller, run⟩ := caller
  by_cases hreference : ∀ name ctx, caller ≠ .reference name ctx
  · obtain ⟨hweight, hstack⟩ := Plan.Makes.of_descends h (caller.descends_plan env hreference)
    have hdepth : state.session.depth = run.session.depth := Session.depth_congr hstack
    rw [Call.size, Call.size, hdepth]
    exact Prod.Lex.toLex_lt_toLex.mpr (.inr ⟨rfl, hweight⟩)
  · obtain ⟨name, ctx, rfl⟩ : ∃ name ctx, caller = .reference name ctx := by
      simpa using hreference
    have hdepth : run.session.depth < env.partialDepth := (Plan.Makes.of_reference h).1
    have hstate : state.session.depth = run.session.depth + 1 := (Plan.Makes.of_reference h).2
    have hfewer : env.partialDepth - state.session.depth <
        env.partialDepth - run.session.depth := by
      omega
    exact Prod.Lex.toLex_lt_toLex.mpr (.inl hfewer)

theorem wellFounded_calls (env : Environment) : WellFounded (Calls env) :=
  Subrelation.wf Calls.size_lt (InvImage.wf (Call.size env) wellFounded_lt)

/-- By induction on the calls that a call makes, it returns. -/
theorem exists_returns (env : Environment) (start : Call × Run) :
    ∃ result last, (start.1.plan env).Returns env start.2 result last := by
  induction start using (wellFounded_calls env).induction with
  | h start ih =>
      apply Plan.exists_returns_of_makes
      intro callee state hmakes
      exact ih (callee, state) hmakes

/-- Rendering terminates. The recursion in which calls make calls is well-founded:
none goes on forever, whatever partials refer to themselves or to each other or are
declared while they run. So every call returns from every run, with one result, and
that is what performing its script comes to. -/
theorem rendering_terminates (env : Environment) :
    WellFounded (Calls env) ∧
    ∀ (call : Call) (run : Run), ∃ result last,
      (call.plan env).Returns env run result last ∧
      (∀ result' last', (call.plan env).Returns env run result' last' →
        result' = result ∧ last' = last) ∧
      (call.script env run.session.depth).perform run = (result, last) := by
  refine ⟨wellFounded_calls env, ?_⟩
  intro call run
  obtain ⟨result, last, hreturns⟩ := exists_returns env (call, run)
  have hperform := hreturns.perform_eq (call.describes_plan env _)
  refine ⟨result, last, hreturns, ?_, hperform⟩
  intro result' last' hreturns'
  have hperform' := hreturns'.perform_eq (call.describes_plan env _)
  rw [hperform] at hperform'
  cases hperform'
  exact ⟨rfl, rfl⟩

end Stencil
