import Stencil.Proofs.Render.Parts

/-!
How the scripts of items are put together. A relation of scripts that every way
to put scripts together keeps holds of the scripts of the same items, if it holds
of how partials are entered. A property of scripts is such a relation that looks
at one of the two.
-/

namespace Stencil

/-- Data is evaluated alike in both environments, which may differ in the store
of partials and in how deeply partials may be nested. -/
structure Environment.Agrees (first second : Environment) : Prop where
  resolver : first.resolver = second.resolver
  formatters : first.formatters = second.formatters
  providers : first.providers = second.providers
  nullText : first.nullText = second.nullText

theorem Environment.Agrees.refl (env : Environment) : env.Agrees env :=
  ⟨rfl, rfl, rfl, rfl⟩

variable {first second : Environment}

namespace Evaluation

variable {ctx : Context}

mutual

theorem ofExpression_congr (h : first.Agrees second) (expected : Expectation) :
    (expression : Expression) →
    ofExpression first ctx expected expression = ofExpression second ctx expected expression
  | ⟨path, calls, span⟩ => by
      rw [ofExpression, ofExpression]
      simp only [look, h.resolver, ofCalls_congr h span.line calls]

theorem ofCalls_congr (h : first.Agrees second) (line : Nat) :
    (calls : List FormatterCall) → (value : Value) →
    ofCalls first ctx line calls value = ofCalls second ctx line calls value
  | [], value => rfl
  | ⟨name, arguments⟩ :: calls, value => by
      rw [ofCalls, ofCalls]
      simp only [call, h.formatters, ofArguments_congr h arguments, ofCalls_congr h line calls]

theorem ofArguments_congr (h : first.Agrees second) : (arguments : List Argument) →
    ofArguments first ctx arguments = ofArguments second ctx arguments
  | [] => rfl
  | .literal value :: arguments => by
      rw [ofArguments, ofArguments, ofArguments_congr h arguments]
  | .nested expression :: arguments => by
      rw [ofArguments, ofArguments, ofExpression_congr h .argument expression,
        ofArguments_congr h arguments]

end

end Evaluation

namespace Script

/-- A relation of scripts that is kept by repeating them, with a poll before each. -/
structure Sequential (R : Script → Script → Prop) : Prop where
  done : R .done .done
  poll {next next' : Unit → Script} :
    R (next ()) (next' ()) → R (.event .poll next) (.event .poll next')
  andThen {script script' : Script} {rest rest' : Unit → Script} :
    R script script' → R (rest ()) (rest' ()) →
      R (script.andThen rest) (script'.andThen rest')

/-- A relation of scripts that is kept by putting scripts together, apart from
the brackets of partials. -/
structure Congruent (R : Script → Script → Prop) : Prop where
  done : R .done .done
  fail (error : RenderError) : R (.fail error) (.fail error)
  event (e : Event) {next next' : Unit → Script} :
    R (next ()) (next' ()) → R (.event e next) (.event e next')
  item (rendered : Item) {body body' : Script} {next next' : Unit → Script} :
    R body body' → R (next ()) (next' ()) →
      R (.inside (.item rendered) body next) (.inside (.item rendered) body' next')
  attempt {body body' : Script} {next next' : Except RenderError Unit → Script} :
    R body body' → (∀ result, R (next result) (next' result)) →
      R (.attempt body next) (.attempt body' next')
  declared (name : String) {next next' : Option (List Item) → Script} :
    (∀ found, R (next found) (next' found)) → R (.declared name next) (.declared name next')
  partials {next next' : List String → Script} :
    (∀ names, R (next names) (next' names)) → R (.partials next) (.partials next')
  andThen {script script' : Script} {rest rest' : Unit → Script} :
    R script script' → R (rest ()) (rest' ()) →
      R (script.andThen rest) (script'.andThen rest')

theorem Congruent.sequential {R : Script → Script → Prop} (h : Congruent R) : Sequential R :=
  ⟨h.done, h.event .poll, h.andThen⟩

theorem congruent_eq : Congruent Eq where
  done := rfl
  fail _ := rfl
  event e _ _ hnext := congrArg (event e) (funext fun _ => hnext)
  item rendered _ _ _ _ hbody hnext :=
    congr (congrArg (inside (.item rendered)) hbody) (funext fun _ => hnext)
  attempt hbody hnext := congr (congrArg attempt hbody) (funext hnext)
  declared name _ _ hnext := congrArg (declared name) (funext hnext)
  partials hnext := congrArg partials (funext hnext)
  andThen hscript hrest := congr (congrArg andThen hscript) (funext fun _ => hrest)

/-- Bodies that are related in every context. -/
def RelatedBodies (R : Script → Script → Prop) (body body' : Body) : Prop :=
  ∀ ctx, R (body ctx) (body' ctx)

variable {R : Script → Script → Prop} {body body' otherwise otherwise' : Body}

theorem afterEvents_congr (hR : Congruent R) (events : List Event) {script script' : Script}
    (h : R script script') : R (afterEvents events script) (afterEvents events script') := by
  induction events with
  | nil => exact h
  | cons e events ih => exact hR.event e ih

theorem evaluation_congr (hR : Congruent R) {α : Type} (evaluation : Evaluation α)
    {next next' : α → Script} (hnext : ∀ a, R (next a) (next' a)) :
    R (evaluation.script next) (evaluation.script next') := by
  apply afterEvents_congr hR
  cases evaluation.result with
  | ok a => exact hnext a
  | error error => exact hR.fail error

theorem elements_congr (hR : Sequential R) (hbody : RelatedBodies R body body') (ctx : Context)
    (path : String) (length index : Nat) (values : List Value) :
    R (elements body ctx path length index values)
      (elements body' ctx path length index values) := by
  induction values generalizing index with
  | nil => exact hR.done
  | cons value values ih => exact hR.poll (hR.andThen (hbody _) (ih (index + 1)))

theorem iterate_congr (hR : Sequential R) (hbody : RelatedBodies R body body')
    (hother : RelatedBodies R otherwise otherwise') (kind : SectionKind) (ctx : Context)
    (path : String) (value : Value) :
    R (iterate kind body otherwise ctx path value)
      (iterate kind body' otherwise' ctx path value) := by
  unfold iterate
  split
  · exact hother ctx
  · exact elements_congr hR hbody ctx path _ 0 _
  · split
    · exact hbody _
    · exact hother ctx

theorem branch_congr (hR : Sequential R) (hbody : RelatedBodies R body body')
    (hother : RelatedBodies R otherwise otherwise') (kind : SectionKind) (ctx : Context)
    (scope : Scope) :
    R (branch kind body otherwise ctx scope) (branch kind body' otherwise' ctx scope) := by
  unfold branch
  split
  · split
    · exact hbody ctx
    · exact hother ctx
  · split
    · exact hother ctx
    · exact hbody ctx
  · exact iterate_congr hR hbody hother _ ctx _ _
  · exact iterate_congr hR hbody hother _ ctx _ _
  · split
    · exact hother ctx
    · exact hbody _
  · exact hother ctx

section

variable (h : first.Agrees second) (hR : Congruent R)
include h hR

theorem block_congr (kind : SectionKind) (expression : Expression)
    (hbody : RelatedBodies R body body') (hother : RelatedBodies R otherwise otherwise')
    (ctx : Context) :
    R (block first kind expression body otherwise ctx)
      (block second kind expression body' otherwise' ctx) := by
  rw [block, block, Evaluation.ofExpression_congr h]
  exact evaluation_congr hR _ (branch_congr hR.sequential hbody hother kind ctx)

theorem output_congr (expression : Expression) (escape : Bool) (ctx : Context) :
    R (output first expression escape ctx) (output second expression escape ctx) := by
  rw [output, output, Evaluation.ofExpression_congr h]
  simp only [outputText, h.nullText]
  exact evaluation_congr hR _ fun scope => hR.event _ hR.done

theorem ofRecipe_congr {render render' : Selection → Body}
    (hrender : ∀ selection, RelatedBodies R (render selection) (render' selection))
    (ctx : Context) (recipe : Recipe) :
    R (ofRecipe first render ctx recipe) (ofRecipe second render' ctx recipe) := by
  induction recipe with
  | done => exact hR.done
  | fail error => exact hR.fail error
  | write text next ih => exact hR.attempt (hR.event _ hR.done) ih
  | evaluate expression expected next ih =>
      rw [ofRecipe, ofRecipe, Evaluation.ofExpression_congr h]
      exact afterEvents_congr hR _ (ih _)
  | render selection scope next ih => exact hR.attempt (hrender selection _) ih
  | declare name body next ih => exact hR.event _ (ih ())
  | partials next ih => exact hR.partials ih
  | nullText next ih =>
      rw [ofRecipe, ofRecipe, h.nullText]
      exact ih _

end

variable {enter enter' : String → Body}

/-- Items one after another are related if each of them is. -/
theorem inOrder_congr (hR : Congruent R) {rendered rendered' : Item → Body}
    {forest : List Item} (h : ∀ item ∈ forest, RelatedBodies R (rendered item) (rendered' item)) :
    RelatedBodies R (inOrder (forest.map fun item => ⟨item, rendered item⟩))
      (inOrder (forest.map fun item => ⟨item, rendered' item⟩)) := by
  intro ctx
  induction forest with
  | nil => exact hR.done
  | cons first rest ih =>
      obtain ⟨hfirst, hrest⟩ := List.forall_mem_cons.mp h
      exact hR.event .poll (hR.item first (hfirst ctx) (ih hrest))

/-- Items of providers are rendered in related ways if their children are. -/
def RelatedCustoms (R : Script → Script → Prop) (rendered rendered' : Item → Body)
    (custom custom' : CustomTag → List Part → Body) : Prop :=
  ∀ (tag : CustomTag) (children : List Item),
    (∀ item ∈ children, RelatedBodies R (rendered item) (rendered' item)) →
    RelatedBodies R (custom tag (children.map fun item => ⟨item, rendered item⟩))
      (custom' tag (children.map fun item => ⟨item, rendered' item⟩))

section

variable {custom custom' : CustomTag → List Part → Body}

mutual

/-- Scripts of one item are related if they enter partials and render the items of
providers in related ways. -/
theorem itemWith_congr (h : first.Agrees second) (hR : Congruent R)
    (henter : ∀ name, RelatedBodies R (enter name) (enter' name))
    (hcustom : RelatedCustoms R (itemWith first enter custom) (itemWith second enter' custom')
      custom custom') : (rendered : Item) →
    RelatedBodies R (itemWith first enter custom rendered) (itemWith second enter' custom' rendered)
  | .literal text, ctx => hR.event _ hR.done
  | .output expression escape span, ctx => output_congr h hR expression escape ctx
  | .block kind expression body otherwise span, ctx => by
      rw [itemWith, itemWith]
      simp only [partsWith_eq_map]
      exact block_congr h hR kind expression
        (inOrder_congr hR (itemsWith_congr h hR henter hcustom body))
        (inOrder_congr hR (itemsWith_congr h hR henter hcustom otherwise)) ctx
  | .reference name span, ctx => henter name ctx
  | .declaration name body span, ctx => hR.event _ hR.done
  | .custom tag children, ctx => by
      rw [itemWith, itemWith, partsWith_eq_map, partsWith_eq_map]
      exact hcustom tag children (itemsWith_congr h hR henter hcustom children) ctx

theorem itemsWith_congr (h : first.Agrees second) (hR : Congruent R)
    (henter : ∀ name, RelatedBodies R (enter name) (enter' name))
    (hcustom : RelatedCustoms R (itemWith first enter custom) (itemWith second enter' custom')
      custom custom') : (forest : List Item) → ∀ rendered ∈ forest,
    RelatedBodies R (itemWith first enter custom rendered) (itemWith second enter' custom' rendered)
  | [] => List.forall_mem_nil _
  | rendered :: rest => List.forall_mem_cons.mpr
      ⟨itemWith_congr h hR henter hcustom rendered, itemsWith_congr h hR henter hcustom rest⟩

end

end

section

variable (h : first.Agrees second) (hR : Congruent R)
  (henter : ∀ name, RelatedBodies R (enter name) (enter' name))
include h hR henter

/-- Whatever a recipe selects of related children, or makes, is related. -/
theorem selection_congr {children : List Item} (hchildren : ∀ rendered ∈ children,
      RelatedBodies R (item first enter rendered) (item second enter' rendered))
    (selection : Selection) : RelatedBodies R (items first enter (selection.items children))
      (items second enter' (selection.items children)) := by
  obtain hsubset | ⟨forest, rfl⟩ := selection.items_subset_or_made children
  · rw [items_eq_map, items_eq_map]
    exact inOrder_congr hR fun rendered hmem => hchildren rendered (hsubset hmem)
  · rw [items, items, Selection.items,
      partsWith_of_builtin (custom first enter) (fun _ _ _ => .done) _ forest.builtin,
      partsWith_of_builtin (custom second enter') (fun _ _ _ => .done) _ forest.builtin,
      partsWith_eq_map, partsWith_eq_map]
    exact inOrder_congr hR (itemsWith_congr h hR henter (fun _ _ _ _ => hR.done) forest.items)

/-- Scripts of one item are related if they enter partials in related ways. -/
theorem item_congr (rendered : Item) :
    RelatedBodies R (item first enter rendered) (item second enter' rendered) := by
  have hcustom : RelatedCustoms R (item first enter) (item second enter') (custom first enter)
      (custom second enter') := by
    intro tag children hchildren ctx
    have hprovider : first.provider? tag.provider = second.provider? tag.provider := by
      rw [Environment.provider?, Environment.provider?, h.providers]
    rw [custom_map, custom_map, item_custom, item_custom, hprovider]
    split
    · exact ofRecipe_congr h hR (selection_congr h hR henter hchildren) ctx _
    · exact hR.done
  exact itemWith_congr h hR henter hcustom rendered

theorem items_congr (forest : List Item) :
    RelatedBodies R (items first enter forest) (items second enter' forest) := by
  rw [items_eq_map, items_eq_map]
  exact inOrder_congr hR fun rendered _ => item_congr h hR henter rendered

end

/-- With the same store the bodies of partials are found alike. -/
theorem partialBody_congr (hR : Congruent R) (hpartials : first.partials = second.partials)
    (name : String) {next next' : List Item → Script} (hnext : ∀ body, R (next body) (next' body)) :
    R (partialBody first name next) (partialBody second name next') := by
  unfold partialBody
  apply hR.declared
  intro found
  cases found with
  | some body => exact hnext body
  | none =>
      simp only [hpartials]
      split
      · exact hR.fail _
      · split
        · exact hnext _
        · exact hR.fail _

/-- A property that repeating scripts keeps holds of the branch that a section
renders, if it holds of both bodies. -/
theorem branch_induction {P : Script → Prop} (hP : Sequential fun script _ => P script)
    (hbody : ∀ ctx, P (body ctx)) (hother : ∀ ctx, P (otherwise ctx)) (kind : SectionKind)
    (ctx : Context) (scope : Scope) : P (branch kind body otherwise ctx scope) :=
  @branch_congr (fun script _ => P script) body body otherwise otherwise hP hbody hother kind ctx
    scope

section

variable {P : Script → Prop} (hP : Congruent fun script _ => P script) (env : Environment)
include hP

/-- A property that putting scripts together keeps holds of the scripts of items. -/
theorem items_induction {enter : String → Body} (henter : ∀ name ctx, P (enter name ctx))
    (forest : List Item) (ctx : Context) : P (items env enter forest ctx) :=
  @items_congr env env (fun script _ => P script) enter enter (.refl env) hP henter forest ctx

theorem partialBody_induction (name : String) {next : List Item → Script}
    (hnext : ∀ body, P (next body)) : P (partialBody env name next) :=
  @partialBody_congr env env (fun script _ => P script) hP rfl name next next hnext

end

end Script

end Stencil
