import Stencil.Proofs.Render.Congruence
import Stencil.Proofs.Render.Rules
import Stencil.Render.Items

/-!
The scripts of items obey rules that admit the items. Rules admit items by what
is special to each: the text it writes and what it declares. Everything between
them is quiet.
-/

namespace Stencil

/-- The event writes and declares nothing. -/
def Event.IsQuiet : Event → Prop
  | poll | look .. | cancel => True
  | write _ | declare .. => False

/-- An evaluation writes and declares nothing. -/
def Evaluation.IsQuiet {α : Type} (evaluation : Evaluation α) : Prop :=
  ∀ e ∈ evaluation.events, e.IsQuiet

namespace Evaluation

variable {α β : Type}

theorem quiet_pure (a : α) : (pure a : Evaluation α).IsQuiet := by
  intro e he
  cases he

theorem IsQuiet.bind {evaluation : Evaluation α} (h : evaluation.IsQuiet)
    {next : α → Evaluation β} (hnext : ∀ a, (next a).IsQuiet) :
    (evaluation >>= next).IsQuiet := by
  intro e he
  change e ∈ (evaluation.andThen next).events at he
  unfold andThen at he
  split at he
  · rcases List.mem_append.mp he with hmem | hmem
    · exact h e hmem
    · exact hnext _ e hmem
  · exact h e he

theorem quiet_call (env : Environment) (line : Nat) (name : String) (source : Value)
    (arguments : List Value) : (call env line name source arguments).IsQuiet := by
  intro e he
  unfold call at he
  split at he
  rename_i result cancels hinvoke
  cases cancels with
  | false => cases he
  | true =>
      obtain rfl := List.mem_singleton.mp he
      trivial

theorem quiet_look (env : Environment) (ctx : Context) (expected : Expectation) (path : Path) :
    (look env ctx expected path).IsQuiet := by
  intro e he
  obtain rfl := List.mem_singleton.mp he
  trivial

mutual

theorem quiet_ofExpression (env : Environment) (ctx : Context) (expected : Expectation) :
    (expression : Expression) → (ofExpression env ctx expected expression).IsQuiet
  | ⟨path, calls, span⟩ => by
      rw [ofExpression]
      apply (quiet_look env ctx expected path).bind
      intro found
      split
      · exact quiet_pure _
      · exact (quiet_ofCalls env ctx span.line calls _).bind fun value => quiet_pure _

theorem quiet_ofCalls (env : Environment) (ctx : Context) (line : Nat) :
    (calls : List FormatterCall) → (value : Value) → (ofCalls env ctx line calls value).IsQuiet
  | [], value => quiet_pure value
  | ⟨name, arguments⟩ :: calls, value => by
      rw [ofCalls]
      apply (quiet_ofArguments env ctx arguments).bind
      intro values
      exact (quiet_call env line name value values).bind fun value =>
        quiet_ofCalls env ctx line calls value

theorem quiet_ofArguments (env : Environment) (ctx : Context) :
    (arguments : List Argument) → (ofArguments env ctx arguments).IsQuiet
  | [] => quiet_pure []
  | .literal value :: arguments => by
      rw [ofArguments]
      exact (quiet_ofArguments env ctx arguments).bind fun values => quiet_pure _
  | .nested expression :: arguments => by
      rw [ofArguments]
      apply (quiet_ofExpression env ctx .argument expression).bind
      intro scope
      exact (quiet_ofArguments env ctx arguments).bind fun values => quiet_pure _

end

end Evaluation

/-- The items that a provider made, if it made them. -/
def Selection.made? : Selection → Option (List Item)
  | children | those _ => none
  | made forest => some forest.items

namespace Recipe

/-- An error of what it writes or renders ends the recipe. -/
def PassesErrors : Recipe → Prop
  | done | fail _ => True
  | write _ next | render _ _ next =>
      (∀ error, next (.error error) = fail error) ∧ (next (.ok ())).PassesErrors
  | evaluate _ _ next => ∀ result, (next result).PassesErrors
  | declare _ _ next => (next ()).PassesErrors
  | partials next => ∀ names, (next names).PassesErrors
  | nullText next => ∀ text, (next text).PassesErrors

/-- The recipe may come to render a forest that it made, or to declare it. -/
def Brings (forest : List Item) : Recipe → Prop
  | done | fail _ => False
  | write _ next => ∃ result, (next result).Brings forest
  | evaluate _ _ next => ∃ result, (next result).Brings forest
  | render selection _ next =>
      selection.made? = some forest ∨ ∃ result, (next result).Brings forest
  | declare _ body next => body = forest ∨ (next ()).Brings forest
  | partials next => ∃ names, (next names).Brings forest
  | nullText next => ∃ text, (next text).Brings forest

end Recipe

/-- The rules let an item of a provider follow a recipe. -/
structure Rules.AdmitsRecipe (rules : Rules) (Q : Item → Prop) (item : Item) (recipe : Recipe) :
    Prop where
  passes : recipe.PassesErrors
  brings {forest : List Item} : recipe.Brings forest → ∀ inner ∈ Item.walkAll forest, Q inner
  write (text : String) : rules.event (some item) (.write text)
  declare (name : String) {forest : List Item} : (∀ inner ∈ Item.walkAll forest, Q inner) →
    rules.event (some item) (.declare name forest)

/-- The rules admit items like these, wherever they are rendered. Partials that
the items refer to hold such items too. -/
structure Rules.Admits (rules : Rules) (env : Environment) (Q : Item → Prop) : Prop where
  quiet (item : Option Item) {e : Event} : e.IsQuiet → rules.event item e
  literal {text : String} : Q (.literal text) →
    rules.event (some (.literal text)) (.write text)
  output {expression : Expression} {escape : Bool} {span : Span} {ctx : Context}
      {scope : Scope} : Q (.output expression escape span) →
    (Evaluation.ofExpression env ctx .value expression).result = .ok scope →
    rules.event (some (.output expression escape span))
      (.write (Script.outputText env escape scope))
  declaration {name : String} {body : List Item} {span : Span} :
    Q (.declaration name body span) →
    rules.event (some (.declaration name body span)) (.declare name body)
  custom {tag : CustomTag} {children : List Item} {provider : Provider} :
    Q (.custom tag children) → env.provider? tag.provider = some provider →
    rules.AdmitsRecipe Q (.custom tag children) (provider.render tag children)
  declared {name : String} {body : List Item} :
    rules.declared name body → ∀ item ∈ Item.walkAll body, Q item
  reference {name : String} {span : Span} {document : Document} :
    Q (.reference name span) → env.partials name = some document →
    document.isValid = true → ∀ item ∈ Item.walkAll document.items, Q item

namespace Script

variable {rules : Rules} {env : Environment} {Q : Item → Prop} {item : Option Item}

theorem Obeys.evaluation {α : Type} (h : rules.Admits env Q) {evaluation : Evaluation α}
    (hquiet : evaluation.IsQuiet) {next : α → Script}
    (hnext : ∀ a, evaluation.result = .ok a → (next a).Obeys rules item) :
    (evaluation.script next).Obeys rules item := by
  unfold Evaluation.script
  refine Obeys.afterEvents ?_ fun e he => h.quiet item (hquiet e he)
  split
  · rename_i a ha
    exact hnext a ha
  · trivial

theorem sequential_obeys (h : rules.Admits env Q) (item : Option Item) :
    Sequential fun script _ => script.Obeys rules item where
  done := trivial
  poll hnext := ⟨h.quiet item trivial, hnext⟩
  andThen := Obeys.andThen

/-- Whatever the data is, a section renders one of its branches, or the first of
them several times. -/
theorem obeys_block (h : rules.Admits env Q) (kind : SectionKind) (expression : Expression)
    {body otherwise : Body} (hbody : ∀ ctx, (body ctx).Obeys rules item)
    (hotherwise : ∀ ctx, (otherwise ctx).Obeys rules item) (ctx : Context) :
    (block env kind expression body otherwise ctx).Obeys rules item := by
  apply Obeys.evaluation h (Evaluation.quiet_ofExpression env ctx _ expression)
  intro scope _
  exact branch_induction (sequential_obeys h item) hbody hotherwise kind ctx scope

/-- Items one after another obey the rules if each of them does. -/
theorem obeys_inOrder (h : rules.Admits env Q) {rendered : Item → Body} {forest : List Item}
    (hforest : ∀ inner ∈ forest, ∀ ctx, (rendered inner ctx).Obeys rules (some inner))
    (ctx : Context) :
    (inOrder (forest.map fun inner => ⟨inner, rendered inner⟩) ctx).Obeys rules item := by
  induction forest with
  | nil => trivial
  | cons first rest ih =>
      obtain ⟨hfirst, hrest⟩ := List.forall_mem_cons.mp hforest
      exact ⟨h.quiet item trivial, hfirst ctx, ih hrest⟩

/-- A recipe that the rules admit obeys them, if what it renders does. -/
theorem obeys_ofRecipe (h : rules.Admits env Q) {inner : Item} {render : Selection → Body}
    (hrender : ∀ selection,
      (∀ forest, selection.made? = some forest → ∀ made ∈ Item.walkAll forest, Q made) →
      ∀ ctx, (render selection ctx).Obeys rules (some inner))
    (ctx : Context) {recipe : Recipe} (hrecipe : rules.AdmitsRecipe Q inner recipe) :
    (ofRecipe env render ctx recipe).Obeys rules (some inner) := by
  obtain ⟨hpasses, hbrings, hwrite, hdeclare⟩ := hrecipe
  have hattempt {next : Except RenderError Unit → Recipe}
      (hnext : ∀ error, next (.error error) = .fail error) (error : RenderError) :
      ofRecipe env render ctx (next (.error error)) = fail error := by
    rw [hnext error, ofRecipe]
  induction recipe with
  | done | fail => trivial
  | write text next ih =>
      exact ⟨⟨hwrite text, trivial⟩, hattempt hpasses.1,
        ih (.ok ()) hpasses.2 fun hbrought => hbrings ⟨_, hbrought⟩⟩
  | evaluate expression expected next ih =>
      refine Obeys.afterEvents ?_ fun e he =>
        h.quiet _ (Evaluation.quiet_ofExpression env ctx expected expression e he)
      exact ih _ (hpasses _) fun hbrought => hbrings ⟨_, hbrought⟩
  | render selection scope next ih =>
      refine ⟨hrender selection (fun forest hmade => hbrings (.inl hmade)) _, hattempt hpasses.1,
        ih (.ok ()) hpasses.2 fun hbrought => hbrings (.inr ⟨_, hbrought⟩)⟩
  | declare name body next ih =>
      exact ⟨hdeclare name (hbrings (.inl rfl)),
        ih () hpasses fun hbrought => hbrings (.inr hbrought)⟩
  | partials next ih =>
      exact fun names => ih names (hpasses names) fun hbrought => hbrings ⟨names, hbrought⟩
  | nullText next ih => exact ih _ (hpasses _) fun hbrought => hbrings ⟨_, hbrought⟩

section

variable {enter : String → Body} {custom : CustomTag → List Part → Body}

/-- Items of providers obey the rules if their children do. -/
def ObeyingCustoms (rules : Rules) (Q : Item → Prop) (rendered : Item → Body)
    (custom : CustomTag → List Part → Body) : Prop :=
  ∀ (tag : CustomTag) (children : List Item), Q (.custom tag children) →
    (∀ inner ∈ children, ∀ ctx, (rendered inner ctx).Obeys rules (some inner)) →
    ∀ ctx, (custom tag (children.map fun inner => ⟨inner, rendered inner⟩) ctx).Obeys rules
      (some (.custom tag children))

mutual

/-- Rendering an item is up to the rules for that item, and for those inside. -/
theorem obeys_itemWith (h : rules.Admits env Q)
    (henter : ∀ name span ctx item, Q (.reference name span) →
      (enter name ctx).Obeys rules item)
    (hcustom : ObeyingCustoms rules Q (itemWith env enter custom) custom) :
    (rendered : Item) → (∀ inner ∈ rendered.walk, Q inner) → (ctx : Context) →
      (itemWith env enter custom rendered ctx).Obeys rules (some rendered)
  | .literal text, hadmitted, ctx =>
      ⟨h.literal (hadmitted _ (List.mem_singleton_self _)), trivial⟩
  | .output expression escape span, hadmitted, ctx => by
      have houtput := hadmitted _ (List.mem_singleton_self _)
      apply Obeys.evaluation h (Evaluation.quiet_ofExpression env ctx _ expression)
      intro scope hscope
      exact ⟨h.output houtput hscope, trivial⟩
  | .block kind expression body otherwise span, hadmitted, ctx => by
      rw [Item.walk] at hadmitted
      rw [itemWith, partsWith_eq_map, partsWith_eq_map]
      apply obeys_block h kind expression
      · apply obeys_inOrder h
        apply obeys_itemsWith h henter hcustom body
        intro inner hinner
        exact hadmitted inner (List.mem_cons_of_mem _ (List.mem_append_left _ hinner))
      · apply obeys_inOrder h
        apply obeys_itemsWith h henter hcustom otherwise
        intro inner hinner
        exact hadmitted inner (List.mem_cons_of_mem _ (List.mem_append_right _ hinner))
  | .reference name span, hadmitted, ctx =>
      henter name span ctx _ (hadmitted _ (List.mem_singleton_self _))
  | .declaration name body span, hadmitted, ctx =>
      ⟨h.declaration (hadmitted _ (List.mem_cons_self ..)), trivial⟩
  | .custom tag children, hadmitted, ctx => by
      rw [Item.walk] at hadmitted
      obtain ⟨hheld, hchildren⟩ := List.forall_mem_cons.mp hadmitted
      rw [itemWith, partsWith_eq_map]
      exact hcustom tag children hheld (obeys_itemsWith h henter hcustom children hchildren) ctx

theorem obeys_itemsWith (h : rules.Admits env Q)
    (henter : ∀ name span ctx item, Q (.reference name span) →
      (enter name ctx).Obeys rules item)
    (hcustom : ObeyingCustoms rules Q (itemWith env enter custom) custom) :
    (forest : List Item) → (∀ inner ∈ Item.walkAll forest, Q inner) →
      ∀ rendered ∈ forest, ∀ ctx, (itemWith env enter custom rendered ctx).Obeys rules
        (some rendered)
  | [], hadmitted => List.forall_mem_nil _
  | first :: rest, hadmitted => by
      obtain ⟨hfirst, hrest⟩ := List.forall_mem_append.mp hadmitted
      exact List.forall_mem_cons.mpr ⟨obeys_itemWith h henter hcustom first hfirst,
        obeys_itemsWith h henter hcustom rest hrest⟩

end

end

section

variable {enter : String → Body} (h : rules.Admits env Q)
  (henter : ∀ name span ctx item, Q (.reference name span) → (enter name ctx).Obeys rules item)
include h henter

/-- What a recipe selects of children, or makes, obeys the rules if the children do. -/
theorem obeys_selection {children : List Item} (hchildren : ∀ inner ∈ children, ∀ ctx,
      (Script.item env enter inner ctx).Obeys rules (some inner)) {selection : Selection}
    (hmade : ∀ forest, selection.made? = some forest → ∀ inner ∈ Item.walkAll forest, Q inner)
    (ctx : Context) : (items env enter (selection.items children) ctx).Obeys rules item := by
  obtain hsubset | ⟨forest, rfl⟩ := selection.items_subset_or_made children
  · rw [items_eq_map]
    exact obeys_inOrder h (fun inner hmem => hchildren inner (hsubset hmem)) ctx
  · have hnone : ObeyingCustoms rules Q (itemWith env enter fun _ _ _ => .done)
        fun _ _ _ => .done := fun _ _ _ _ _ => trivial
    rw [items, Selection.items,
      partsWith_of_builtin (Script.custom env enter) (fun _ _ _ => .done) _ forest.builtin,
      partsWith_eq_map]
    exact obeys_inOrder h (obeys_itemsWith h henter hnone forest.items (hmade _ rfl)) ctx

theorem obeying_custom : ObeyingCustoms rules Q (Script.item env enter)
    (Script.custom env enter) := by
  intro tag children hheld hchildren ctx
  rw [custom_map, item_custom]
  split
  · rename_i provider hprovider
    exact obeys_ofRecipe h (fun selection hmade ctx => obeys_selection h henter hchildren hmade ctx)
      ctx (h.custom hheld hprovider)
  · trivial

theorem obeys_items {forest : List Item} (hadmitted : ∀ inner ∈ Item.walkAll forest, Q inner)
    (ctx : Context) (item : Option Item) : (items env enter forest ctx).Obeys rules item := by
  rw [items_eq_map]
  exact obeys_inOrder h (obeys_itemsWith h henter (obeying_custom h henter) forest hadmitted) ctx

end

/-- The body of a partial that an admitted item refers to is admitted, whether it was
declared or is the host's. -/
theorem admitted_partialBody (h : rules.Admits env Q) {P : Script → Prop}
    (hfail : ∀ error, P (.fail error))
    (hdeclared : ∀ {name next}, P (next none) →
      (∀ body, rules.declared name body → P (next (some body))) → P (.declared name next))
    {name : String} {span : Span} (hname : Q (.reference name span)) {next : List Item → Script}
    (hnext : ∀ body, (∀ inner ∈ Item.walkAll body, Q inner) → P (next body)) :
    P (partialBody env name next) := by
  apply hdeclared
  · dsimp only
    split
    · exact hfail _
    · rename_i document hdocument
      split
      · rename_i hvalid
        exact hnext _ (h.reference hname hdocument hvalid)
      · exact hfail _
  · intro body hbody
    exact hnext body (h.declared hbody)

theorem obeys_enterPartial (h : rules.Admits env Q) (levels : Nat) {name : String}
    {span : Span} (hname : Q (.reference name span)) (ctx : Context) (item : Option Item) :
    (enterPartial env levels name ctx).Obeys rules item := by
  induction levels generalizing name span ctx item with
  | zero =>
      unfold enterPartial
      split <;> trivial
  | succ levels ih =>
      unfold enterPartial
      apply admitted_partialBody (P := fun script => script.Obeys rules item) h
        (fun _ => trivial) And.intro hname
      intro body hadmitted
      refine ⟨?_, trivial⟩
      exact obeys_items h (fun name span ctx item hname => ih hname ctx item) hadmitted ctx _

theorem obeys_ofItems (h : rules.Admits env Q) {body : List Item}
    (hadmitted : ∀ inner ∈ Item.walkAll body, Q inner) (ctx : Context) (item : Option Item) :
    (ofItems env body ctx).Obeys rules item :=
  obeys_items h (fun _ _ ctx item hname => obeys_enterPartial h _ hname ctx item) hadmitted ctx
    item

end Script

end Stencil
