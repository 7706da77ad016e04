import Stencil.Proofs.Render.Parts
import Stencil.Proofs.Render.Trace
import Stencil.Proofs.Render.View

/-!
What a render reads. The readings of a forest are the paths that a render of it
looks up, in order, each with the scopes that it is looked up in.
-/

namespace Stencil

/-- A path that a render looks up, with the scopes that it is looked up in. -/
structure Reading where
  view : View
  path : Path
  expected : Expectation

/-- What the path finds. -/
def Reading.found (reading : Reading) : Option Found :=
  reading.view.context.find? none reading.path

/-- A path that was looked up, and what it found. -/
structure Look where
  path : Path
  expected : Expectation
  found : Option Found

def Reading.look (reading : Reading) : Look :=
  ⟨reading.path, reading.expected, reading.found⟩

namespace Item

mutual

/-- What a render of an item reads, in order. -/
def readings : Item → View → List Reading
  | .output expression _ _, view => [⟨view, expression.path, .value⟩]
  | .block kind expression body otherwise _, view =>
      ⟨view, expression.path, Script.expectation kind⟩ ::
        (view.branch kind expression.path).elim (readingsAll otherwise view)
          fun views => views.flatMap fun view => readingsAll body view
  | _, _ => []

def readingsAll : List Item → View → List Reading
  | [], _ => []
  | item :: items, view => item.readings view ++ readingsAll items view

end

/-- Literals, outputs and sections, without formatters. -/
def IsBasic : Item → Prop
  | .literal _ => True
  | .output expression _ _ | .block _ expression _ _ _ => expression.calls = []
  | .reference .. | .declaration .. | .custom .. => False

end Item

def Event.look? : Event → Option Look
  | look path expected found => some ⟨path, expected, found⟩
  | _ => none

/-- What is looked up in a run. -/
def looksOf (moments : List Moment) : List Look :=
  moments.filterMap (·.event.look?)

theorem looksOf_append (first second : List Moment) :
    looksOf (first ++ second) = looksOf first ++ looksOf second :=
  List.filterMap_append

theorem looksOf_cons (item : Option Item) (e : Event) (result : Except RenderError Unit)
    (moments : List Moment) :
    looksOf (⟨item, e, result⟩ :: moments) = e.look?.toList ++ looksOf moments := by
  cases hlook : e.look? with
  | none => exact List.filterMap_cons_none hlook
  | some look => exact List.filterMap_cons_some hlook

namespace Script

/-- The script looks up these, whatever run it is performed in, as far as it gets. -/
def Shows (script : Script) (looks : List Look) : Prop :=
  ∀ item run, looksOf (script.trace item run) <+: looks ∧
    ((script.perform run).1 = .ok () → looksOf (script.trace item run) = looks)

variable {looks more : List Look}

theorem shows_done : done.Shows [] :=
  fun _ _ => ⟨List.prefix_rfl, fun _ => rfl⟩

theorem shows_event (e : Event) {next : Unit → Script} (h : (next ()).Shows looks) :
    (event e next).Shows (e.look?.toList ++ looks) := by
  intro item run
  rcases hhandle : run.handle e with ⟨result, after⟩
  cases result with
  | error error =>
      rw [trace_event_error hhandle, perform_event_error hhandle, looksOf_cons]
      exact ⟨List.prefix_append_right_inj _ |>.mpr List.nil_prefix, nofun⟩
  | ok =>
      obtain ⟨hfront, hall⟩ := h item after
      rw [trace_event hhandle, perform_event hhandle, looksOf_cons]
      exact ⟨(List.prefix_append_right_inj _).mpr hfront, fun hok => by rw [hall hok]⟩

theorem shows_inside (bracket : Bracket) {body : Script} {next : Unit → Script}
    (hbody : body.Shows looks) (hnext : (next ()).Shows more) :
    (inside bracket body next).Shows (looks ++ more) := by
  intro item run
  obtain ⟨hfront, hall⟩ := hbody (bracket.item?.or item) (run.enter bracket)
  rcases hperform : body.perform (run.enter bracket) with ⟨result, after⟩
  cases result with
  | error error =>
      rw [trace_inside_error hperform, perform_inside_error hperform]
      exact ⟨hfront.trans (List.prefix_append _ _), nofun⟩
  | ok =>
      rw [hperform] at hall
      obtain ⟨hrest, hallrest⟩ := hnext item (after.leave bracket)
      rw [trace_inside hperform, perform_inside hperform, looksOf_append, hall rfl]
      exact ⟨(List.prefix_append_right_inj _).mpr hrest, fun hok => by rw [hallrest hok]⟩

theorem Shows.andThen {script : Script} {rest : Unit → Script} (hfirst : script.Shows looks)
    (hrest : (rest ()).Shows more) : (script.andThen rest).Shows (looks ++ more) := by
  intro item run
  obtain ⟨hfront, hall⟩ := hfirst item run
  rw [trace_andThen, perform_andThen, looksOf_append]
  rcases hperform : script.perform run with ⟨result, after⟩
  rw [hperform] at hall
  cases result with
  | error error =>
      rw [looksOf, looksOf, List.filterMap_nil, List.append_nil]
      exact ⟨hfront.trans (List.prefix_append _ _), nofun⟩
  | ok =>
      obtain ⟨hmore, hallmore⟩ := hrest item after
      rw [hall rfl]
      exact ⟨(List.prefix_append_right_inj _).mpr hmore, fun hok => by rw [hallmore hok]⟩

/-- A section on a path looks it up and goes on with one of its branches. -/
theorem shows_block {env : Environment} (hresolver : env.resolver = none) (kind : SectionKind)
    {expression : Expression} (bare : expression.calls = []) {body otherwise : Body}
    (ctx : Context)
    (h : (branch kind body otherwise ctx
      (.ofFound expression.path.text (ctx.find? none expression.path))).Shows looks) :
    (block env kind expression body otherwise ctx).Shows
      (⟨expression.path, expectation kind, ctx.find? none expression.path⟩ :: looks) := by
  obtain ⟨path, calls, span⟩ := expression
  subst bare
  have hscript : block env kind ⟨path, [], span⟩ body otherwise ctx =
      .event (.look path (expectation kind) (ctx.find? none path)) fun _ =>
        branch kind body otherwise ctx (.ofFound path.text (ctx.find? none path)) := by
    rw [block, Evaluation.ofExpression]
    simp only [Evaluation.look, hresolver]
    rfl
  rw [hscript]
  exact shows_event _ h

theorem shows_output {env : Environment} (hresolver : env.resolver = none)
    {expression : Expression} (bare : expression.calls = []) (escape : Bool) (ctx : Context) :
    (output env expression escape ctx).Shows
      [⟨expression.path, .value, ctx.find? none expression.path⟩] := by
  obtain ⟨path, calls, span⟩ := expression
  subst bare
  have hscript : output env ⟨path, [], span⟩ escape ctx =
      .event (.look path .value (ctx.find? none path)) fun _ =>
        write (outputText env escape (.ofFound path.text (ctx.find? none path))) := by
    rw [output, Evaluation.ofExpression]
    simp only [Evaluation.look, hresolver]
    rfl
  rw [hscript]
  exact shows_event _ (shows_event _ shows_done)

variable {f : View → List Reading} {g : View → List Reading} {body otherwise : Body}

/-- The body of an iteration is rendered in the scope of each element. -/
theorem shows_elements (hbody : ∀ view, (body view.context).Shows ((f view).map Reading.look))
    (view : View) (path : Path) (value : Value) (length index : Nat) (values : List Value) :
    (elements body view.context path.text length index values).Shows
      (((view.elements path value length index values).flatMap f).map Reading.look) := by
  induction values generalizing index with
  | nil => exact shows_done
  | cons element values ih =>
      have helement := hbody (view.enter ⟨.ofElement path.text element ⟨index, length⟩,
        view.elementNode? path value index, view.isPlain path⟩)
      have hrest : ((body (view.context.enter (.ofElement path.text element
          ⟨index, length⟩))).andThen fun _ =>
            elements body view.context path.text length (index + 1) values).Shows _ :=
        helement.andThen (ih (index + 1))
      rw [View.elements, List.flatMap_cons, List.map_append]
      exact shows_event .poll hrest

theorem shows_iterate (hbody : ∀ view, (body view.context).Shows ((f view).map Reading.look))
    (hother : ∀ view, (otherwise view.context).Shows ((g view).map Reading.look))
    (view : View) (kind : SectionKind) (path : Path) (value : Value) :
    (iterate kind body otherwise view.context path.text value).Shows
      (((view.iterate kind path value).elim (g view) (·.flatMap f)).map Reading.look) := by
  have hone (scope : Scope) : (body (view.context.enter scope)).Shows
      (([view.enter ⟨scope, view.node? path, view.isPlain path⟩].flatMap f).map
        Reading.look) := by
    rw [List.flatMap_singleton]
    exact hbody (view.enter ⟨scope, _, _⟩)
  unfold iterate View.iterate
  match elementsOf? kind value with
  | some [] => exact hother view
  | some (first :: rest) => exact shows_elements hbody view path value _ 0 _
  | none =>
      cases value.isTruthy with
      | true => exact hone _
      | false => exact hother view

/-- A section renders its body in the scopes of its branch, or its other branch. -/
theorem shows_branch (hbody : ∀ view, (body view.context).Shows ((f view).map Reading.look))
    (hother : ∀ view, (otherwise view.context).Shows ((g view).map Reading.look))
    (view : View) (kind : SectionKind) (path : Path) :
    (branch kind body otherwise view.context
      (.ofFound path.text (view.context.find? none path))).Shows
      (((view.branch kind path).elim (g view) (·.flatMap f)).map Reading.look) := by
  have hone (view : View) : (body view.context).Shows (([view].flatMap f).map Reading.look) := by
    rw [List.flatMap_singleton]
    exact hbody view
  unfold branch View.branch
  simp only [Scope.ofFound]
  cases (view.context.find? none path).map Found.value with
  | none =>
      cases kind with
      | falsy => exact hone view
      | truthy | each | within | plain => exact hother view
  | some value =>
      cases kind with
      | truthy =>
          cases htruthy : value.isTruthy with
          | true => simpa [htruthy] using hbody view
          | false => simpa [htruthy] using hother view
      | falsy =>
          cases htruthy : value.isTruthy with
          | true => simpa [htruthy] using hother view
          | false => simpa [htruthy] using hbody view
      | each | plain => exact shows_iterate hbody hother view _ path value
      | within =>
          cases hnull : value.isNull with
          | true => simpa [hnull] using hother view
          | false =>
              simp only [hnull]
              exact hone (view.enter ⟨.ofValue path.text value, _, _⟩)

end Script

namespace Item

variable {env : Environment}

mutual

/-- A render looks up the readings of an item. -/
theorem shows_item (hresolver : env.resolver = none) (enter : String → Script.Body) :
    (item : Item) → (∀ inner ∈ item.walk, inner.IsBasic) → (view : View) →
    (Script.item env enter item view.context).Shows ((item.readings view).map Reading.look)
  | .literal text, _, view => Script.shows_event _ Script.shows_done
  | .output expression escape span, hbasic, view => by
      have hbare := (List.forall_mem_cons.mp hbasic).1
      exact Script.shows_output hresolver hbare escape view.context
  | .block kind expression body otherwise span, hbasic, view => by
      obtain ⟨hbare, hinner⟩ := List.forall_mem_cons.mp hbasic
      obtain ⟨hbody, hotherwise⟩ := List.forall_mem_append.mp hinner
      rw [Script.item_block, readings]
      apply Script.shows_block hresolver kind hbare
      exact Script.shows_branch (shows_items hresolver enter body hbody)
        (shows_items hresolver enter otherwise hotherwise) view kind expression.path
  | .reference name span, hbasic, view => by
      cases (List.forall_mem_cons.mp hbasic).1
  | .declaration name body span, hbasic, view => by
      cases (List.forall_mem_cons.mp hbasic).1
  | .custom tag children, hbasic, view => by
      cases (List.forall_mem_cons.mp hbasic).1

theorem shows_items (hresolver : env.resolver = none) (enter : String → Script.Body) :
    (items : List Item) → (∀ inner ∈ walkAll items, inner.IsBasic) → (view : View) →
    (Script.items env enter items view.context).Shows ((readingsAll items view).map Reading.look)
  | [], _, view => Script.shows_done
  | item :: items, hbasic, view => by
      obtain ⟨hitem, hitems⟩ := List.forall_mem_append.mp hbasic
      have hfirst := shows_item hresolver enter item hitem view
      have hrest := shows_items hresolver enter items hitems view
      rw [Script.items_cons, readingsAll, List.map_append]
      exact Script.shows_event .poll (Script.shows_inside _ hfirst hrest)

end

end Item

namespace Template

/-- What a render of the template reads, in order, as far as it gets. -/
def readings (template : Template) (data : Value) : List Reading :=
  Item.readingsAll template.document.items (.root data)

/-- What a render looks up are its readings, in order, as far as it gets. -/
theorem looksOf_trace {template : Template} (data : Value)
    (hbasic : ∀ item ∈ Item.walkAll template.document.items, item.IsBasic)
    (hresolver : template.options.resolver = none) (device : Device) (signal : Signal) :
    looksOf (template.trace data device signal) <+:
      (template.readings data).map Reading.look := by
  unfold trace
  split
  · exact List.nil_prefix
  · split
    · exact List.nil_prefix
    · have henv : template.options.environment.resolver = none := hresolver
      exact (Item.shows_items henv _ _ hbasic (.root data) none _).1

end Template

end Stencil
