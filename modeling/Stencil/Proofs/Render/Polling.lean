import Stencil.Proofs.Render.Items

/-!
When renders poll. The script of items polls before each item, and before each
element of a section; in between it is busy with one item. So whatever comes after
a formatter cancelled, up to the next poll, is work of the item that was being
evaluated.
-/

namespace Stencil

/-- What evaluating an item comes to: paths are looked up, formatters may cancel,
and an output writes the text of its value. -/
inductive Event.IsWorkOf (env : Environment) : Option Item → Event → Prop where
  | look (item : Option Item) (path : Path) (expected : Expectation) (found : Option Found) :
      IsWorkOf env item (.look path expected found)
  | cancel (item : Option Item) : IsWorkOf env item .cancel
  | write {expression : Expression} {escape : Bool} {span : Span} {ctx : Context} {scope : Scope}
      (evaluated : (Evaluation.ofExpression env ctx .value expression).result = .ok scope) :
      IsWorkOf env (some (.output expression escape span))
        (.write (Script.outputText env escape scope))

def Event.isPoll : Event → Bool
  | poll => true
  | write _ | look .. | cancel | declare .. => false

/-- The moments up to the first poll. -/
def untilPoll (moments : List Moment) : List Moment :=
  moments.takeWhile fun moment => !moment.event.isPoll

/-- What follows a poll is cut off. -/
theorem untilPoll_append {first second : List Moment} (h : untilPoll second = []) :
    untilPoll (first ++ second) = untilPoll first := by
  unfold untilPoll at h ⊢
  rw [List.takeWhile_append, h, List.append_nil]
  split
  · rename_i hall
    rw [List.IsPrefix.eq_of_length (List.takeWhile_prefix _) hall]
  · rfl

theorem untilPoll_cons {moment : Moment} (h : moment.event.isPoll = false)
    (moments : List Moment) : untilPoll (moment :: moments) = moment :: untilPoll moments := by
  rw [untilPoll, List.takeWhile_cons_of_pos (by rw [h]; rfl), untilPoll]

/-- Up to the first poll the moments are work of an item, and one text at most. -/
structure Finishes (env : Environment) (item : Option Item) (moments : List Moment) : Prop where
  ownWork : ∀ moment ∈ untilPoll moments, moment.item = item ∧ moment.event.IsWorkOf env item
  oneText : (handedTexts (untilPoll moments)).length ≤ 1

/-- After every cancel the item that it belongs to is finished. -/
def FinishesCancelled (env : Environment) : List Moment → Prop
  | [] => True
  | moment :: rest =>
      (moment.event = .cancel → Finishes env moment.item rest) ∧ FinishesCancelled env rest

namespace Finishes

variable {env : Environment} {item : Option Item}

theorem of_untilPoll {moments : List Moment} (h : untilPoll moments = []) :
    Finishes env item moments := by
  constructor
  · rw [h]
    exact List.forall_mem_nil _
  · rw [h]
    exact Nat.zero_le _

theorem append {first second : List Moment} (h : Finishes env item first)
    (hsecond : untilPoll second = []) : Finishes env item (first ++ second) := by
  obtain ⟨hwork, htext⟩ := h
  rw [← untilPoll_append hsecond] at hwork htext
  exact ⟨hwork, htext⟩

/-- Work that writes nothing may come before. -/
theorem cons {e : Event} (hwork : e.IsWorkOf env item) (hpoll : e.isPoll = false)
    (hquiet : e.handed = []) {moments : List Moment} (h : Finishes env item moments)
    (result : Except RenderError Unit) : Finishes env item (⟨item, e, result⟩ :: moments) := by
  constructor
  · rw [untilPoll_cons hpoll]
    exact List.forall_mem_cons.mpr ⟨⟨rfl, hwork⟩, h.ownWork⟩
  · rw [untilPoll_cons hpoll, handedTexts, List.flatMap_cons, hquiet]
    exact h.oneText

/-- A text is the last work of an item. -/
theorem write {text : String} (hwork : Event.IsWorkOf env item (.write text))
    {moments : List Moment} (h : untilPoll moments = []) (result : Except RenderError Unit) :
    Finishes env item (⟨item, .write text, result⟩ :: moments) := by
  constructor
  · rw [untilPoll_cons rfl, h]
    exact List.forall_mem_singleton.mpr ⟨rfl, hwork⟩
  · rw [untilPoll_cons rfl, h, handedTexts, List.flatMap_singleton, Event.handed]
    split
    · exact Nat.zero_le _
    · exact Nat.le_refl _

end Finishes

theorem finishesCancelled_append {env : Environment} {first second : List Moment}
    (hfirst : FinishesCancelled env first) (hsecond : FinishesCancelled env second)
    (hpoll : untilPoll second = []) : FinishesCancelled env (first ++ second) := by
  induction first with
  | nil => exact hsecond
  | cons moment rest ih =>
      exact ⟨fun hcancel => (hfirst.1 hcancel).append hpoll, ih hfirst.2⟩

theorem FinishesCancelled.finishes {env : Environment} {before after : List Moment}
    {item : Option Item} {result : Except RenderError Unit}
    (h : FinishesCancelled env (before ++ ⟨item, .cancel, result⟩ :: after)) :
    Finishes env item after := by
  induction before with
  | nil => exact h.1 rfl
  | cons moment before ih => exact ih h.2

namespace Script

/-- The script polls before anything else, if it does not end at once. -/
def Waits : Script → Prop
  | done | fail _ | event .poll _ => True
  | _ => False

/-- The script only goes on with the work of an item before it polls or ends. -/
def OnlyFinishes (env : Environment) (item : Option Item) : Script → Prop
  | done | fail _ => True
  | event e next => match e with
      | .poll => True
      | .look .. | .cancel => (next ()).OnlyFinishes env item
      | .write text => Event.IsWorkOf env item (.write text) ∧ (next ()).Waits
      | .declare .. => False
  | inside .. | attempt .. | declared .. | partials .. => False

/-- After a cancel the script only finishes the item that it belongs to. -/
def Heedful (rules : Rules) (env : Environment) : Script → Option Item → Prop
  | done, _ | fail _, _ => True
  | event e next, item =>
      (e = .cancel → (next ()).OnlyFinishes env item) ∧ (next ()).Heedful rules env item
  | inside bracket body next, item =>
      body.Heedful rules env (bracket.item?.or item) ∧ (next ()).Waits ∧
        (next ()).Heedful rules env item
  | attempt .., _ => False
  | declared name next, item =>
      (next none).Heedful rules env item ∧
        ∀ body, rules.declared name body → (next (some body)).Heedful rules env item
  | partials next, item => ∀ names, (next names).Heedful rules env item

variable {rules : Rules} {env : Environment} {item : Option Item} {script : Script}
  {rest : Unit → Script}

theorem Waits.onlyFinishes (h : script.Waits) : script.OnlyFinishes env item := by
  cases script with
  | done | fail => trivial
  | event e next =>
      cases e with
      | poll => trivial
      | write | look | cancel | declare => cases h
  | inside | attempt | declared | partials => cases h

theorem Waits.andThen (h : script.Waits) (hrest : (rest ()).Waits) :
    (script.andThen rest).Waits := by
  cases script with
  | done => exact hrest
  | fail => trivial
  | event e next =>
      cases e with
      | poll => trivial
      | write | look | cancel | declare => cases h
  | inside | attempt | declared | partials => cases h

theorem OnlyFinishes.andThen (h : script.OnlyFinishes env item) (hrest : (rest ()).Waits) :
    (script.andThen rest).OnlyFinishes env item := by
  induction script with
  | done => exact hrest.onlyFinishes
  | fail => trivial
  | event e next ih =>
      cases e with
      | poll => trivial
      | look | cancel => exact ih () h
      | write text => exact ⟨h.1, h.2.andThen hrest⟩
      | declare => cases h
  | inside | attempt | declared | partials => cases h

theorem Heedful.andThen (h : script.Heedful rules env item) (hwaits : (rest ()).Waits)
    (hrest : (rest ()).Heedful rules env item) :
    (script.andThen rest).Heedful rules env item := by
  induction script generalizing item with
  | done => exact hrest
  | fail => trivial
  | event e next ih =>
      exact ⟨fun hcancel => (h.1 hcancel).andThen hwaits, ih () h.2 hrest⟩
  | inside bracket body next _ ih =>
      exact ⟨h.1, h.2.1.andThen hwaits, ih () h.2.2 hrest⟩
  | attempt => cases h
  | declared name next ih =>
      exact ⟨ih none h.1 hrest, fun body hbody => ih (some body) (h.2 body hbody) hrest⟩
  | partials next ih => exact fun names => ih names (h names) hrest

theorem untilPoll_trace (h : script.Waits) (run : Run) :
    untilPoll (script.trace item run) = [] := by
  cases script with
  | done | fail => rfl
  | event e next =>
      cases e with
      | poll => rfl
      | write | look | cancel | declare => cases h
  | inside | attempt | declared | partials => cases h

theorem finishes_trace (h : script.OnlyFinishes env item) (run : Run) :
    Finishes env item (script.trace item run) := by
  induction script generalizing run with
  | done | fail => exact .of_untilPoll rfl
  | event e next ih =>
      cases e with
      | poll => exact .of_untilPoll rfl
      | look path expected found =>
          exact .cons (.look item path expected found) rfl rfl (ih () h _) _
      | cancel => exact .cons (.cancel item) rfl rfl (ih () h _) _
      | write text =>
          rcases hhandle : run.handle (.write text) with ⟨error | _, after⟩
          · rw [trace_event_error hhandle]
            exact .write h.1 rfl _
          · rw [trace_event hhandle]
            exact .write h.1 (untilPoll_trace h.2 after) _
      | declare => cases h
  | inside | attempt | declared | partials => cases h

/-- A run finishes the item in which a formatter cancels. -/
theorem finishesCancelled_trace (h : script.Heedful rules env item)
    (hobeys : script.Obeys rules item) {run : Run} (hsession : run.session.Obeys rules) :
    FinishesCancelled env (script.trace item run) := by
  induction script generalizing item run with
  | done | fail => trivial
  | event e next ih =>
      have hafter := Run.obeys_handle hsession hobeys.1
      rcases hhandle : run.handle e with ⟨error | _, after⟩
      · rw [trace_event_error hhandle]
        exact ⟨fun _ => .of_untilPoll rfl, trivial⟩
      · rw [hhandle] at hafter
        rw [trace_event hhandle]
        exact ⟨fun hcancel => finishes_trace (h.1 hcancel) after, ih () h.2 hobeys.2 hafter⟩
  | inside bracket body next ihbody ih =>
      obtain ⟨hbody, hwaits, hnext⟩ := h
      have hinner := ihbody hbody hobeys.1 (Run.obeys_enter hsession bracket)
      have hafter := (trace_obeys hobeys.1 (Run.obeys_enter hsession bracket)).2
      rcases hperform : body.perform (run.enter bracket) with ⟨error | _, after⟩
      · rw [trace_inside_error hperform]
        exact hinner
      · rw [hperform] at hafter
        rw [trace_inside hperform]
        exact finishesCancelled_append hinner
          (ih () hnext hobeys.2 (Run.obeys_leave hafter bracket)) (untilPoll_trace hwaits _)
  | attempt => cases h
  | declared name next ih =>
      rw [trace]
      cases hbody : run.session.declared? name with
      | none => exact ih none h.1 hobeys.1 hsession
      | some body =>
          have hdeclared := hsession name body hbody
          exact ih (some body) (h.2 body hdeclared) (hobeys.2 body hdeclared) hsession
  | partials next ih => exact ih _ (h _) (hobeys _) hsession

/-- The script polls before anything else and is heedful. -/
structure Cautious (rules : Rules) (env : Environment) (item : Option Item) (script : Script) :
    Prop where
  waits : script.Waits
  heedful : script.Heedful rules env item

theorem cautious_done : done.Cautious rules env item :=
  ⟨trivial, trivial⟩

theorem cautious_poll {next : Unit → Script} (h : (next ()).Heedful rules env item) :
    (event .poll next).Cautious rules env item :=
  ⟨trivial, (fun hcancel => by cases hcancel), h⟩

theorem sequential_cautious (rules : Rules) (env : Environment) (item : Option Item) :
    Sequential fun script _ => script.Cautious rules env item where
  done := cautious_done
  poll hnext := cautious_poll hnext.heedful
  andThen h hrest :=
    ⟨h.waits.andThen hrest.waits, h.heedful.andThen hrest.waits hrest.heedful⟩

theorem heedful_afterEvents {events : List Event} (hquiet : ∀ e ∈ events, e.IsQuiet)
    (hfinishes : script.OnlyFinishes env item) (h : script.Heedful rules env item) :
    (afterEvents events script).OnlyFinishes env item ∧
      (afterEvents events script).Heedful rules env item := by
  induction events with
  | nil => exact ⟨hfinishes, h⟩
  | cons e events ih =>
      obtain ⟨honly, hheedful⟩ := ih fun e he => hquiet e (List.mem_cons_of_mem _ he)
      refine ⟨?_, fun _ => honly, hheedful⟩
      have he := hquiet e (List.mem_cons_self ..)
      cases e with
      | poll => trivial
      | look | cancel => exact honly
      | write | declare => cases he

/-- An evaluation is work of an item, if only such work comes after it. -/
theorem heedful_evaluation {α : Type} {evaluation : Evaluation α} (hquiet : evaluation.IsQuiet)
    {next : α → Script}
    (hfinishes : ∀ a, evaluation.result = .ok a → (next a).OnlyFinishes env item)
    (h : ∀ a, (next a).Heedful rules env item) :
    (evaluation.script next).Heedful rules env item := by
  unfold Evaluation.script
  apply And.right (heedful_afterEvents hquiet ?_ ?_)
  · split
    · rename_i a ha
      exact hfinishes a ha
    · trivial
  · split
    · exact h _
    · trivial

theorem heedful_block {body otherwise : Body} (hbody : ∀ ctx, (body ctx).Cautious rules env item)
    (hother : ∀ ctx, (otherwise ctx).Cautious rules env item) (kind : SectionKind)
    (expression : Expression) (ctx : Context) :
    (block env kind expression body otherwise ctx).Heedful rules env item := by
  have hbranch (scope : Scope) : (branch kind body otherwise ctx scope).Cautious rules env item :=
    branch_induction (sequential_cautious rules env item) hbody hother kind ctx scope
  exact heedful_evaluation (Evaluation.quiet_ofExpression env ctx _ expression)
    (fun scope _ => (hbranch scope).waits.onlyFinishes) fun scope => (hbranch scope).heedful

variable {Q : Item → Prop}

mutual

/-- Rendering an item that is not of a provider is heedful. -/
theorem heedful_item (hcustom : ∀ tag children, ¬Q (.custom tag children))
    {enter : String → Body}
    (henter : ∀ name span ctx item, Q (.reference name span) →
      (enter name ctx).Heedful rules env item) :
    (rendered : Item) → (∀ inner ∈ rendered.walk, Q inner) → (ctx : Context) →
      (Script.item env enter rendered ctx).Heedful rules env (some rendered)
  | .literal text, hadmitted, ctx => ⟨(fun hcancel => by cases hcancel), trivial⟩
  | .output expression escape span, hadmitted, ctx =>
      heedful_evaluation (Evaluation.quiet_ofExpression env ctx _ expression)
        (fun scope hscope => ⟨.write hscope, trivial⟩)
        fun scope => ⟨(fun hcancel => by cases hcancel), trivial⟩
  | .block kind expression body otherwise span, hadmitted, ctx => by
      rw [Item.walk] at hadmitted
      rw [item_block]
      apply heedful_block
      · intro ctx
        apply cautious_items hcustom henter body
        intro inner hinner
        exact hadmitted inner (List.mem_cons_of_mem _ (List.mem_append_left _ hinner))
      · intro ctx
        apply cautious_items hcustom henter otherwise
        intro inner hinner
        exact hadmitted inner (List.mem_cons_of_mem _ (List.mem_append_right _ hinner))
  | .reference name span, hadmitted, ctx =>
      henter name span ctx _ (hadmitted _ (List.mem_singleton_self _))
  | .declaration name body span, hadmitted, ctx => ⟨(fun hcancel => by cases hcancel), trivial⟩
  | .custom tag children, hadmitted, ctx =>
      absurd (hadmitted _ (List.mem_cons_self ..)) (hcustom tag children)

/-- Between items there is always a poll. -/
theorem cautious_items (hcustom : ∀ tag children, ¬Q (.custom tag children))
    {enter : String → Body}
    (henter : ∀ name span ctx item, Q (.reference name span) →
      (enter name ctx).Heedful rules env item) :
    (forest : List Item) → (∀ inner ∈ Item.walkAll forest, Q inner) → (ctx : Context) →
      (item : Option Item) → (items env enter forest ctx).Cautious rules env item
  | [], hadmitted, ctx, item => cautious_done
  | first :: rest, hadmitted, ctx, item => by
      rw [Item.walkAll] at hadmitted
      have hrest := cautious_items hcustom henter rest
        (fun inner hinner => hadmitted inner (List.mem_append_right _ hinner)) ctx item
      rw [items_cons]
      refine cautious_poll ⟨?_, hrest.waits, hrest.heedful⟩
      exact heedful_item hcustom henter first
        (fun inner hinner => hadmitted inner (List.mem_append_left _ hinner)) ctx

end

section

variable (h : rules.Admits env Q) (hcustom : ∀ tag children, ¬Q (.custom tag children))
include h hcustom

theorem heedful_enterPartial (levels : Nat) {name : String}
    {span : Span} (hname : Q (.reference name span)) (ctx : Context) (item : Option Item) :
    (enterPartial env levels name ctx).Heedful rules env item := by
  induction levels generalizing name span ctx item with
  | zero =>
      unfold enterPartial
      split <;> trivial
  | succ levels ih =>
      unfold enterPartial
      apply admitted_partialBody (P := fun script => script.Heedful rules env item) h
        (fun _ => trivial) And.intro hname
      intro body hadmitted
      have hitems := cautious_items hcustom (fun name span ctx item hname => ih hname ctx item)
        body hadmitted ctx item
      exact ⟨hitems.heedful, trivial, trivial⟩

theorem heedful_ofItems {forest : List Item}
    (hadmitted : ∀ inner ∈ Item.walkAll forest, Q inner) (ctx : Context) (item : Option Item) :
    (ofItems env forest ctx).Heedful rules env item :=
  (cautious_items hcustom (fun _ _ ctx item hname => heedful_enterPartial h hcustom _ hname ctx
    item) forest hadmitted ctx item).heedful

end

end Script

end Stencil
