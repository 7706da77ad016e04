import Stencil.Proofs.Render.Congruence
import Stencil.Proofs.Render.Trace

/-!
Documents with errors are never rendered. A template with errors is refused
before a device is opened or written to. Of a partial with errors a render uses
the errors alone: its script is the same whatever items such a partial has.
-/

namespace Stencil

/-- A render cannot tell the documents apart: they have the same errors, and if
there are none the same items. -/
structure Document.Alike (first second : Document) : Prop where
  errors : first.errors = second.errors
  items : first.isValid = true → first.items = second.items

/-- The stores hold partials under the same names, and those under one name are
alike. -/
def AlikePartials (first second : String → Option Document) : Prop :=
  ∀ name, Option.Rel Document.Alike (first name) (second name)

theorem Document.Alike.isValid_eq {first second : Document} (h : first.Alike second) :
    first.isValid = second.isValid := by
  rw [isValid, isValid, h.errors]

/-- The environment with another store of partials. -/
def Environment.withPartials (env : Environment) (partials : String → Option Document) :
    Environment :=
  { env with partials }

theorem Environment.withPartials_agrees (env : Environment)
    (first second : String → Option Document) :
    (env.withPartials first).Agrees (env.withPartials second) :=
  ⟨rfl, rfl, rfl, rfl⟩

namespace Script

variable {env : Environment} {first second : String → Option Document}

/-- Partials that are alike are entered alike: if they have errors, the render
fails with these, and what their items are is not looked at. -/
theorem partialBody_alike (h : AlikePartials first second) (name : String)
    (next : List Item → Script) :
    partialBody (env.withPartials first) name next =
      partialBody (env.withPartials second) name next := by
  unfold partialBody
  congr 1
  funext declared
  cases declared with
  | some body => rfl
  | none =>
      have hname := h name
      simp only [Environment.withPartials]
      generalize first name = found at hname ⊢
      generalize second name = other at hname ⊢
      cases hname with
      | none => rfl
      | some halike =>
          simp only [← halike.isValid_eq, ← halike.errors]
          split
          · rename_i hvalid
            rw [halike.items hvalid]
          · rfl

theorem enterPartial_alike (h : AlikePartials first second) (levels : Nat) (name : String)
    (ctx : Context) :
    enterPartial (env.withPartials first) levels name ctx =
      enterPartial (env.withPartials second) levels name ctx := by
  induction levels generalizing name ctx with
  | zero => rfl
  | succ levels ih =>
      have hitems (body : List Item) :=
        items_congr (env.withPartials_agrees first second) congruent_eq ih body ctx
      simp only [enterPartial, partialBody_alike h, hitems]

/-- Stores of partials that are alike give one script. -/
theorem ofItems_alike (h : AlikePartials first second) (body : List Item) (ctx : Context) :
    ofItems (env.withPartials first) body ctx = ofItems (env.withPartials second) body ctx :=
  items_congr (env.withPartials_agrees first second) congruent_eq
    (enterPartial_alike h env.partialDepth) body ctx

end Script

namespace Template

/-- The template with another store of partials. -/
def withPartials (template : Template) (partials : String → Option Document) : Template :=
  { template with options := { template.options with partials } }

variable {template : Template} {data : Value}

theorem textOf_error {rendering : Rendering} {error : RenderError}
    (h : rendering.result = .error error) : template.textOf rendering = .error error := by
  rw [textOf, h]
  rfl

/-- A rendering that was refused for these errors, on the device that it was to
go to. -/
structure Refused (errors : List ParseError) (device : Device) (rendering : Rendering) :
    Prop where
  result : rendering.result = .error (.invalid errors)
  untouched : rendering.device = device
  nothingLooked : rendering.unresolved = []

theorem refused_renderUnder (hinvalid : template.isValid = false) (device : Device)
    (signal : Signal) :
    Refused template.document.errors device (template.renderUnder data device signal) := by
  rw [renderUnder_invalid hinvalid]
  constructor <;> rfl

/-- A device is opened for valid templates only: what would come of it makes no
difference to others. -/
theorem renderOpening_invalid (hinvalid : template.isValid = false)
    (opening : Unit → Except DeviceError Device) (caller : Option Bool)
    (clock : Clock) :
    template.renderOpening data opening caller clock =
      ⟨.error (.invalid template.document.errors), .memory, .new caller none, []⟩ := by
  rw [renderOpening, hinvalid]
  rfl

section

variable {first second : String → Option Document}

theorem renderUnder_alike (h : AlikePartials first second) (device : Device)
    (signal : Signal) :
    (template.withPartials first).renderUnder data device signal =
      (template.withPartials second).renderUnder data device signal := by
  have hscript : (template.withPartials first).script data =
      (template.withPartials second).script data :=
    @Script.ofItems_alike template.options.environment first second h template.document.items
      (.root data)
  simp only [renderUnder, hscript]
  rfl

theorem renderOpening_alike (h : AlikePartials first second)
    (opening : Unit → Except DeviceError Device) (caller : Option Bool)
    (clock : Clock) :
    (template.withPartials first).renderOpening data opening caller clock =
      (template.withPartials second).renderOpening data opening caller clock := by
  unfold renderOpening
  split
  · rename_i hvalid
    rw [if_pos (show (template.withPartials second).isValid = true from hvalid)]
    split
    · exact renderUnder_alike h _ _
    · rfl
  · rename_i hinvalid
    rw [if_neg (show ¬(template.withPartials second).isValid = true from hinvalid)]
    rfl

theorem renderText_alike (h : AlikePartials first second) (caller : Option Bool)
    (clock : Clock) :
    (template.withPartials first).renderText data caller clock =
      (template.withPartials second).renderText data caller clock :=
  congrArg template.textOf (renderUnder_alike h _ _)

end

/-- Documents with errors are never rendered. Every way to render a template with
errors comes to these errors, with nothing written and nothing opened. And for
any template, partials with errors can be exchanged for others with the same
errors: no way to render it tells them apart. -/
theorem errors_never_rendered (template : Template) (data : Value) (caller : Option Bool)
    (clock : Clock) :
    (template.isValid = false →
      let errors := template.document.errors
      (∀ device, Refused errors device (template.render data device caller clock)) ∧
      (∀ opening, Refused errors .memory (template.renderOpening data opening caller clock) ∧
        ∀ opening', template.renderOpening data opening caller clock =
          template.renderOpening data opening' caller clock) ∧
      template.renderText data caller clock = .error (.invalid errors) ∧
      ∀ timeLimit, Refused errors .memory (template.renderWithin data caller timeLimit clock) ∧
        template.textOf (template.renderWithin data caller timeLimit clock) =
          .error (.invalid errors)) ∧
    ∀ first second, AlikePartials first second →
      (∀ device, (template.withPartials first).render data device caller clock =
        (template.withPartials second).render data device caller clock) ∧
      (∀ opening, (template.withPartials first).renderOpening data opening caller clock =
        (template.withPartials second).renderOpening data opening caller clock) ∧
      (template.withPartials first).renderText data caller clock =
        (template.withPartials second).renderText data caller clock ∧
      ∀ timeLimit, (template.withPartials first).renderWithin data caller timeLimit clock =
        (template.withPartials second).renderWithin data caller timeLimit clock := by
  constructor
  · intro hinvalid errors
    have hrefused (device : Device) (signal : Signal) :
        Refused errors device (template.renderUnder data device signal) :=
      refused_renderUnder hinvalid device signal
    refine ⟨fun device => hrefused device _, ?_, ?_, ?_⟩
    · intro opening
      constructor
      · rw [renderOpening_invalid hinvalid]
        constructor <;> rfl
      · intro opening'
        rw [renderOpening_invalid hinvalid, renderOpening_invalid hinvalid]
    · exact textOf_error (hrefused _ _).result
    · intro timeLimit
      exact ⟨hrefused _ _, textOf_error (hrefused _ _).result⟩
  · intro first second h
    refine ⟨?_, ?_, renderText_alike h caller clock, ?_⟩
    · intro device
      exact renderUnder_alike h _ _
    · intro opening
      exact renderOpening_alike h opening caller clock
    · intro timeLimit
      exact renderUnder_alike h _ _

/-- A document with a block that is never closed. -/
def unclosedDocument (items : List Item) : Document :=
  ⟨items, [⟨.unclosedBlock "if", ⟨0, 9, 1, 1⟩⟩], none⟩

/-- A template that refers to a partial. -/
def referring : Template :=
  ⟨"\x7b\x7b> card\x7d\x7d", ⟨[.reference "card" ⟨0, 10, 1, 1⟩], [], none⟩, .default⟩

/-- Neither as a template nor as a partial is a document rendered whose block is
never closed. -/
theorem unclosed_never_rendered :
    let clock := Clock.still
    let broken : Template := ⟨"\x7b\x7b#if a\x7d\x7dx", unclosedDocument [.literal "x"], .default⟩
    let store (items : List Item) (name : String) : Option Document :=
      if name = "card" then some (unclosedDocument items) else none
    broken.isValid = false ∧
    broken.renderText .null none clock = .error (.invalid broken.document.errors) ∧
    AlikePartials (store []) (store [.literal "x"]) ∧
    (referring.withPartials (store [])).renderText .null none clock =
      (referring.withPartials (store [.literal "x"])).renderText .null none clock ∧
    (referring.withPartials (store [])).renderText .null none clock =
      .error (.invalid broken.document.errors) := by
  intro clock broken store
  have hinvalid : broken.isValid = false := rfl
  have halike : AlikePartials (store []) (store [.literal "x"]) := by
    intro name
    by_cases hname : name = "card"
    · simp only [store, if_pos hname]
      refine .some ⟨rfl, ?_⟩
      intro hvalid
      cases hvalid
    · simp only [store, if_neg hname]
      exact .none
  have hbroken := (errors_never_rendered broken .null none clock).1 hinvalid
  have hreferring := (errors_never_rendered referring .null none clock).2 _ _ halike
  exact ⟨hinvalid, hbroken.2.2.1, halike, hreferring.2.2.1, rfl⟩

end Template

end Stencil
