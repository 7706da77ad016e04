import Stencil.Html
import Stencil.Render.Evaluate

/-!
The scripts of items. An item is rendered by recursion on its structure; how a
partial reference is entered is a parameter, which is then given by recursion on
the number of partials that may still be nested.
-/

namespace Stencil.Script

abbrev Body := Context → Script

/-- What the expression of a section is evaluated for. -/
def expectation : SectionKind → Expectation
  | .truthy | .falsy => .condition
  | .each => .sequence
  | .within | .plain => .scope

/-- Renders a body once per element, which becomes the scope. The signal is
polled before every element. -/
def elements (body : Body) (ctx : Context) (path : String) (length : Nat) :
    Nat → List Value → Script
  | _, [] => .done
  | index, value :: values =>
      .event .poll fun _ =>
        (body (ctx.enter (.ofElement path value ⟨index, length⟩))).andThen fun _ =>
          elements body ctx path length (index + 1) values

/-- The elements that a section iterates. To a plain section a map is a scope
and not a list of entries. -/
def elementsOf? : SectionKind → Value → Option (List Value)
  | .plain, .map _ => none
  | _, value => value.elements?

/-- Renders the body of an iterating section for a value that was found. A
truthy value without elements is a scope, and to `each` a single element. -/
def iterate (kind : SectionKind) (body otherwise : Body) (ctx : Context) (path : String)
    (value : Value) : Script :=
  match elementsOf? kind value with
  | some [] => otherwise ctx
  | some values => elements body ctx path values.length 0 values
  | none =>
      if value.isTruthy then
        let scope := if kind = .each then Scope.ofElement path value ⟨0, 1⟩
          else Scope.ofValue path value
        body (ctx.enter scope)
      else otherwise ctx

/-- Chooses the branch of a section by the scope that its expression denotes. -/
def branch (kind : SectionKind) (body otherwise : Body) (ctx : Context) (scope : Scope) :
    Script :=
  match kind, scope.value with
  | .truthy, value => if value.any Value.isTruthy then body ctx else otherwise ctx
  | .falsy, value => if value.any Value.isTruthy then otherwise ctx else body ctx
  | .each, some value | .plain, some value => iterate kind body otherwise ctx scope.path value
  | .within, some value =>
      if value.isNull then otherwise ctx else body (ctx.enter (.ofValue scope.path value))
  | _, none => otherwise ctx

/-- Renders a section, given how its branches are rendered. -/
def block (env : Environment) (kind : SectionKind) (expression : Expression)
    (body otherwise : Body) (ctx : Context) : Script :=
  (Evaluation.ofExpression env ctx (expectation kind) expression).script
    (branch kind body otherwise ctx)

def outputText (env : Environment) (escape : Bool) (scope : Scope) : String :=
  let text := (scope.value.getD .null).text env.nullText
  if escape then Html.escape text else text

def output (env : Environment) (expression : Expression) (escape : Bool) (ctx : Context) :
    Script :=
  (Evaluation.ofExpression env ctx .value expression).script fun scope =>
    write (outputText env escape scope)

/-- An item and how it is rendered. -/
structure Part where
  item : Item
  body : Body

/-- Renders parts one after another. The signal is polled before each. -/
def inOrder : List Part → Body
  | [], _ => .done
  | part :: parts, ctx =>
      .event .poll fun _ =>
        .inside (.item part.item) (part.body ctx) fun _ => inOrder parts ctx

section

variable (env : Environment) (enter : String → Body) (custom : CustomTag → List Part → Body)

mutual

/-- Renders an item, given how partial references are entered and how an item of a
provider is rendered with its children as parts. -/
def itemWith : Item → Body
  | .literal text, _ => write text
  | .output expression escape _, ctx => output env expression escape ctx
  | .block kind expression body otherwise _, ctx =>
      block env kind expression (inOrder (partsWith body)) (inOrder (partsWith otherwise)) ctx
  | .reference name _, ctx => enter name ctx
  | .declaration name body _, _ => ofEvent (.declare name body)
  | .custom tag children, ctx => custom tag (partsWith children) ctx

def partsWith : List Item → List Part
  | [] => []
  | first :: rest => ⟨first, itemWith first⟩ :: partsWith rest

end

end

/-- Where a recipe renders items: in the scope of its item, or with a value as the
scope. -/
def innerContext (ctx : Context) : Option Value → Context
  | none => ctx
  | some value => ctx.enter (.ofValue ctx.here.path value)

/-- Follows a recipe, given how what it selects is rendered. -/
def ofRecipe (env : Environment) (render : Selection → Body) (ctx : Context) : Recipe → Script
  | .done => .done
  | .fail error => .fail error
  | .write text next =>
      .attempt (write text) fun result => ofRecipe env render ctx (next result)
  | .evaluate expression expected next =>
      let evaluation := Evaluation.ofExpression env ctx expected expression
      afterEvents evaluation.events
        (ofRecipe env render ctx (next (evaluation.result.map Scope.value)))
  | .render selection scope next =>
      .attempt (render selection (innerContext ctx scope)) fun result =>
        ofRecipe env render ctx (next result)
  | .declare name body next =>
      .event (.declare name body) fun _ => ofRecipe env render ctx (next ())
  | .partials next => .partials fun names => ofRecipe env render ctx (next names)
  | .nullText next => ofRecipe env render ctx (next env.nullText)

/-- What is selected of an item with these children as parts. No provider takes part
in what was made. -/
def selected (env : Environment) (enter : String → Body) (children : List Part) :
    Selection → List Part
  | .children => children
  | .those positions => positions.filterMap (children[·]?)
  | .made forest => partsWith env enter (fun _ _ _ => .done) forest.items

/-- Renders an item of a provider; one whose provider is unknown renders
nothing. -/
def custom (env : Environment) (enter : String → Body) (tag : CustomTag) (children : List Part)
    (ctx : Context) : Script :=
  match env.provider? tag.provider with
  | some provider =>
      ofRecipe env (fun selection => inOrder (selected env enter children selection)) ctx
        (provider.render tag (children.map Part.item))
  | none => .done

/-- Renders an item, given how partial references are entered. -/
def item (env : Environment) (enter : String → Body) : Item → Body :=
  itemWith env enter (custom env enter)

/-- Renders items one after another. -/
def items (env : Environment) (enter : String → Body) (forest : List Item) : Body :=
  inOrder (partsWith env enter (custom env enter) forest)

/-- Goes on with the body of a partial: one declared in the template, or a valid
document of the host. -/
def partialBody (env : Environment) (name : String) (next : List Item → Script) : Script :=
  .declared name fun
    | some body => next body
    | none => match env.partials name with
      | none => .fail (.partialNotFound name)
      | some document =>
          if document.isValid then next document.items else .fail (.invalid document.errors)

/-- Enters a partial when some more partials may be nested. -/
def enterPartial (env : Environment) : Nat → String → Body
  | 0, name, _ => match env.overflow with
      | .fail => .fail (.partialOverflow name env.partialDepth)
      | .skip => .done
  | levels + 1, name, ctx =>
      partialBody env name fun body =>
        .inside (.reference name) (items env (enterPartial env levels) body ctx) fun _ => .done

def ofItems (env : Environment) (body : List Item) : Body :=
  items env (enterPartial env env.partialDepth) body

end Stencil.Script
