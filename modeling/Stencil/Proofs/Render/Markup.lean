import Stencil.Proofs.Html.Escape
import Stencil.Proofs.Render.Device
import Stencil.Proofs.Render.Reach

/-!
No data can inject markup. A render of a template that escapes all its outputs
writes literals and escaped text, so that the markup of what it writes is that of
the literals.
-/

namespace Stencil

/-- The item is not of a provider and escapes what it writes. -/
def Item.Escapes : Item → Prop
  | output _ escape _ => escape = true
  | custom .. => False
  | literal _ | block .. | reference .. | declaration .. => True

/-- The text of a literal that was offered to the device. -/
def Moment.literal? (moment : Moment) : Option String :=
  match moment.item with
  | some (.literal _) => moment.offered?
  | _ => none

/-- The literals among the offered texts. -/
def literalTexts (moments : List Moment) : List String :=
  moments.filterMap Moment.literal?

/-- Texts that are literals or without markup have the markup of the literals. -/
theorem markup_offeredTexts {moments : List Moment}
    (h : ∀ moment ∈ moments, ∀ text, moment.offered? = some text →
      moment.literal? = some text ∨
        moment.literal? = none ∧ ∀ c ∈ text.toList, Html.isMarkup c = false) :
    (String.join (offeredTexts moments)).toList.filter Html.isMarkup =
      (String.join (literalTexts moments)).toList.filter Html.isMarkup := by
  induction moments with
  | nil => rfl
  | cons moment moments ih =>
      have hrest := ih fun moment' hmoment => h moment' (List.mem_cons_of_mem _ hmoment)
      unfold offeredTexts literalTexts at hrest ⊢
      cases hoffered : moment.offered? with
      | none =>
          have hnone : moment.literal? = none := by
            unfold Moment.literal?
            split
            · exact hoffered
            · rfl
          rw [List.filterMap_cons_none hoffered, List.filterMap_cons_none hnone, hrest]
      | some text =>
          rw [List.filterMap_cons_some hoffered, String.join_cons, String.toList_append,
            List.filter_append, hrest]
          rcases h moment (List.mem_cons_self ..) text hoffered with hliteral | ⟨hnone, hclean⟩
          · rw [List.filterMap_cons_some hliteral, String.join_cons, String.toList_append,
              List.filter_append]
          · have hfilter : text.toList.filter Html.isMarkup = [] := by
              rw [List.filter_eq_nil_iff]
              intro c hc
              simp [hclean c hc]
            rw [List.filterMap_cons_none hnone, hfilter, List.nil_append]

namespace Template

/-- All outputs that a render may come to are escaped, and no item is of a
provider. -/
def Escapes (template : Template) : Prop :=
  ∀ item, template.Holds item → item.Escapes

/-- A text that may be written for an item: a literal, or what an output was
evaluated to, escaped. -/
inductive Writes (template : Template) : Option Item → String → Prop where
  | literal {text : String} (held : template.Holds (.literal text)) :
      Writes template (some (.literal text)) text
  | output {expression : Expression} {span : Span} {ctx : Context} {scope : Scope} {text : String}
      (held : template.Holds (.output expression true span))
      (evaluated : (Evaluation.ofExpression template.options.environment ctx .value
        expression).result = .ok scope)
      (escaped : Html.IsEscaped
        ((scope.value.getD .null).text template.options.settings.nullText) text) :
      Writes template (some (.output expression true span)) text

/-- What a render of a template that escapes may do: write such texts, and
declare bodies that it holds. -/
def rules (template : Template) : Rules where
  event item e := match e with
    | .write text => template.Writes item text
    | .declare _ body => ∀ inner ∈ Item.walkAll body, template.Holds inner
    | .poll | .look .. | .cancel => True
  declared _ body := ∀ inner ∈ Item.walkAll body, template.Holds inner
  declares h := h

variable {template : Template}

theorem admits_rules (h : template.Escapes) :
    template.rules.Admits template.options.environment template.Holds where
  quiet item e he := by
    cases e with
    | write | declare => cases he
    | poll | look | cancel => trivial
  literal held := .literal held
  output {expression escape span ctx scope} held evaluated := by
    have hescape : escape = true := h _ held
    subst hescape
    exact .output held evaluated (Html.isEscaped_escape _)
  declaration held := held.declaration
  custom held := (h _ held).elim
  declared hbody := hbody
  reference held hdocument hvalid := held.reference hdocument hvalid

/-- Every text that a render offers to its device is a literal or escaped. -/
theorem writes_of_offered (h : template.Escapes) {data : Value} {device : Device}
    {signal : Signal} {moment : Moment} (hmoment : moment ∈ template.trace data device signal)
    {text : String} (hoffered : moment.offered? = some text) :
    template.Writes moment.item text := by
  have hscript : (template.script data).Obeys template.rules none :=
    Script.obeys_ofItems (admits_rules h) template.holds_items _ none
  have hevent : template.rules.event moment.item moment.event := by
    unfold trace at hmoment
    split at hmoment
    · cases hmoment
    · split at hmoment
      · cases hmoment
      · exact (Script.trace_obeys hscript (Session.obeys_new _ _)).1 moment hmoment
  have hwrite : moment.event = .write text := by
    unfold Moment.offered? at hoffered
    split at hoffered
    · cases hoffered
    · obtain rfl := Option.some.inj hoffered
      rfl
    · cases hoffered
  rw [hwrite] at hevent
  exact hevent

/-- No data can inject markup. A render leaves on its device texts one after
another, each a literal or escaped; the markup among them is that of the
literals. -/
theorem data_injects_no_markup (h : template.Escapes) (data : Value) (device : Device)
    (signal : Signal) :
    let moments := template.trace data device signal
    (template.renderUnder data device signal).device = device.offer
      (template.options.settings.encoding.encode (String.join (offeredTexts moments))) ∧
    (∀ moment ∈ moments, ∀ text, moment.offered? = some text →
      template.Writes moment.item text) ∧
    (String.join (offeredTexts moments)).toList.filter Html.isMarkup =
      (String.join (literalTexts moments)).toList.filter Html.isMarkup := by
  intro moments
  refine ⟨template.device_renderUnder data device signal, ?_, ?_⟩
  · intro moment hmoment text hoffered
    exact writes_of_offered h hmoment hoffered
  · apply markup_offeredTexts
    intro moment hmoment text hoffered
    have hwrites := writes_of_offered h hmoment hoffered
    unfold Moment.literal?
    generalize moment.item = item at hwrites ⊢
    cases hwrites with
    | literal held => exact Or.inl hoffered
    | output held evaluated escaped => exact Or.inr ⟨rfl, escaped.noMarkup⟩

/-- A name with a tag in it is written without the tag. -/
theorem greeting_injects_no_markup :
    let moments := greeting.trace (.map [("name", .string "<b>")]) .memory .never
    greeting.Escapes ∧ offeredTexts moments = ["Hello ", "&lt;b&gt;", "!"] ∧
    (String.join (offeredTexts moments)).toList.filter Html.isMarkup =
      (String.join (literalTexts moments)).toList.filter Html.isMarkup := by
  intro moments
  have hreaches : ∀ forest, greeting.Reaches forest → forest = greeting.document.items := by
    intro forest hforest
    induction hforest with
    | root => rfl
    | reference hforest hreference hdocument hvalid ih =>
        subst ih
        simp [greeting, Item.walkAll, Item.walk] at hreference
    | custom hforest hcustom hprovider hbrings ih =>
        subst ih
        simp [greeting, Item.walkAll, Item.walk] at hcustom
  have hescapes : greeting.Escapes := by
    rintro item ⟨forest, hforest, hitem⟩
    rw [hreaches forest hforest] at hitem
    simp only [greeting, Item.walkAll, Item.walk, List.append_nil, List.cons_append,
      List.nil_append, List.mem_cons, List.not_mem_nil, or_false] at hitem
    rcases hitem with rfl | rfl | rfl
    · trivial
    · rfl
    · trivial
  have htexts : offeredTexts moments = ["Hello ", "&lt;b&gt;", "!"] := by
    decide +kernel
  exact ⟨hescapes, htexts, (data_injects_no_markup hescapes _ _ _).2.2⟩

end Template

end Stencil
