import Stencil.Proofs.Document.Walk
import Stencil.Proofs.Render.Items
import Stencil.Provider.Stock
import Stencil.Template

/-!
What a render may come to: the items of its template, of the documents that they
refer to, and of the forests that providers bring. If errors end the recipes of all
items of providers among them, they end the render.
-/

namespace Stencil

namespace Provider

theorem countFrom_passesErrors (start count : Nat) : (countFrom start count).PassesErrors := by
  induction count generalizing start with
  | zero => trivial
  | succ count ih => exact ⟨fun _ => rfl, ih (start + 1)⟩

/-- Errors end the recipes of the stock providers. -/
theorem stock_passesErrors : ∀ provider ∈ stock, ∀ tag children,
    (provider.render tag children).PassesErrors := by
  rw [stock]
  simp only [List.forall_mem_cons]
  refine ⟨?counting, ?binding, ?defining, ?shouting, ?locating, ?skipping, ?splitting,
    ?orphaned, ?ghostly, ?hushing, List.forall_mem_nil _⟩
  case counting => exact fun tag children => countFrom_passesErrors 0 _
  case binding =>
    intro tag children
    unfold binding named
    dsimp only
    split
    · rintro (error | value)
      · trivial
      · exact ⟨fun _ => rfl, trivial⟩
    · exact ⟨fun _ => rfl, trivial⟩
  case shouting =>
    intro tag children
    unfold shouting named
    dsimp only
    split
    · rintro (error | _ | value)
      · trivial
      · exact ⟨fun _ => rfl, trivial⟩
      · exact fun nullText => ⟨fun _ => rfl, trivial⟩
    · trivial
  case locating => exact fun tag children names => ⟨fun _ => rfl, trivial⟩
  -- the others write and render nothing
  case defining | skipping | splitting | orphaned | ghostly | hushing =>
    exact fun tag children => trivial

end Provider

namespace Template

/-- The forests that a render may come to: that of the template, those of the
valid documents that a forest it may come to refers to, and those that providers
bring for its items. -/
inductive Reaches (template : Template) : List Item → Prop where
  | root : Reaches template template.document.items
  | reference {forest : List Item} {name : String} {span : Span} {document : Document}
      (hforest : Reaches template forest)
      (hreference : .reference name span ∈ Item.walkAll forest)
      (hdocument : template.options.partials name = some document)
      (hvalid : document.isValid = true) : Reaches template document.items
  | custom {forest brought : List Item} {tag : CustomTag} {children : List Item}
      {provider : Provider} (hforest : Reaches template forest)
      (hcustom : .custom tag children ∈ Item.walkAll forest)
      (hprovider : template.options.environment.provider? tag.provider = some provider)
      (hbrings : (provider.render tag children).Brings brought) : Reaches template brought

/-- An item of a forest that a render may come to. -/
def Holds (template : Template) (item : Item) : Prop :=
  ∃ forest, template.Reaches forest ∧ item ∈ Item.walkAll forest

theorem holds_items (template : Template) :
    ∀ inner ∈ Item.walkAll template.document.items, template.Holds inner :=
  fun _ hinner => ⟨template.document.items, .root, hinner⟩

theorem Holds.declaration {template : Template} {name : String} {body : List Item} {span : Span}
    (held : template.Holds (.declaration name body span)) :
    ∀ inner ∈ Item.walkAll body, template.Holds inner := by
  obtain ⟨forest, hforest, hmem⟩ := held
  intro inner hinner
  exact ⟨forest, hforest, Item.mem_walkAll_trans (List.mem_cons_of_mem _ hinner) forest hmem⟩

theorem Holds.reference {template : Template} {name : String} {span : Span} {document : Document}
    (held : template.Holds (.reference name span))
    (hdocument : template.options.partials name = some document)
    (hvalid : document.isValid = true) :
    ∀ inner ∈ Item.walkAll document.items, template.Holds inner := by
  obtain ⟨forest, hforest, hmem⟩ := held
  intro inner hinner
  exact ⟨document.items, .reference hforest hmem hdocument hvalid, hinner⟩

theorem Holds.custom {template : Template} {tag : CustomTag} {children forest : List Item}
    {provider : Provider} (held : template.Holds (.custom tag children))
    (hprovider : template.options.environment.provider? tag.provider = some provider)
    (hbrings : (provider.render tag children).Brings forest) :
    ∀ inner ∈ Item.walkAll forest, template.Holds inner := by
  obtain ⟨outer, houter, hmem⟩ := held
  intro inner hinner
  exact ⟨forest, .custom houter hmem hprovider hbrings, hinner⟩

/-- Errors end the recipe of every item of a provider that a render may come to. -/
def PassesErrors (template : Template) : Prop :=
  ∀ tag children, template.Holds (.custom tag children) → ∀ provider,
    template.options.environment.provider? tag.provider = some provider →
    (provider.render tag children).PassesErrors

/-- So it is if the template has no such items. -/
theorem passesErrors_of_builtin {template : Template}
    (h : ∀ tag children, ¬template.Holds (.custom tag children)) : template.PassesErrors :=
  fun tag children held => absurd held (h tag children)

/-- So it is if all its providers are stock providers. -/
theorem passesErrors_of_stock {template : Template}
    (h : template.options.providers ⊆ Provider.stock) : template.PassesErrors := by
  intro tag children _ provider hprovider
  exact Provider.stock_passesErrors provider (h (List.mem_of_find?_eq_some hprovider)) tag children

/-- What a render may do to partials: declare them as items that the template holds. -/
def declaring (template : Template) : Rules where
  event _ e := match e with
    | .declare _ body => ∀ inner ∈ Item.walkAll body, template.Holds inner
    | .poll | .write _ | .look .. | .cancel => True
  declared _ body := ∀ inner ∈ Item.walkAll body, template.Holds inner
  declares h := h

/-- The rules admit the items of the template where the store and the providers are
those of the template. -/
theorem admits_declaring {template : Template} (h : template.PassesErrors) {env : Environment}
    (hpartials : env.partials = template.options.partials)
    (hproviders : env.providers = template.options.providers) :
    template.declaring.Admits env template.Holds where
  quiet item e he := by
    cases e with
    | write | declare => cases he
    | poll | look | cancel => trivial
  literal _ := trivial
  output _ _ := trivial
  declaration held := held.declaration
  custom {tag children provider} held hprovider := by
    have hprovider : template.options.environment.provider? tag.provider = some provider := by
      rw [← hprovider, Environment.provider?, Environment.provider?, hproviders]
      rfl
    exact {
      passes := h tag children held provider hprovider
      brings := held.custom hprovider
      write := fun _ => trivial
      declare := fun _ _ hforest => hforest }
  declared hbody := hbody
  reference held hdocument hvalid := by
    rw [hpartials] at hdocument
    exact held.reference hdocument hvalid

end Template

end Stencil
