import Stencil.Render.Items

/-!
The scripts of items are put together from parts: an item is rendered the same wherever
it stands among others, and an item of a provider as its recipe says, with the items that
the recipe selects.
-/

namespace Stencil

/-- What is selected are children, or it was made. -/
theorem Selection.items_subset_or_made (selection : Selection) (children : List Item) :
    selection.items children ⊆ children ∨ ∃ forest, selection = .made forest := by
  cases selection with
  | children => exact .inl (List.Subset.refl _)
  | those positions =>
      refine .inl fun item hitem => ?_
      obtain ⟨position, -, hposition⟩ := List.mem_filterMap.mp hitem
      exact List.mem_of_getElem? hposition
  | made forest => exact .inr ⟨forest, rfl⟩

namespace Script

variable {env : Environment} {enter : String → Body} {custom custom' : CustomTag → List Part → Body}

theorem partsWith_eq_map (forest : List Item) :
    partsWith env enter custom forest =
      forest.map fun rendered => ⟨rendered, itemWith env enter custom rendered⟩ := by
  induction forest with
  | nil => rfl
  | cons first rest ih => rw [partsWith, ih, List.map_cons]

theorem items_eq_map (forest : List Item) :
    items env enter forest =
      inOrder (forest.map fun rendered => ⟨rendered, item env enter rendered⟩) := by
  rw [items, partsWith_eq_map]
  rfl

theorem items_nil (ctx : Context) : items env enter [] ctx = .done := rfl

theorem items_cons (first : Item) (rest : List Item) (ctx : Context) :
    items env enter (first :: rest) ctx =
      .event .poll fun _ =>
        .inside (.item first) (item env enter first ctx) fun _ => items env enter rest ctx := rfl

theorem item_block (kind : SectionKind) (expression : Expression) (body otherwise : List Item)
    (span : Span) (ctx : Context) :
    item env enter (.block kind expression body otherwise span) ctx =
      block env kind expression (items env enter body) (items env enter otherwise) ctx := rfl

mutual

/-- How providers render makes no difference to items without one. -/
theorem itemWith_of_builtin (custom custom' : CustomTag → List Part → Body) :
    (rendered : Item) → (∀ tag children, .custom tag children ∉ rendered.walk) →
      itemWith env enter custom rendered = itemWith env enter custom' rendered
  | .literal text, _ | .output expression escape span, _ | .reference name span, _
  | .declaration name body span, _ => by
      funext ctx
      rfl
  | .block kind expression body otherwise span, hbuiltin => by
      have hbody := partsWith_of_builtin custom custom' body fun tag children hmem =>
        hbuiltin tag children (List.mem_cons_of_mem _ (List.mem_append_left _ hmem))
      have hother := partsWith_of_builtin custom custom' otherwise fun tag children hmem =>
        hbuiltin tag children (List.mem_cons_of_mem _ (List.mem_append_right _ hmem))
      funext ctx
      rw [itemWith, itemWith, hbody, hother]
  | .custom tag children, hbuiltin => absurd (List.mem_cons_self ..) (hbuiltin tag children)

theorem partsWith_of_builtin (custom custom' : CustomTag → List Part → Body) :
    (forest : List Item) → (∀ tag children, .custom tag children ∉ Item.walkAll forest) →
      partsWith env enter custom forest = partsWith env enter custom' forest
  | [], _ => rfl
  | first :: rest, hbuiltin => by
      have hfirst := itemWith_of_builtin custom custom' first fun tag children hmem =>
        hbuiltin tag children (List.mem_append_left _ hmem)
      have hrest := partsWith_of_builtin custom custom' rest fun tag children hmem =>
        hbuiltin tag children (List.mem_append_right _ hmem)
      rw [partsWith, partsWith, hfirst, hrest]

end

/-- What a recipe selects is rendered as those items are. -/
theorem inOrder_selected (children : List Item) (selection : Selection) :
    inOrder (selected env enter (partsWith env enter (Script.custom env enter) children)
      selection) = items env enter (selection.items children) := by
  cases selection with
  | children => rfl
  | those positions =>
      rw [items, selected, Selection.items, partsWith_eq_map, partsWith_eq_map,
        List.map_filterMap]
      simp only [List.getElem?_map]
  | made forest =>
      rw [items, selected, Selection.items, partsWith_of_builtin _ _ _ forest.builtin]

/-- An item of a provider is rendered with its children as they are rendered. -/
theorem custom_map (tag : CustomTag) (children : List Item) (ctx : Context) :
    Script.custom env enter tag (children.map fun inner => ⟨inner, item env enter inner⟩) ctx =
      item env enter (.custom tag children) ctx := by
  have hparts : partsWith env enter (Script.custom env enter) children =
      children.map fun inner => ⟨inner, item env enter inner⟩ := partsWith_eq_map children
  rw [← hparts]
  rfl

/-- An item of a provider is rendered by its recipe. -/
theorem item_custom (tag : CustomTag) (children : List Item) (ctx : Context) :
    item env enter (.custom tag children) ctx =
      match env.provider? tag.provider with
      | some provider =>
          ofRecipe env (fun selection => items env enter (selection.items children)) ctx
            (provider.render tag children)
      | none => .done := by
  have hchildren : (partsWith env enter (Script.custom env enter) children).map Part.item =
      children := by
    rw [partsWith_eq_map, List.map_map]
    exact List.map_id children
  cases hprovider : env.provider? tag.provider with
  | none => simp only [item, itemWith, Script.custom, hprovider]
  | some provider =>
      simp only [item, itemWith, Script.custom, hprovider, hchildren, inOrder_selected]

end Script

end Stencil
