import Stencil.Document.Basic

/-!
The items inside an item of a forest are items of the forest.
-/

namespace Stencil.Item

mutual

theorem mem_walk_trans {inner item : Item} (h : inner ∈ item.walk) :
    (outer : Item) → item ∈ outer.walk → inner ∈ outer.walk
  | .literal _, hitem | .output .., hitem | .reference .., hitem => by
      obtain rfl := List.mem_singleton.mp hitem
      exact h
  | .block kind expression body otherwise span, hitem => by
      rcases List.mem_cons.mp hitem with rfl | hmem
      · exact h
      · apply List.mem_cons_of_mem
        rcases List.mem_append.mp hmem with hbody | hotherwise
        · exact List.mem_append_left _ (mem_walkAll_trans h body hbody)
        · exact List.mem_append_right _ (mem_walkAll_trans h otherwise hotherwise)
  | .declaration name body span, hitem => by
      rcases List.mem_cons.mp hitem with rfl | hmem
      · exact h
      · exact List.mem_cons_of_mem _ (mem_walkAll_trans h body hmem)
  | .custom tag children, hitem => by
      rcases List.mem_cons.mp hitem with rfl | hmem
      · exact h
      · exact List.mem_cons_of_mem _ (mem_walkAll_trans h children hmem)

theorem mem_walkAll_trans {inner item : Item} (h : inner ∈ item.walk) :
    (forest : List Item) → item ∈ walkAll forest → inner ∈ walkAll forest
  | first :: rest, hitem => by
      rcases List.mem_append.mp hitem with hfirst | hrest
      · exact List.mem_append_left _ (mem_walk_trans h first hfirst)
      · exact List.mem_append_right _ (mem_walkAll_trans h rest hrest)

end

end Stencil.Item
