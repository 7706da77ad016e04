import Stencil.Proofs.KeyMap.Order
import Stencil.Proofs.Number.Decimal
import Stencil.Value.Text

/-!
Plain data survives the way to JSON and back. The two conversions are inverse at every level
of nesting, so that integers stay integers, doubles without a fraction stay doubles and zeros
keep their sign. An object of the host comes back as its text, and a number that is not finite
as null; apart from these nothing is lost.
-/

namespace Stencil.Value

mutual

/-- Data without objects of the host and with finite numbers only, at any depth. -/
def IsPlain : Value → Prop
  | null | bool _ | int _ | string _ => True
  | float x => ∃ negative code, x = .finite negative code
  | list items => ArePlain items
  | map entries => HoldPlain entries
  | object _ => False

def ArePlain : List Value → Prop
  | [] => True
  | item :: items => item.IsPlain ∧ ArePlain items

def HoldPlain : List (String × Value) → Prop
  | [] => True
  | (_, value) :: entries => value.IsPlain ∧ HoldPlain entries

end

theorem ofJson_toJson_float_iff (x : Binary64) :
    ofJson (float x).toJson = float x ↔ (float x).IsPlain := by
  cases x with
  | finite negative code => exact ⟨fun _ => ⟨negative, code, rfl⟩, fun _ => rfl⟩
  | nan => simp [toJson, ofJson, IsPlain]
  | infinite negative => simp [toJson, ofJson, IsPlain]

mutual

/-- A value comes back from JSON exactly if it is plain data. -/
theorem ofJson_toJson_iff : (value : Value) → (ofJson value.toJson = value ↔ value.IsPlain)
  | null | bool _ | string _ => by simp [toJson, ofJson, IsPlain]
  | int i => by simp [toJson, ofJson, IsPlain, Numeral.inRange?_toInt]
  | float x => ofJson_toJson_float_iff x
  | list items => by
      rw [toJson, ofJson, IsPlain, list.injEq]
      exact itemsOfJson_itemsToJson_iff items
  | map entries => by
      rw [toJson, ofJson, IsPlain, map.injEq]
      exact entriesOfJson_entriesToJson_iff entries
  | object host => by simp [toJson, ofJson, IsPlain]

theorem itemsOfJson_itemsToJson_iff :
    (items : List Value) → (itemsOfJson (itemsToJson items) = items ↔ ArePlain items)
  | [] => by simp [itemsToJson, itemsOfJson, ArePlain]
  | item :: items => by
      rw [itemsToJson, itemsOfJson, ArePlain, List.cons.injEq, ofJson_toJson_iff item,
        itemsOfJson_itemsToJson_iff items]

theorem entriesOfJson_entriesToJson_iff :
    (entries : List (String × Value)) →
      (entriesOfJson (entriesToJson entries) = entries ↔ HoldPlain entries)
  | [] => by simp [entriesToJson, entriesOfJson, HoldPlain]
  | (key, value) :: entries => by
      rw [entriesToJson, entriesOfJson, HoldPlain, List.cons.injEq, Prod.mk.injEq,
        ofJson_toJson_iff value, entriesOfJson_entriesToJson_iff entries, eq_self, true_and]

end

theorem map_fst_entriesToJson (entries : List (String × Value)) :
    (entriesToJson entries).map Prod.fst = entries.map Prod.fst := by
  induction entries with
  | nil => rfl
  | cons entry entries ih =>
      rw [entriesToJson, List.map_cons, List.map_cons, ih]

theorem map_fst_entriesOfJson (members : List (String × Json)) :
    (entriesOfJson members).map Prod.fst = members.map Prod.fst := by
  induction members with
  | nil => rfl
  | cons member members ih =>
      rw [entriesOfJson, List.map_cons, List.map_cons, ih]

/-- Plain data survives JSON: a value comes back from it as it was, at every level the same
kind of value, if and only if it holds no object of the host and no number that is not finite.
A map in the order of its keys becomes the object that its entries are collected into, and
the members of this are collected into a map again, without one entry taking the place of
another. -/
theorem plain_data_survives_json (value : Value) :
    (ofJson value.toJson = value ↔ value.IsPlain) ∧
    ∀ entries, KeyMap.IsSorted entries →
      (map entries).toJson = .ofMembers (entriesToJson entries) ∧
      ofJson (map entries).toJson =
        map (KeyMap.ofList (entriesOfJson (entriesToJson entries))) := by
  refine ⟨ofJson_toJson_iff value, ?_⟩
  intro entries hsorted
  have hmembers : KeyMap.IsSorted (entriesToJson entries) :=
    hsorted.of_keys (map_fst_entriesToJson entries).symm
  have hback : KeyMap.IsSorted (entriesOfJson (entriesToJson entries)) :=
    hmembers.of_keys (map_fst_entriesOfJson _).symm
  constructor
  · rw [Json.ofMembers, hmembers.ofList_eq, toJson]
  · rw [hback.ofList_eq, toJson, ofJson]

/-- A map whose list holds an integer that no double is, and a negative zero. -/
theorem nested_numbers_survive_json :
    KeyMap.IsSorted [("a", list [int 9007199254740993, float (.zero true)]), ("b", map [])] ∧
      let entries := [("a", list [int 9007199254740993, float (.zero true)]), ("b", map [])]
      ofJson (map entries).toJson = map entries ∧
        (map entries).toJson = .ofMembers (entriesToJson entries) := by
  have hsorted : KeyMap.IsSorted
      [("a", list [int 9007199254740993, float (.zero true)]), ("b", map [])] := by
    have hless : "a" < "b" := by decide
    exact List.pairwise_pair.mpr hless
  have hplain : (map [("a", list [int 9007199254740993, float (.zero true)]),
      ("b", map [])]).IsPlain :=
    ⟨⟨trivial, ⟨true, _, rfl⟩, trivial⟩, trivial, trivial⟩
  exact ⟨hsorted, (plain_data_survives_json _).1.mpr hplain,
    ((plain_data_survives_json null).2 _ hsorted).1⟩

end Stencil.Value
