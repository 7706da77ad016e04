import Stencil.Context
import Stencil.Proofs.Path.Segments

/-!
Addresses: where a value lies in a data tree. An address says which key of a map
or which item of a list to take at each step from the root, so that two equal
values in different places are told apart.
-/

namespace Stencil

/-- A step into a data tree. -/
inductive Hop where
  | key (name : String)
  /-- The entry of a map whose key is a number, chosen by that number. -/
  | entry (position : Nat)
  | item (position : Nat)
  deriving DecidableEq

/-- The steps from the root of a data tree to a node. -/
abbrev Address := List Hop

def Hop.isEntry : Hop → Bool
  | entry _ => true
  | key _ | item _ => false

/-- The key that a step chooses in a map; items of lists have none. -/
def Hop.key? : Hop → Option String
  | key name => some name
  | entry position => some (toString position)
  | item _ => none

/-- The keys of the maps on the way to a node. -/
def Address.keys (address : Address) : List String :=
  address.filterMap Hop.key?

/-- No position is used as a key of a map. -/
def Address.Indexes (address : Address) : Prop :=
  ∀ hop ∈ address, hop.isEntry = false

namespace Value

def hop? : Value → Hop → Option Value
  | map entries, .key name => entries.lookup name
  | map entries, .entry position => entries.lookup (toString position)
  | list items, .item position => items[position]?
  | _, _ => none

/-- The node of a data tree at an address. -/
def at? (data : Value) (address : Address) : Option Value :=
  address.foldlM hop? data

/-- The value is plain data: no object of the host is in it. -/
def IsTree (data : Value) : Prop :=
  ∀ address host, data.at? address ≠ some (.object host)

theorem at?_append (data : Value) (first second : Address) :
    data.at? (first ++ second) = (data.at? first).bind (·.at? second) := by
  rw [at?, List.foldlM_append]
  rfl

theorem at?_cons (data : Value) (hop : Hop) (address : Address) :
    data.at? (hop :: address) = (data.hop? hop).bind (·.at? address) := rfl

/-- The step that a segment makes from a value. -/
def hopOf? : Value → Segment → Option Hop
  | map _, .name name => some (.key name)
  | map _, .index position => some (.entry position)
  | list _, .name name => (Numeral.unsigned? name.toList).map .item
  | list _, .index position => some (.item position)
  | _, _ => none

/-- The steps that segments make from a value, as far as they lead to nodes. -/
def hopsOf? (value : Value) : List Segment → Option Address
  | [] => some []
  | .self :: segments => hopsOf? value segments
  | segment :: segments => do
      let hop ← value.hopOf? segment
      let next ← value.hop? hop
      return hop :: (← hopsOf? next segments)

end Value

namespace Value

variable {value next : Value} {segment : Segment} {segments : List Segment}

/-- A segment that is no `.` finds the node that its step leads to, apart from
members of objects. -/
theorem step?_eq (notSelf : segment ≠ .self) (fromResolver : Bool)
    (plain : ∀ host, value ≠ .object host) :
    (Found.mk value fromResolver).step? none segment =
      ((value.hopOf? segment).bind value.hop?).map (⟨·, false⟩) := by
  cases value with
  | object host => exact absurd rfl (plain host)
  | list items =>
      cases segment with
      | name text =>
          simp only [Found.step?, member?, hopOf?]
          cases Numeral.unsigned? text.toList <;> rfl
      | self => exact absurd rfl notSelf
      | index | parent | root => rfl
  | null | bool | int | float | string | map =>
      cases segment with
      | self => exact absurd rfl notSelf
      | name | index | parent | root => rfl

theorem not_object_of_hopOf? {hop : Hop} (h : value.hopOf? segment = some hop) :
    ∀ host, value ≠ .object host := by
  rintro host rfl
  cases segment <;> cases h

theorem hopsOf?_cons (notSelf : segment ≠ .self) {hops : Address} :
    value.hopsOf? (segment :: segments) = some hops ↔
      ∃ hop next rest, value.hopOf? segment = some hop ∧ value.hop? hop = some next ∧
        next.hopsOf? segments = some rest ∧ hops = hop :: rest := by
  rw [hopsOf?]
  · simp only [Option.bind_eq_bind, Option.bind_eq_some_iff, Option.pure_def,
      Option.some.injEq]
    constructor
    · rintro ⟨hop, hhop, next, hnext, rest, hrest, rfl⟩
      exact ⟨hop, next, rest, hhop, hnext, hrest, rfl⟩
    · rintro ⟨hop, next, rest, hhop, hnext, hrest, rfl⟩
      exact ⟨hop, hhop, next, hnext, rest, hrest, rfl⟩
  · exact notSelf

/-- The first of the segments that lead to a node finds something. -/
theorem step?_of_hopsOf? {hops : Address} (fromResolver : Bool)
    (h : value.hopsOf? (segment :: segments) = some hops) :
    ∃ found, (Found.mk value fromResolver).step? none segment = some found := by
  by_cases hself : segment = .self
  · subst hself
    exact ⟨_, rfl⟩
  · obtain ⟨hop, next, rest, hhop, hnext, -, -⟩ := (hopsOf?_cons hself).mp h
    refine ⟨⟨next, false⟩, ?_⟩
    rw [step?_eq hself fromResolver (not_object_of_hopOf? hhop), hhop, Option.bind_some, hnext]
    rfl

/-- Segments that lead to a node find it. -/
theorem follow?_of_hopsOf? {hops : Address} (fromResolver : Bool)
    (h : value.hopsOf? segments = some hops) :
    ∃ found, (Found.mk value fromResolver).follow? none segments = some found ∧
      value.at? hops = some found.value := by
  induction segments generalizing value hops fromResolver with
  | nil =>
      cases h
      exact ⟨_, rfl, rfl⟩
  | cons segment segments ih =>
      by_cases hself : segment = .self
      · subst hself
        exact ih fromResolver h
      · obtain ⟨hop, next, rest, hhop, hnext, hrest, rfl⟩ := (hopsOf?_cons hself).mp h
        have hstep : (Found.mk value fromResolver).step? none segment = some ⟨next, false⟩ := by
          rw [step?_eq hself fromResolver (not_object_of_hopOf? hhop), hhop, Option.bind_some,
            hnext]
          rfl
        rw [Found.follow?, List.foldlM_cons, hstep, at?_cons, hnext]
        exact ih false hrest

theorem IsTree.not_object (h : value.IsTree) : ∀ host, value ≠ .object host := by
  rintro host rfl
  exact h [] host rfl

theorem IsTree.at? {data : Value} (h : data.IsTree) {address : Address}
    (hnode : data.at? address = some value) : value.IsTree := by
  intro more host hobject
  apply h (address ++ more) host
  rw [at?_append, hnode, Option.bind_some, hobject]

theorem IsTree.hop? (h : value.IsTree) {hop : Hop} (hnext : value.hop? hop = some next) :
    next.IsTree := by
  have hnode : value.at? [hop] = some next := by
    rw [at?_cons, hnext]
    rfl
  exact h.at? hnode

/-- A value that is no object is plain data if the values in it are. -/
theorem isTree_of_hop? (plain : ∀ host, value ≠ .object host)
    (h : ∀ hop next, value.hop? hop = some next → next.IsTree) : value.IsTree := by
  intro address host hobject
  cases address with
  | nil => exact plain host (Option.some.inj hobject)
  | cons hop address =>
      rw [at?_cons] at hobject
      obtain ⟨next, hnext, hrest⟩ := Option.bind_eq_some_iff.mp hobject
      exact h hop next hnext address host hrest

theorem isTree_map {entries : List (String × Value)}
    (h : ∀ entry ∈ entries, entry.2.IsTree) : (map entries).IsTree := by
  have hlookup (key : String) (next : Value) (hnext : entries.lookup key = some next) :
      next.IsTree := by
    obtain ⟨before, after, rfl, -⟩ := List.lookup_eq_some_iff.mp hnext
    exact h (key, next) (List.mem_append_right _ (List.mem_cons_self ..))
  apply isTree_of_hop?
  · exact nofun
  · intro hop next hnext
    cases hop with
    | key name => exact hlookup name next hnext
    | entry position => exact hlookup (toString position) next hnext
    | item position => cases hnext

theorem isTree_list {items : List Value} (h : ∀ item ∈ items, item.IsTree) :
    (list items).IsTree := by
  apply isTree_of_hop?
  · exact nofun
  · intro hop next hnext
    cases hop with
    | key | entry => cases hnext
    | item position => exact h next (List.mem_of_getElem? hnext)

theorem isTree_int (i : Int64) : (int i).IsTree := by
  apply isTree_of_hop?
  · exact nofun
  · intro hop next hnext
    cases hop <;> cases hnext

/-- In plain data, what segments find is a node that they lead to. -/
theorem exists_hopsOf? (htree : value.IsTree) {found : Found} (fromResolver : Bool)
    (h : (Found.mk value fromResolver).follow? none segments = some found) :
    ∃ hops, value.hopsOf? segments = some hops := by
  induction segments generalizing value fromResolver with
  | nil => exact ⟨[], rfl⟩
  | cons segment segments ih =>
      rw [Found.follow?, List.foldlM_cons] at h
      by_cases hself : segment = .self
      · subst hself
        exact ih htree fromResolver h
      · rw [step?_eq hself fromResolver htree.not_object] at h
        obtain ⟨middle, hmiddle, hrest⟩ := Option.bind_eq_some_iff.mp h
        obtain ⟨next, hstep, rfl⟩ := Option.map_eq_some_iff.mp hmiddle
        obtain ⟨hop, hhop, hnext⟩ := Option.bind_eq_some_iff.mp hstep
        obtain ⟨rest, hhops⟩ := ih (htree.hop? hnext) false hrest
        exact ⟨hop :: rest, (hopsOf?_cons hself).mpr ⟨hop, next, rest, hhop, hnext, hhops, rfl⟩⟩

/-- A name that is no position chooses itself as a key. -/
theorem hopOf?_name {text : String} {hop : Hop} (h : value.hopOf? (.name text) = some hop)
    (notPosition : Numeral.unsigned? text.toList = none) : hop = .key text := by
  cases value with
  | map entries => exact (Option.some.inj h).symm
  | list items =>
      rw [hopOf?, notPosition] at h
      cases h
  | null | bool | int | float | string | object => cases h

/-- A position that is not used as a key chooses an item. -/
theorem hopOf?_index {position : Nat} {hop : Hop}
    (h : value.hopOf? (.index position) = some hop) (notEntry : hop.isEntry = false) :
    hop = .item position := by
  cases value with
  | map entries =>
      obtain rfl := Option.some.inj h
      cases notEntry
  | list items => exact (Option.some.inj h).symm
  | null | bool | int | float | string | object => cases h

/-- The keys on the way that segments lead are their names, if no position is used
as a key and no name as a position. -/
theorem keys_of_hopsOf? {hops : Address} (h : value.hopsOf? segments = some hops)
    (hnames : Segment.AreNames segments) (hindexes : hops.Indexes) :
    hops.keys = Segment.names segments := by
  induction segments generalizing value hops with
  | nil =>
      cases h
      rfl
  | cons segment segments ih =>
      by_cases hself : segment = .self
      · subst hself
        exact ih h hnames hindexes
      · obtain ⟨hop, next, rest, hhop, hnext, hrest, rfl⟩ := (hopsOf?_cons hself).mp h
        obtain ⟨hentry, hindexes⟩ := List.forall_mem_cons.mp hindexes
        cases segment with
        | name text =>
            obtain ⟨htext, hnames⟩ := List.forall_mem_cons.mp hnames
            rw [hopOf?_name hhop htext]
            exact congrArg (text :: ·) (ih hrest hnames hindexes)
        | index position =>
            rw [hopOf?_index hhop hentry]
            have hkeys := ih hrest hnames hindexes
            exact hkeys
        | self => exact absurd rfl hself
        | parent | root => cases value <;> cases hhop

end Value

end Stencil
