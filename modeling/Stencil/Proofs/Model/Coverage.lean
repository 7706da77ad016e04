import Stencil.Proofs.Document.Paths
import Stencil.Proofs.Model.Insertion
import Stencil.Proofs.Render.Readings

/-!
The model of a template covers what a render reads. The inference walks the
template with the places of the enclosing scopes as the render walks it with the
scopes. The places stay in step with the scopes up to the innermost section on a
path that the inference does not follow, and the keys of a place are those of
the node that its scope is.
-/

namespace Stencil

open Model (Step Places keysOf)

/-- The keys of the place are those of the node that the scope is known to be. -/
def Spot.IsAt (spot : Spot) (place : List Step) : Prop :=
  ∀ address, spot.node = some address → address.Indexes → keysOf place = address.keys

/-- Places in step with scopes, innermost first, up to a scope that is not plain;
beyond it only the outermost scope has its place. -/
inductive Aligned : List Spot → Places → Prop where
  | root {spot : Spot} {place : List Step} (isAt : spot.IsAt place) : Aligned [spot] [place]
  | inside {spot : Spot} {place : List Step} {spots : List Spot} {places : Places}
      (isAt : spot.IsAt place) (outer : Aligned spots places) :
      Aligned (spot :: spots) (place :: places)
  | beyond {spot : Spot} {spots : List Spot} {places : Places} (notPlain : spot.isPlain = false)
      (unknown : spot.node = none) (nonempty : places ≠ [])
      (outermost : (spots.getLastD spot).IsAt (places.getLastD [])) :
      Aligned (spot :: spots) places

namespace Aligned

variable {spots : List Spot} {places : Places}

theorem nonempty (h : Aligned spots places) : places ≠ [] := by
  cases h with
  | root | inside => exact List.cons_ne_nil _ _
  | beyond _ _ nonempty _ => exact nonempty

/-- Another place in front leaves the outermost one. -/
theorem getLastD_cons_of_ne_nil (nonempty : places ≠ []) (place : List Step) :
    (place :: places).getLastD [] = places.getLastD [] := by
  cases places with
  | nil => exact absurd rfl nonempty
  | cons next places => rw [List.getLastD_cons, List.getLastD_cons, List.getLastD_cons]

theorem outermost (h : Aligned spots places) (spot : Spot) :
    (spots.getLastD spot).IsAt (places.getLastD []) := by
  induction h generalizing spot with
  | root isAt => exact isAt
  | @inside here place spots places isAt outer ih =>
      rw [List.getLastD_cons, getLastD_cons_of_ne_nil outer.nonempty]
      exact ih here
  | beyond _ _ _ outermost =>
      rw [List.getLastD_cons]
      exact outermost

/-- Leaving plain scopes leaves as many places. -/
theorem leave (h : Aligned spots places) {segments rest : List Segment} {start : Spot}
    (hclimb : Spot.climb? spots segments = some (start, rest)) :
    ∃ place outer, Model.leave segments places = (rest, place :: outer) ∧ start.IsAt place := by
  fun_induction Spot.climb? spots segments generalizing places with
  | case1 => cases hclimb
  | case2 spot spots segments isPlain ih =>
      cases h with
      | root isAt => cases hclimb
      | @inside _ place _ places isAt outer =>
          obtain ⟨place', outer', hleave, hstart⟩ := ih outer hclimb
          exact ⟨place', outer', hleave, hstart⟩
      | beyond notPlain _ _ _ =>
          rw [isPlain] at notPlain
          cases notPlain
  | case3 => cases hclimb
  | case4 spot spots segments notParent =>
      obtain ⟨rfl, rfl⟩ := Prod.mk.inj (Option.some.inj hclimb)
      obtain ⟨place, outer, rfl⟩ := List.exists_cons_of_ne_nil h.nonempty
      refine ⟨place, outer, ?_, ?_⟩
      · rw [Model.leave]
        exact notParent
      · cases h with
        | root isAt | inside isAt _ => exact isAt
        | beyond _ unknown _ _ =>
            intro address haddress
            rw [unknown] at haddress
            cases haddress

end Aligned

/-- The inference follows a path without dollar signs from the place of the scope that
it starts from. -/
theorem stepsOf_of_start? {view : View} {places : Places} (h : Aligned view.spots places)
    {path : Path} {start : Spot} {rest : List Segment} (nonempty : path.segments ≠ [])
    (hstart : view.start? path = some (start, rest)) :
    ∃ place, Model.stepsOf places path = Model.follow place rest ∧ start.IsAt place := by
  unfold View.start? at hstart
  unfold Model.stepsOf
  split at hstart
  · rename_i hroot
    obtain ⟨rfl, rfl⟩ := Prod.mk.inj (Option.some.inj hstart)
    rw [hroot]
    refine ⟨_, rfl, ?_⟩
    have houtermost := h.outermost view.here
    rw [View.spots, List.getLastD_cons] at houtermost
    exact houtermost
  · rename_i hanchor
    obtain ⟨place, outer, hleave, hplace⟩ := h.leave hstart
    refine ⟨place, ?_, hplace⟩
    split
    · rename_i hnil
      exact absurd hnil nonempty
    · rename_i hroot
      exact absurd hroot (hanchor _)
    · rw [hleave]
      rfl

theorem keysOf_append (first second : List Step) :
    keysOf (first ++ second) = keysOf first ++ keysOf second :=
  List.filterMap_append

/-- Segments without dollar signs are followed to the keys of their names. -/
theorem follow_names {segments : List Segment} (place : List Step)
    (h : ∀ name ∈ Segment.names segments, name.toList.head? ≠ some '$') :
    ∃ steps, Model.follow place segments = some steps ∧
      keysOf steps = keysOf place ++ Segment.names segments := by
  induction segments generalizing place with
  | nil => exact ⟨place, rfl, (List.append_nil _).symm⟩
  | cons segment segments ih =>
      cases segment with
      | name text =>
          obtain ⟨hname, hnames⟩ := List.forall_mem_cons.mp h
          obtain ⟨steps, hsteps, hkeys⟩ := ih (place ++ [.key text]) hnames
          refine ⟨steps, ?_, ?_⟩
          · rw [Model.follow, if_neg hname, hsteps]
          · rw [hkeys, keysOf_append, List.append_assoc]
            rfl
      | index position =>
          obtain ⟨steps, hsteps, hkeys⟩ := ih (place ++ [.element]) h
          refine ⟨steps, hsteps, ?_⟩
          rw [hkeys, keysOf_append, List.append_assoc]
          rfl
      | self | parent | root => exact ih place h

theorem keys_append (first second : Address) :
    Address.keys (first ++ second) = first.keys ++ second.keys :=
  List.filterMap_append

/-- The inference follows a plain path, and to the keys of the node that it leads to. -/
theorem stepsOf_of_isPlain {view : View} {places : Places} (h : Aligned view.spots places)
    {path : Path} (hpath : path.IsRead) (isPlain : view.isPlain path = true) :
    ∃ steps, Model.stepsOf places path = some steps ∧
      ∀ address, view.node? path = some address → address.Indexes →
        keysOf steps = address.keys := by
  obtain ⟨hdollar, hstarts⟩ := Bool.and_eq_true_iff.mp isPlain
  obtain ⟨⟨start, rest⟩, hstart⟩ := Option.isSome_iff_exists.mp hstarts
  obtain ⟨-, hsuffix, -⟩ := View.start?_context hstart
  have hform := hpath.wellFormed
  have hnames : Segment.names rest ⊆ Segment.names path.segments :=
    (hsuffix.sublist.filterMap _).subset
  obtain ⟨place, hsteps, hplace⟩ := stepsOf_of_start? h hform.nonempty hstart
  obtain ⟨steps, hfollow, hkeys⟩ := follow_names place (by
    intro name hname
    simpa using List.all_eq_true.mp hdollar name (hnames hname))
  refine ⟨steps, hsteps.trans hfollow, ?_⟩
  intro address haddress hindexes
  simp only [View.node?, hdollar, if_true, hstart, Option.bind_eq_bind, Option.bind_some,
    Option.bind_eq_some_iff, Option.pure_def, Option.some.injEq] at haddress
  obtain ⟨value, -, hops, hhops, known, hknown, rfl⟩ := haddress
  obtain ⟨hbefore, hafter⟩ := List.forall_mem_append.mp hindexes
  rw [hkeys, keys_append, hplace known hknown hbefore,
    Value.keys_of_hopsOf? hhops (fun name hname => hform.names name (hnames hname)) hafter]

/-- A path that leads to a node is plain. -/
theorem isPlain_of_node? {view : View} {path : Path} {address : Address}
    (h : view.node? path = some address) : view.isPlain path = true := by
  unfold View.node? at h
  split at h
  · rename_i hdollar
    obtain ⟨start, hstart, -⟩ := Option.bind_eq_some_iff.mp h
    rw [View.isPlain, hdollar, hstart]
    rfl
  · cases h

/-- A section pushes at most one place. -/
theorem bodyPlaces_cases (kind : SectionKind) (places : Places) (path : Path) :
    Model.bodyPlaces kind places path = places ∨
      ∃ place, Model.bodyPlaces kind places path = place :: places := by
  unfold Model.bodyPlaces
  split
  · exact Or.inr ⟨_, rfl⟩
  · exact Or.inr ⟨_, rfl⟩
  · exact Or.inr ⟨_, rfl⟩
  · exact Or.inl rfl

/-- Where the inference follows the path of a section that is no conditional, it pushes a
place with the keys of the path. -/
theorem bodyPlaces_of_stepsOf {kind : SectionKind} {places : Places} {path : Path}
    {steps : List Step} (enters : kind = .each ∨ kind = .within ∨ kind = .plain)
    (hsteps : Model.stepsOf places path = some steps) :
    ∃ place, Model.bodyPlaces kind places path = place :: places ∧
      keysOf place = keysOf steps := by
  rcases enters with rfl | rfl | rfl
  · refine ⟨steps ++ [.element], ?_, ?_⟩
    · simp only [Model.bodyPlaces, hsteps]
    · rw [keysOf_append]
      exact List.append_nil _
  · exact ⟨steps, by simp only [Model.bodyPlaces, hsteps], rfl⟩
  · exact ⟨steps, by simp only [Model.bodyPlaces, hsteps], rfl⟩

/-- The inference enters a scope in step with the render. -/
theorem Aligned.enter {view : View} {places : Places} (h : Aligned view.spots places)
    {kind : SectionKind} {path : Path} (hpath : path.IsRead)
    (enters : kind = .each ∨ kind = .within ∨ kind = .plain) {spot : Spot}
    (hplain : spot.isPlain = view.isPlain path)
    (hnode : ∀ address, spot.node = some address → ∃ known,
      view.node? path = some known ∧ known.keys = address.keys ∧
        (address.Indexes → known.Indexes)) :
    Aligned (view.enter spot).spots (Model.bodyPlaces kind places path) := by
  cases isPlain : view.isPlain path with
  | true =>
      obtain ⟨steps, hsteps, hkeys⟩ := stepsOf_of_isPlain h hpath isPlain
      obtain ⟨place, hplaces, hplace⟩ := bodyPlaces_of_stepsOf enters hsteps
      rw [hplaces]
      refine .inside ?_ h
      intro address haddress hindexes
      obtain ⟨known, hknown, hsame, hmore⟩ := hnode address haddress
      rw [hplace, hkeys known hknown (hmore hindexes), hsame]
  | false =>
      have hunknown : spot.node = none := by
        rw [Option.eq_none_iff_forall_ne_some]
        intro address haddress
        obtain ⟨known, hknown, -⟩ := hnode address haddress
        rw [isPlain_of_node? hknown] at isPlain
        cases isPlain
      have houtermost := h.outermost spot
      rcases bodyPlaces_cases kind places path with hplaces | ⟨place, hplaces⟩
      · rw [hplaces]
        exact .beyond (hplain.trans isPlain) hunknown h.nonempty houtermost
      · rw [hplaces]
        refine .beyond (hplain.trans isPlain) hunknown (List.cons_ne_nil _ _) ?_
        rw [getLastD_cons_of_ne_nil h.nonempty]
        exact houtermost

/-- The inference is in step with the render inside a section. -/
theorem Aligned.branch {view inner : View} {places : Places} (h : Aligned view.spots places)
    {kind : SectionKind} {path : Path} (hpath : path.IsRead)
    (hinside : view.Inside kind path inner) :
    Aligned inner.spots (Model.bodyPlaces kind places path) := by
  cases hinside with
  | same conditional =>
      have hplaces : Model.bodyPlaces kind places path = places := by
        rcases conditional with rfl | rfl <;> rfl
      rw [hplaces]
      exact h
  | whole enters found entered =>
      refine h.enter hpath enters rfl ?_
      intro address haddress
      exact ⟨address, haddress, rfl, id⟩
  | element iterates found isItem entered =>
      refine h.enter hpath (iterates.imp id Or.inr) rfl ?_
      intro address haddress
      unfold View.elementNode? at haddress
      split at haddress
      · obtain ⟨known, hknown, rfl⟩ := Option.map_eq_some_iff.mp haddress
        refine ⟨known, hknown, ?_, ?_⟩
        · rw [keys_append]
          exact (List.append_nil _).symm
        · intro hindexes
          exact (List.forall_mem_append.mp hindexes).1
      · cases haddress

/-- The reading is made in scopes that are what they are known to be, and the inference
has recorded it there. -/
structure Reading.Recorded (data : Value) (reads : List (List Step)) (reading : Reading)
    (places : Places) : Prop where
  sound : reading.view.IsSound data
  aligned : Aligned reading.view.spots places
  isRead : reading.path.IsRead
  recorded : ∀ steps, Model.stepsOf places reading.path = some steps → steps ∈ reads

theorem Reading.Recorded.mono {data : Value} {reads more : List (List Step)} {reading : Reading}
    {places : Places} (h : reading.Recorded data reads places) (hmore : reads ⊆ more) :
    reading.Recorded data more places :=
  { h with recorded := fun steps hsteps => hmore (h.recorded steps hsteps) }

/-- What an expression without formatters reads is recorded. -/
theorem Reading.recorded_self {data : Value} {view : View} {places : Places}
    (hsound : view.IsSound data) (h : Aligned view.spots places) {expression : Expression}
    (bare : expression.calls = []) (hpath : expression.path.IsRead) (expected : Expectation) :
    Reading.Recorded data (Model.readsOf places expression) ⟨view, expression.path, expected⟩
      places := by
  refine ⟨hsound, h, hpath, ?_⟩
  intro steps hsteps
  obtain ⟨path, calls, span⟩ := expression
  subst bare
  rw [Model.readsOf, Model.readsOfCalls, List.nil_append]
  exact Option.mem_toList.mpr hsteps

namespace Item

variable {data : Value}

mutual

/-- The inference records the readings of an item. -/
theorem recorded_item : (item : Item) → (∀ inner ∈ item.walk, inner.IsBasic) →
    (∀ inner ∈ item.walk, inner.IsRead) → (view : View) → (places : Places) →
    view.IsSound data → Aligned view.spots places →
    ∀ reading ∈ item.readings view, ∃ places', reading.Recorded data
      (Model.readsOfItem places item) places'
  | .literal text, _, _, view, places, _, _ => by
      intro reading hreading
      cases hreading
  | .output expression escape span, hbasic, hread, view, places, hsound, h => by
      have hbare := (List.forall_mem_cons.mp hbasic).1
      have hpath := (List.forall_mem_cons.mp hread).1
      intro reading hreading
      obtain rfl := List.mem_singleton.mp hreading
      exact ⟨places, Reading.recorded_self hsound h hbare hpath .value⟩
  | .block kind expression body otherwise span, hbasic, hread, view, places, hsound, h => by
      obtain ⟨hbare, hbasic⟩ := List.forall_mem_cons.mp hbasic
      obtain ⟨hpath, hread⟩ := List.forall_mem_cons.mp hread
      obtain ⟨hbody, hotherwise⟩ := List.forall_mem_append.mp hbasic
      obtain ⟨hreadBody, hreadOther⟩ := List.forall_mem_append.mp hread
      intro reading hreading
      rw [readings] at hreading
      rw [Model.readsOfItem]
      rcases List.mem_cons.mp hreading with rfl | hbranch
      · refine ⟨places, (Reading.recorded_self hsound h hbare hpath _).mono ?_⟩
        intro steps hsteps
        simp [hsteps]
      · cases hviews : view.branch kind expression.path with
        | none =>
            rw [hviews] at hbranch
            obtain ⟨places', hrecorded⟩ := recorded_items otherwise hotherwise hreadOther
              view places hsound h reading hbranch
            exact ⟨places', hrecorded.mono (List.subset_append_right _ _)⟩
        | some views =>
            rw [hviews] at hbranch
            obtain ⟨inner, hmem, hreading⟩ := List.mem_flatMap.mp hbranch
            have hinside := View.inside_branch hviews inner hmem
            obtain ⟨places', hrecorded⟩ := recorded_items body hbody hreadBody inner _
              (hinside.isSound hsound hpath) (h.branch hpath hinside) reading hreading
            refine ⟨places', hrecorded.mono ?_⟩
            intro steps hsteps
            simp [hsteps]
  | .reference name span, hbasic, _, _, _, _, _ => by
      cases (List.forall_mem_cons.mp hbasic).1
  | .declaration name body span, hbasic, _, _, _, _, _ => by
      cases (List.forall_mem_cons.mp hbasic).1
  | .custom tag children, hbasic, _, _, _, _, _ => by
      cases (List.forall_mem_cons.mp hbasic).1

theorem recorded_items : (items : List Item) → (∀ inner ∈ walkAll items, inner.IsBasic) →
    (∀ inner ∈ walkAll items, inner.IsRead) → (view : View) → (places : Places) →
    view.IsSound data → Aligned view.spots places →
    ∀ reading ∈ readingsAll items view, ∃ places', reading.Recorded data
      (Model.readsOfItems places items) places'
  | [], _, _, view, places, _, _ => by
      intro reading hreading
      cases hreading
  | item :: items, hbasic, hread, view, places, hsound, h => by
      obtain ⟨hitem, hitems⟩ := List.forall_mem_append.mp hbasic
      obtain ⟨hreadItem, hreadItems⟩ := List.forall_mem_append.mp hread
      intro reading hreading
      rw [readingsAll] at hreading
      rw [Model.readsOfItems]
      rcases List.mem_append.mp hreading with hfirst | hrest
      · obtain ⟨places', hrecorded⟩ :=
          recorded_item item hitem hreadItem view places hsound h reading hfirst
        exact ⟨places', hrecorded.mono (List.subset_append_left _ _)⟩
      · obtain ⟨places', hrecorded⟩ :=
          recorded_items items hitems hreadItems view places hsound h reading hrest
        exact ⟨places', hrecorded.mono (List.subset_append_right _ _)⟩

end

end Item

/-- A reading that was recorded and leads to a node is in the model. -/
theorem Reading.Recorded.has {data : Value} {reads : List (List Step)} {reading : Reading}
    {places : Places} (h : reading.Recorded data reads places) {address : Address}
    (hnode : reading.view.node? reading.path = some address) (hindexes : address.Indexes) :
    (Model.ofReads reads).Has address.keys := by
  obtain ⟨steps, hsteps, hkeys⟩ := stepsOf_of_isPlain h.aligned h.isRead (isPlain_of_node? hnode)
  rw [← hkeys address hnode hindexes]
  exact Model.has_ofReads (h.recorded steps hsteps)

/-- The model of a template covers what a render reads. What is looked up in a render
are the readings of the template, in order, as far as the render gets. Whenever a path
finds something and takes its first step in a scope that is known to be a node, then what
it finds is a node of the data, and the model has the keys of that node, if no position is
used as a key on the way to it. -/
theorem Template.model_covers_readings {template : Template} {data : Value}
    (hbasic : ∀ item ∈ Item.walkAll template.document.items, item.IsBasic)
    (hread : template.HasReadPaths)
    (hresolver : template.options.resolver = none) (htree : data.IsTree) :
    (∀ device signal, looksOf (template.trace data device signal) <+:
      (template.readings data).map Reading.look) ∧
    ∀ reading ∈ template.readings data, ∀ start rest found,
      reading.view.Tracks reading.path start rest → reading.found = some found →
      ∃ address, reading.view.node? reading.path = some address ∧
        data.at? address = some found.value ∧
        (address.Indexes → (Model.ofItems template.document.items).Has address.keys) := by
  constructor
  · exact template.looksOf_trace data hbasic hresolver
  · intro reading hreading start rest found htracks hfound
    have haligned : Aligned (View.root data).spots [[]] := by
      refine .root ?_
      intro address haddress hindexes
      obtain rfl := Option.some.inj haddress
      rfl
    obtain ⟨places, hrecorded⟩ := Item.recorded_items _ hbasic hread.isRead _ _
      (View.isSound_root data) haligned reading hreading
    have hsome : reading.view.context.find? none reading.path ≠ none := by
      rw [← Reading.found, hfound]
      exact Option.some_ne_none _
    obtain ⟨address, hnode⟩ :=
      View.exists_node? hrecorded.sound htree hrecorded.isRead htracks hsome
    obtain ⟨found', hfind, hat⟩ := View.node?_sound hrecorded.sound hrecorded.isRead hnode
    obtain rfl := Option.some.inj (hfound.symm.trans hfind)
    exact ⟨address, hnode, hat, hrecorded.has hnode⟩

namespace Template

/-- The template of these items, without errors and with the default options. -/
def ofItems (items : List Item) : Template :=
  ⟨"", ⟨items, [], none⟩, .default⟩

/-- The output of a path in a tag at this place. -/
def outputOf (path : Path) (span : Span) : Item :=
  .output ⟨path, [], span⟩ true span

/-- A section on a path in a tag at the start of this place. -/
def sectionOf (kind : SectionKind) (path : Path) (body : List Item) (span : Span) : Item :=
  .block kind ⟨path, [], span⟩ body [] span

def nameOf (text : String) : Path :=
  ⟨[.name text], text⟩

/-- `{{#each xs}}{{#with a}}{{ ../b.0 }}{{/with}}{{/each}}` -/
def leaving : Template :=
  .ofItems [sectionOf .each (nameOf "xs")
    [sectionOf .within (nameOf "a")
      [outputOf ⟨[.parent, .name "b", .index 0], "../b.0"⟩ ⟨23, 35, 1, 24⟩] ⟨12, 44, 1, 13⟩]
    ⟨0, 53, 1, 1⟩]

def leavingData : Value :=
  .map [("xs", .list [.map [("a", .map []), ("b", .list [.int 1])]])]

theorem leaving_basic : ∀ item ∈ Item.walkAll leaving.document.items, item.IsBasic := by
  simp [leaving, ofItems, sectionOf, outputOf, Item.walkAll, Item.walk, Item.IsBasic]

theorem leaving_read : ∀ item ∈ Item.walkAll leaving.document.items, item.IsRead := by
  have hxs : (nameOf "xs").IsRead := ⟨"xs", rfl⟩
  have ha : (nameOf "a").IsRead := ⟨"a", rfl⟩
  have hb : Path.IsRead ⟨[.parent, .name "b", .index 0], "../b.0"⟩ := ⟨"../b.0", rfl⟩
  refine List.forall_mem_cons.mpr ⟨hxs, ?_⟩
  refine List.forall_mem_cons.mpr ⟨ha, ?_⟩
  exact List.forall_mem_singleton.mpr hb

theorem leavingData_isTree : leavingData.IsTree := by
  refine Value.isTree_map (List.forall_mem_singleton.mpr (Value.isTree_list
    (List.forall_mem_singleton.mpr (Value.isTree_map ?_))))
  refine List.forall_mem_cons.mpr ⟨Value.isTree_map nofun, List.forall_mem_singleton.mpr ?_⟩
  exact Value.isTree_list (List.forall_mem_singleton.mpr (Value.isTree_int 1))

/-- The path `../b.0`, which leaves the section on `a`. -/
def leavingReading : Reading where
  view := ⟨⟨.ofValue "a" (.map []), some [.key "xs", .item 0, .key "a"], true⟩,
    [⟨.ofElement "xs" (.map [("a", .map []), ("b", .list [.int 1])]) ⟨0, 1⟩,
        some [.key "xs", .item 0], true⟩,
      ⟨.ofValue "" leavingData, some [], true⟩]⟩
  path := ⟨[.parent, .name "b", .index 0], "../b.0"⟩
  expected := .value

theorem leaving_covered :
    leavingReading ∈ leaving.readings leavingData ∧
    leavingReading.found = some ⟨.int 1, false⟩ ∧
    leavingReading.view.node? leavingReading.path =
      some [.key "xs", .item 0, .key "b", .item 0] ∧
    (Model.ofItems leaving.document.items).Has ["xs", "b"] := by
  have hmem : leavingReading ∈ leaving.readings leavingData :=
    List.mem_of_getElem? (show (leaving.readings leavingData)[2]? = some leavingReading from rfl)
  have hfound : leavingReading.found = some ⟨.int 1, false⟩ := rfl
  have htracks : leavingReading.view.Tracks leavingReading.path
      ⟨.ofElement "xs" (.map [("a", .map []), ("b", .list [.int 1])]) ⟨0, 1⟩,
        some [.key "xs", .item 0], true⟩ [.name "b", .index 0] := by
    refine ⟨rfl, rfl, Option.some_ne_none _, ?_⟩
    rintro segment ⟨⟩
    exact Option.some_ne_none _
  have hnode : leavingReading.view.node? leavingReading.path =
      some [.key "xs", .item 0, .key "b", .item 0] := rfl
  obtain ⟨address, haddress, -, hhas⟩ :=
    (model_covers_readings leaving_basic (.built leaving_read) rfl leavingData_isTree).2
      leavingReading hmem _ _ _ htracks hfound
  obtain rfl := Option.some.inj (hnode.symm.trans haddress)
  refine ⟨hmem, hfound, hnode, hhas ?_⟩
  simp [Address.Indexes, Hop.isEntry]

/-- The model lacks the keys of a node that a path finds, although the path takes its first
step in the scope that it starts from. -/
structure Misses (template : Template) (data : Value) (address : Address) : Prop where
  isValid : template.isValid = true
  basic : ∀ item ∈ Item.walkAll template.document.items, item.IsBasic
  isRead : ∀ item ∈ Item.walkAll template.document.items, item.IsRead
  resolver : template.options.resolver = none
  isTree : data.IsTree
  indexes : address.Indexes
  read : ∃ reading ∈ template.readings data, ∃ found ctx segment segments,
    reading.look ∈ looksOf (template.trace data .memory .never) ∧
    reading.view.context.start? reading.path.segments = some (ctx, segment :: segments) ∧
    Context.stepIn? none ctx.here segment ≠ none ∧
    reading.found = some found ∧ data.at? address = some found.value
  missing : (Model.ofItems template.document.items).reach? address.keys = none

/-- `{{ $a }}` -/
def dollar : Template :=
  .ofItems [outputOf (nameOf "$a") ⟨0, 8, 1, 1⟩]

/-- `{{#with a}}{{#with b}}{{ c }}{{/with}}{{/with}}` -/
def ascending : Template :=
  .ofItems [sectionOf .within (nameOf "a")
    [sectionOf .within (nameOf "b") [outputOf (nameOf "c") ⟨22, 29, 1, 23⟩] ⟨11, 38, 1, 12⟩]
    ⟨0, 47, 1, 1⟩]

/-- `{{#each xs}}{{#with $first}}{{ ../name }}{{/with}}{{/each}}` -/
def skipping : Template :=
  .ofItems [sectionOf .each (nameOf "xs")
    [sectionOf .within (nameOf "$first")
      [outputOf ⟨[.parent, .name "name"], "../name"⟩ ⟨28, 41, 1, 29⟩] ⟨12, 50, 1, 13⟩]
    ⟨0, 59, 1, 1⟩]

theorem dollar_misses : dollar.Misses (.map [("$a", .int 1)]) [.key "$a"] := by
  have hone : (Value.int 1).IsTree := Value.isTree_int 1
  have ha : (nameOf "$a").IsRead := ⟨"$a", rfl⟩
  constructor
  · rfl
  · simp [dollar, ofItems, outputOf, Item.walkAll, Item.walk, Item.IsBasic]
  · exact List.forall_mem_singleton.mpr ha
  · rfl
  · exact Value.isTree_map (List.forall_mem_singleton.mpr hone)
  · simp [Address.Indexes, Hop.isEntry]
  · exact ⟨_, List.mem_of_getElem? (i := 0) rfl, _, _, _, _,
      List.mem_of_getElem? (i := 0) rfl, rfl, Option.some_ne_none _, rfl, rfl⟩
  · rfl

theorem ascending_misses :
    ascending.Misses (.map [("a", .map []), ("b", .map [("c", .int 1)])])
      [.key "b", .key "c"] := by
  have hone : (Value.int 1).IsTree := Value.isTree_int 1
  have ha : (nameOf "a").IsRead := ⟨"a", rfl⟩
  have hb : (nameOf "b").IsRead := ⟨"b", rfl⟩
  have hc : (nameOf "c").IsRead := ⟨"c", rfl⟩
  constructor
  · rfl
  · simp [ascending, ofItems, sectionOf, outputOf, Item.walkAll, Item.walk, Item.IsBasic]
  · exact List.forall_mem_cons.mpr ⟨ha, List.forall_mem_cons.mpr ⟨hb,
      List.forall_mem_singleton.mpr hc⟩⟩
  · rfl
  · apply Value.isTree_map
    have hempty : (Value.map []).IsTree := Value.isTree_map (by simp)
    refine List.forall_mem_cons.mpr ⟨hempty, List.forall_mem_singleton.mpr ?_⟩
    exact Value.isTree_map (List.forall_mem_singleton.mpr hone)
  · simp [Address.Indexes, Hop.isEntry]
  · exact ⟨_, List.mem_of_getElem? (i := 2) rfl, _, _, _, _,
      List.mem_of_getElem? (i := 2) rfl, rfl, Option.some_ne_none _, rfl, rfl⟩
  · rfl

theorem skipping_misses :
    skipping.Misses (.map [("xs", .list [.map [("name", .int 1)]])])
      [.key "xs", .item 0, .key "name"] := by
  have hone : (Value.int 1).IsTree := Value.isTree_int 1
  have hxs : (nameOf "xs").IsRead := ⟨"xs", rfl⟩
  have hfirst : (nameOf "$first").IsRead := ⟨"$first", rfl⟩
  have hname : Path.IsRead ⟨[.parent, .name "name"], "../name"⟩ := ⟨"../name", rfl⟩
  constructor
  · rfl
  · simp [skipping, ofItems, sectionOf, outputOf, Item.walkAll, Item.walk, Item.IsBasic]
  · exact List.forall_mem_cons.mpr ⟨hxs, List.forall_mem_cons.mpr ⟨hfirst,
      List.forall_mem_singleton.mpr hname⟩⟩
  · rfl
  · exact Value.isTree_map (List.forall_mem_singleton.mpr (Value.isTree_list
      (List.forall_mem_singleton.mpr (Value.isTree_map (List.forall_mem_singleton.mpr hone)))))
  · simp [Address.Indexes, Hop.isEntry]
  · exact ⟨_, List.mem_of_getElem? (i := 2) rfl, _, _, _, _,
      List.mem_of_getElem? (i := 2) rfl, rfl, Option.some_ne_none _, rfl, rfl⟩
  · rfl

/-- Names with a dollar sign are not in the model, nor is what is read in a scope that was
found by ascending, or out of a section on a path with a dollar sign. -/
theorem model_misses_readings :
    dollar.Misses (.map [("$a", .int 1)]) [.key "$a"] ∧
    ascending.Misses (.map [("a", .map []), ("b", .map [("c", .int 1)])]) [.key "b", .key "c"] ∧
    skipping.Misses (.map [("xs", .list [.map [("name", .int 1)]])])
      [.key "xs", .item 0, .key "name"] :=
  ⟨dollar_misses, ascending_misses, skipping_misses⟩

end Template

end Stencil
