import Stencil.Render.Items
import Stencil.Proofs.Value.Address

/-!
The scopes of a render and the nodes of the data that they are. A scope is known
to be a node if the path of its section starts from a scope that is known to be
one and takes its first step there, without ascending to an enclosing scope.
-/

namespace Stencil

/-- No name in the path starts with a dollar sign. -/
def Path.isDollarFree (path : Path) : Bool :=
  (Segment.names path.segments).all fun name => name.toList.head? != some '$'

/-- A scope of a render with what is known of how it was entered. -/
structure Spot where
  scope : Scope
  /-- The node of the data that the scope is, if that is known. -/
  node : Option Address
  /-- The scope is the root, or its path is plain. -/
  isPlain : Bool

/-- A scope and the scopes around it, innermost first. -/
structure View where
  here : Spot
  outer : List Spot

/-- Leaves as many scopes as the segments start with parent segments, if these
scopes are plain. -/
def Spot.climb? : List Spot → List Segment → Option (Spot × List Segment)
  | [], _ => none
  | spot :: spots, .parent :: segments => if spot.isPlain then climb? spots segments else none
  | spot :: _, segments => some (spot, segments)

namespace View

def root (data : Value) : View :=
  ⟨⟨.ofValue "" data, some [], true⟩, []⟩

def enter (view : View) (spot : Spot) : View :=
  ⟨spot, view.here :: view.outer⟩

def spots (view : View) : List Spot :=
  view.here :: view.outer

/-- The scopes as the render has them. -/
def context (view : View) : Context :=
  ⟨view.here.scope, view.outer.map Spot.scope⟩

/-- The scope that a path starts from, and its segments after that. A path that
leaves a scope that is not plain is not followed. -/
def start? (view : View) (path : Path) : Option (Spot × List Segment) :=
  match path.segments with
  | .root :: rest => some (view.outer.getLastD view.here, rest)
  | segments => Spot.climb? view.spots segments

/-- A path is plain if it has no name with a dollar sign and leaves plain scopes
only. -/
def isPlain (view : View) (path : Path) : Bool :=
  path.isDollarFree && (view.start? path).isSome

/-- The node that a plain path leads to, if the scope that it starts from is known
to be a node and has the first step. -/
def node? (view : View) (path : Path) : Option Address :=
  if path.isDollarFree then do
    let (start, rest) ← view.start? path
    let hops ← (← start.scope.value).hopsOf? rest
    return (← start.node) ++ hops
  else none

/-- The node that an element of a value is. The entries that an iteration makes of a
map are no nodes. -/
def elementNode? (view : View) (path : Path) (value : Value) (index : Nat) : Option Address :=
  match value with
  | .list _ => (view.node? path).map (· ++ [.item index])
  | _ => none

def elements (view : View) (path : Path) (value : Value) (length : Nat) :
    Nat → List Value → List View
  | _, [] => []
  | index, element :: elements =>
      view.enter ⟨.ofElement path.text element ⟨index, length⟩,
          view.elementNode? path value index, view.isPlain path⟩ ::
        view.elements path value length (index + 1) elements

/-- The scopes of the body of an iterating section, as often as it is rendered, or
none if its other branch is. -/
def iterate (view : View) (kind : SectionKind) (path : Path) (value : Value) :
    Option (List View) :=
  match Script.elementsOf? kind value with
  | some [] => none
  | some values => some (view.elements path value values.length 0 values)
  | none =>
      if value.isTruthy then
        let scope := if kind = .each then Scope.ofElement path.text value ⟨0, 1⟩
          else Scope.ofValue path.text value
        some [view.enter ⟨scope, view.node? path, view.isPlain path⟩]
      else none

/-- The scopes of the body of a section, as often as it is rendered, or none if its
other branch is. -/
def branch (view : View) (kind : SectionKind) (path : Path) : Option (List View) :=
  match kind, (view.context.find? none path).map Found.value with
  | .truthy, value => if value.any Value.isTruthy then some [view] else none
  | .falsy, value => if value.any Value.isTruthy then none else some [view]
  | .each, some value | .plain, some value => view.iterate kind path value
  | .within, some value =>
      if value.isNull then none
      else some [view.enter ⟨.ofValue path.text value, view.node? path, view.isPlain path⟩]
  | _, none => none

end View

/-- A path that does not start at the root is followed from an enclosing scope. -/
theorem Context.start?_of_ne_root {ctx : Context} {segments : List Segment}
    (h : ∀ rest, segments ≠ .root :: rest) : ctx.start? segments = ctx.climb? segments := by
  unfold start?
  split
  · exact absurd rfl (h _)
  · rfl

/-- The value of a scope that is known to be a node is that node. -/
def Spot.IsSound (data : Value) (spot : Spot) : Prop :=
  ∀ address, spot.node = some address →
    ∃ value, spot.scope.value = some value ∧ data.at? address = some value

namespace View

def IsSound (data : Value) (view : View) : Prop :=
  ∀ spot ∈ view.spots, spot.IsSound data

variable {data : Value} {view : View} {path : Path} {start : Spot} {rest : List Segment}

theorem isSound_root (data : Value) : (root data).IsSound data := by
  intro spot hspot address haddress
  obtain rfl := List.mem_singleton.mp hspot
  obtain rfl := Option.some.inj haddress
  exact ⟨data, rfl, rfl⟩

theorem IsSound.enter (h : view.IsSound data) {spot : Spot} (hspot : spot.IsSound data) :
    (view.enter spot).IsSound data :=
  List.forall_mem_cons.mpr ⟨hspot, h⟩

/-- Leaving plain scopes leads where the render gets by leaving them. -/
theorem climb?_context {spots : List Spot} {segments : List Segment}
    (h : Spot.climb? spots segments = some (start, rest)) :
    start ∈ spots ∧ rest <:+ segments ∧ ∀ view : View, view.spots = spots →
      ∃ ctx : Context, view.context.climb? segments = some (ctx, rest) ∧
        ctx.here = start.scope := by
  fun_induction Spot.climb? spots segments with
  | case1 => cases h
  | case2 spot spots segments isPlain ih =>
      obtain ⟨hmem, hsuffix, hcontext⟩ := ih h
      refine ⟨List.mem_cons_of_mem _ hmem, hsuffix.trans (List.suffix_cons _ _), ?_⟩
      intro view hspots
      obtain ⟨rfl, houter⟩ := List.cons.inj hspots
      cases spots with
      | nil => cases hmem
      | cons here outer =>
          obtain ⟨ctx, hclimb, hhere⟩ := hcontext ⟨here, outer⟩ rfl
          refine ⟨ctx, ?_, hhere⟩
          rw [Context.climb?, Context.parent?, context, houter]
          exact hclimb
  | case3 => cases h
  | case4 spot spots segments notParent =>
      obtain ⟨rfl, rfl⟩ := Prod.mk.inj (Option.some.inj h)
      refine ⟨List.mem_cons_self .., List.suffix_refl _, ?_⟩
      intro view hspots
      obtain ⟨hhere, -⟩ := List.cons.inj hspots
      refine ⟨view.context, ?_, congrArg Spot.scope hhere⟩
      rw [Context.climb?]
      exact notParent

theorem start?_context (h : view.start? path = some (start, rest)) :
    start ∈ view.spots ∧ rest <:+ path.segments ∧ ∃ ctx : Context,
      view.context.start? path.segments = some (ctx, rest) ∧ ctx.here = start.scope := by
  unfold start? at h
  split at h
  · rename_i rest' hroot
    obtain ⟨rfl, rfl⟩ := Prod.mk.inj (Option.some.inj h)
    rw [hroot]
    exact ⟨List.getLastD_mem_cons, List.suffix_cons _ _, _, rfl, List.getLastD_map⟩
  · rename_i hanchor
    obtain ⟨hmem, hsuffix, hcontext⟩ := climb?_context h
    rw [Context.start?_of_ne_root hanchor]
    exact ⟨hmem, hsuffix, hcontext view rfl⟩

theorem head_of_isLoopVariable {name : String} (h : isLoopVariable name = true) :
    name.toList.head? = some '$' := by
  simp only [isLoopVariable, List.contains_cons, List.contains_nil, Bool.or_false,
    Bool.or_eq_true, beq_iff_eq] at h
  rcases h with rfl | rfl | rfl | rfl | rfl <;> rfl

/-- In a path without dollar signs no name is that of a loop variable. -/
theorem not_isLoopVariable {name : String} (hdollar : path.isDollarFree = true)
    (hname : .name name ∈ path.segments) : isLoopVariable name = false := by
  rw [Bool.eq_false_iff]
  intro hloop
  have hnames : name ∈ Segment.names path.segments :=
    List.mem_filterMap.mpr ⟨_, hname, rfl⟩
  have hfree := List.all_eq_true.mp hdollar name hnames
  rw [head_of_isLoopVariable hloop] at hfree
  cases hfree

/-- A path whose first step can be taken in the scope that it starts from is followed
from there. -/
theorem find?_of_start? {value : Value} (hpath : path.IsRead) (hdollar : path.isDollarFree = true)
    (hstart : view.start? path = some (start, rest)) (hvalue : start.scope.value = some value)
    (hdirect : ∀ segment ∈ rest.head?,
      ∃ found, (Found.mk value false).step? none segment = some found) :
    (view.context.find? none path).map Found.value =
      ((Found.mk value false).follow? none rest).map Found.value := by
  have hform := hpath.wellFormed
  obtain ⟨hmem, hsuffix, ctx, hcontext, hhere⟩ := start?_context hstart
  unfold Context.find?
  split
  · rename_i hnil
    exact absurd hnil hform.nonempty
  · rename_i rest' hself
    obtain rfl := hform.alone rest' hself
    unfold start? at hstart
    rw [hself] at hstart
    obtain ⟨rfl, rfl⟩ := Prod.mk.inj (Option.some.inj hstart)
    rw [context, hvalue]
    rfl
  · simp only [hcontext, Option.bind_eq_bind, Option.bind_some]
    cases rest with
    | nil =>
        rw [hhere, hvalue]
        rfl
    | cons segment segments =>
        obtain ⟨found, hfound⟩ := hdirect segment rfl
        have hstep : Context.stepIn? none ctx.here segment = some found := by
          rw [Context.stepIn?, hhere, hvalue]
          exact hfound
        have hscopes : (if path.isAnchored then Context.stepIn? none ctx.here segment
            else ctx.scopes.findSome? (Context.stepIn? none · segment)) = some found := by
          rw [Context.scopes, List.findSome?_cons, hstep, ite_self]
        have hfirst : ctx.first? none path.isAnchored segment = some found := by
          unfold Context.first?
          rw [hscopes]
          cases segment with
          | name name =>
              have hname := not_isLoopVariable hdollar (hsuffix.subset (List.mem_cons_self ..))
              simp only [hname, Bool.false_eq_true, if_false]
          | index | self | parent | root => rfl
        simp only [hfirst, Found.follow?, List.foldlM_cons, hfound]
        rfl

/-- A path leads to the node that it finds. -/
theorem node?_sound (hsound : view.IsSound data) (hpath : path.IsRead) {address : Address}
    (h : view.node? path = some address) :
    ∃ found, view.context.find? none path = some found ∧
      data.at? address = some found.value := by
  unfold node? at h
  split at h
  · rename_i hdollar
    simp only [Option.bind_eq_bind, Option.bind_eq_some_iff, Option.pure_def,
      Option.some.injEq] at h
    obtain ⟨⟨start, rest⟩, hstart, value, hvalue, hops, hhops, known, hknown, rfl⟩ := h
    obtain ⟨hmem, -⟩ := start?_context hstart
    obtain ⟨value', hvalue', hnode⟩ := hsound start hmem known hknown
    obtain rfl := Option.some.inj (hvalue.symm.trans hvalue')
    obtain ⟨found, hfollow, hfound⟩ := Value.follow?_of_hopsOf? false hhops
    have hfind := find?_of_start? hpath hdollar hstart hvalue (by
      intro segment hsegment
      obtain ⟨segments, rfl⟩ := List.head?_eq_some_iff.mp hsegment
      exact Value.step?_of_hopsOf? false hhops)
    rw [hfollow] at hfind
    obtain ⟨found', hfind, hsame⟩ := Option.map_eq_some_iff.mp hfind
    refine ⟨found', hfind, ?_⟩
    rw [Value.at?_append, hnode, Option.bind_some, hfound, hsame]
  · cases h

/-- The path is followed from a scope that is known to be a node, and takes its first
step there. -/
structure Tracks (view : View) (path : Path) (start : Spot) (rest : List Segment) : Prop where
  dollarFree : path.isDollarFree = true
  starts : view.start? path = some (start, rest)
  known : start.node ≠ none
  direct : ∀ segment ∈ rest.head?, Context.stepIn? none start.scope segment ≠ none

/-- In plain data, what such a path finds is a node that it leads to. -/
theorem exists_node? (hsound : view.IsSound data) (htree : data.IsTree) (hpath : path.IsRead)
    (htracks : view.Tracks path start rest) (hfound : view.context.find? none path ≠ none) :
    ∃ address, view.node? path = some address := by
  obtain ⟨hdollar, hstart, hknown, hdirect⟩ := htracks
  obtain ⟨known, hnode⟩ := Option.ne_none_iff_exists'.mp hknown
  obtain ⟨value, hvalue, hat⟩ := hsound start (start?_context hstart).1 known hnode
  have hfind := find?_of_start? hpath hdollar hstart hvalue (by
    intro segment hsegment
    have hstep := hdirect segment hsegment
    rw [Context.stepIn?, hvalue] at hstep
    exact Option.ne_none_iff_exists'.mp hstep)
  obtain ⟨found, hfound⟩ := Option.ne_none_iff_exists'.mp hfound
  rw [hfound] at hfind
  obtain ⟨found', hfollow, -⟩ := Option.map_eq_some_iff.mp hfind.symm
  obtain ⟨hops, hhops⟩ := Value.exists_hopsOf? (htree.at? hat) false hfollow
  refine ⟨known ++ hops, ?_⟩
  simp [node?, hdollar, hstart, hvalue, hhops, hnode]

/-- Where the body of a section is rendered: in the scope of a conditional, in that of
the value that the section's path finds, or in that of an element of it. -/
inductive Inside (view : View) (kind : SectionKind) (path : Path) : View → Prop where
  | same (conditional : kind = .truthy ∨ kind = .falsy) : Inside view kind path view
  | whole {value : Value} {scope : Scope} (enters : kind = .each ∨ kind = .within ∨ kind = .plain)
      (found : (view.context.find? none path).map Found.value = some value)
      (entered : scope.value = some value) :
      Inside view kind path (view.enter ⟨scope, view.node? path, view.isPlain path⟩)
  | element {value element : Value} {scope : Scope} {index : Nat}
      (iterates : kind = .each ∨ kind = .plain)
      (found : (view.context.find? none path).map Found.value = some value)
      (isItem : ∀ items, value = .list items → items[index]? = some element)
      (entered : scope.value = some element) :
      Inside view kind path
        (view.enter ⟨scope, view.elementNode? path value index, view.isPlain path⟩)

theorem inside_elements {kind : SectionKind} {value : Value} {length index : Nat}
    {values : List Value} (iterates : kind = .each ∨ kind = .plain)
    (found : (view.context.find? none path).map Found.value = some value)
    (hitems : ∀ items, value = .list items → items.drop index = values) :
    ∀ inner ∈ view.elements path value length index values, view.Inside kind path inner := by
  induction values generalizing index with
  | nil =>
      intro inner hinner
      cases hinner
  | cons element values ih =>
      rw [elements]
      refine List.forall_mem_cons.mpr ⟨?_, ih ?_⟩
      · have hentered : (Scope.ofElement path.text element ⟨index, length⟩).value =
            some element := rfl
        refine .element iterates found ?_ hentered
        intro items hvalue
        have hfirst := congrArg (·[0]?) (hitems items hvalue)
        simpa using hfirst
      · intro items hvalue
        rw [← List.tail_drop, hitems items hvalue, List.tail_cons]

theorem inside_iterate {kind : SectionKind} {value : Value} {views : List View}
    (iterates : kind = .each ∨ kind = .plain)
    (found : (view.context.find? none path).map Found.value = some value)
    (h : view.iterate kind path value = some views) :
    ∀ inner ∈ views, view.Inside kind path inner := by
  unfold iterate at h
  split at h
  · cases h
  · rename_i values _ helements
    obtain rfl := Option.some.inj h
    apply inside_elements iterates found
    rintro items rfl
    rw [List.drop_zero]
    rcases iterates with rfl | rfl <;> exact Option.some.inj helements
  · split at h
    · obtain rfl := Option.some.inj h
      refine List.forall_mem_singleton.mpr (.whole ?_ found ?_)
      · exact iterates.imp id Or.inr
      · split <;> rfl
    · cases h

theorem inside_branch {kind : SectionKind} {views : List View}
    (h : view.branch kind path = some views) : ∀ inner ∈ views, view.Inside kind path inner := by
  unfold branch at h
  split at h
  · split at h
    · obtain rfl := Option.some.inj h
      exact List.forall_mem_singleton.mpr (.same (Or.inl rfl))
    · cases h
  · split at h
    · cases h
    · obtain rfl := Option.some.inj h
      exact List.forall_mem_singleton.mpr (.same (Or.inr rfl))
  · rename_i found
    exact inside_iterate (Or.inl rfl) found h
  · rename_i found
    exact inside_iterate (Or.inr rfl) found h
  · rename_i found
    split at h
    · cases h
    · obtain rfl := Option.some.inj h
      exact List.forall_mem_singleton.mpr (.whole (Or.inr (Or.inl rfl)) found rfl)
  · cases h

theorem Inside.isSound {kind : SectionKind} {inner : View} (h : view.Inside kind path inner)
    (hsound : view.IsSound data) (hpath : path.IsRead) : inner.IsSound data := by
  cases h with
  | same conditional => exact hsound
  | whole enters found entered =>
      apply hsound.enter
      intro address hnode
      obtain ⟨found', hfind, hat⟩ := node?_sound hsound hpath hnode
      rw [hfind] at found
      obtain rfl := Option.some.inj found
      exact ⟨_, entered, hat⟩
  | @element value element scope index iterates found isItem entered =>
      apply hsound.enter
      intro address hnode
      unfold elementNode? at hnode
      split at hnode
      · rename_i items
        obtain ⟨known, hknown, rfl⟩ := Option.map_eq_some_iff.mp hnode
        obtain ⟨found', hfind, hat⟩ := node?_sound hsound hpath hknown
        rw [hfind] at found
        have hlist : found'.value = .list items := Option.some.inj found
        refine ⟨_, entered, ?_⟩
        rw [Value.at?_append, hat, Option.bind_some, hlist]
        exact (Value.at?_cons _ _ _).trans (by rw [Value.hop?, isItem items rfl]; rfl)
      · cases hnode

end View

end Stencil
