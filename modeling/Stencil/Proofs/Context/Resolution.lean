import Stencil.Context
import Stencil.Proofs.Path.Segments

/-!
What a path finds in a chain of scopes. A path that was read is `.`, or an anchor and
parts after it. The anchor chooses the scopes that the first part may be answered by:
all of them, those from an enclosing one on, or the root; a loop variable is answered by
the nearest iteration among these, after an anchor only the first of them is asked, and
else the innermost that can answer. The other parts are followed from that answer.
-/

namespace Stencil

/-- Where a path starts: where it stands, some levels further out, or at the root. -/
inductive Anchor where
  | here
  | enclosing (levels : Nat)
  | root

namespace Anchor

/-- The steps that an anchor is written as; an enclosing scope is at least one level out. -/
def steps : Anchor → List Segment
  | here => []
  | enclosing levels => List.replicate (levels + 1) .parent
  | root => [.root]

/-- The text starts with steps to enclosing scopes, as many as there are levels, and goes
on with the rest. Two points that end the text are such a step as well. -/
inductive Climbs : Nat → List Char → List Char → Prop where
  | stay (s : List Char) : Climbs 0 s s
  | step {levels : Nat} {s rest : List Char} (further : Climbs levels s rest) :
      Climbs (levels + 1) ('.' :: '.' :: '/' :: s) rest
  | last : Climbs 1 ['.', '.'] []

/-- The text starts with the anchor and goes on with the rest. -/
def Opens : Anchor → List Char → List Char → Prop
  | here, s, rest => s = rest
  | enclosing levels, s, rest => Climbs (levels + 1) s rest
  | root, s, rest => s = '~' :: '.' :: rest ∨ s = '~' :: rest

/-- The path starts at another scope than its own. -/
def moves : Anchor → Bool
  | here => false
  | enclosing _ | root => true

theorem climbs_climb (s : List Char) : ∃ levels, (Path.climb s).1 = List.replicate levels .parent ∧
    Climbs levels s (Path.climb s).2 := by
  fun_induction Path.climb s with
  | case1 s steps rest hclimb ih =>
      obtain ⟨levels, hsteps, hclimbs⟩ := ih
      rw [hclimb] at hsteps hclimbs
      exact ⟨levels + 1, congrArg (.parent :: ·) hsteps, .step hclimbs⟩
  | case2 => exact ⟨1, rfl, .last⟩
  | case3 s => exact ⟨0, rfl, .stay s⟩

/-- What is split off a text as its anchor is one. -/
theorem opens_anchor (s : List Char) :
    ∃ anchor : Anchor, (Path.anchor s).1 = anchor.steps ∧ anchor.Opens s (Path.anchor s).2 := by
  unfold Path.anchor
  split
  · exact ⟨.root, rfl, Or.inl rfl⟩
  · exact ⟨.root, rfl, Or.inr rfl⟩
  · obtain ⟨levels, hsteps, hclimbs⟩ := climbs_climb s
    cases levels with
    | zero =>
        refine ⟨.here, hsteps, ?_⟩
        cases hclimb : Path.climb s with
        | mk steps rest =>
            rw [hclimb] at hclimbs
            cases hclimbs
            rfl
    | succ levels => exact ⟨.enclosing levels, hsteps, hclimbs⟩

end Anchor

namespace Path

/-- The text is written as this anchor and these parts, with points between the parts. -/
def IsWritten (text : String) (anchor : Anchor) (parts : List Segment) : Prop :=
  ∃ rest, anchor.Opens text.toList rest ∧ AreRead text rest parts

variable {text : String} {anchor : Anchor} {parts : List Segment} {path : Path}

theorem IsWritten.isPart (h : IsWritten text anchor parts) : ∀ part ∈ parts, part.IsPart := by
  obtain ⟨rest, -, hread⟩ := h
  exact hread.isPart

/-- A path that was read is the current value, or an anchor and parts. -/
theorem exists_isWritten (h : parse text = .ok path) :
    (text = "." ∨ text = "this") ∧ path.segments = [.self] ∨
      ∃ anchor parts, IsWritten text anchor parts ∧ path.segments = anchor.steps ++ parts := by
  refine (parse_cases h).imp_right fun ⟨_, _, parts, hparts, hsegments⟩ => ?_
  obtain ⟨anchor, hsteps, hopens⟩ := Anchor.opens_anchor text.toList
  exact ⟨anchor, parts, ⟨_, hopens, hparts⟩, by rw [hsegments, hsteps]⟩

end Path

/-- The part is the name of a loop variable. -/
def Segment.isLoopVariable : Segment → Bool
  | name text => Stencil.isLoopVariable text
  | index _ | self | parent | root => false

namespace Context

/-- The scope that a path starts at and those around it, innermost first; none if there
are not as many scopes as it leaves. -/
def scopesFrom (ctx : Context) : Anchor → List Scope
  | .here => ctx.scopes
  | .enclosing levels => ctx.scopes.drop (levels + 1)
  | .root => ctx.scopes.drop (ctx.scopes.length - 1)

/-- What a path with this anchor and these parts may find in a context. -/
structure Finds (ctx : Context) (resolver : Option Resolver) (anchor : Anchor)
    (parts : List Segment) (found : Option Found) : Prop where
  /-- Nothing, where more scopes are left than there are. -/
  outside : ctx.scopesFrom anchor = [] → found = none
  /-- An anchor alone finds the value of the scope where the path starts, -/
  bare : parts = [] → ∀ start outer, ctx.scopesFrom anchor = start :: outer →
    found = start.value.map (⟨·, false⟩)
  /-- and with parts after it, what they lead to from that value, and from no other. -/
  anchored : anchor.moves = true → ∀ part rest, parts = part :: rest →
    part.isLoopVariable = false →
      ∀ start outer, ctx.scopesFrom anchor = start :: outer →
        found = start.value.bind fun value => (Found.mk value false).follow? resolver parts
  /-- Without an anchor the innermost scope that can answers the first part, and the rest
  is followed from its answer, whatever there is further out. -/
  innermost : anchor = .here → ∀ part rest, parts = part :: rest →
    part.isLoopVariable = false →
      ∀ inner answering outer answer, ctx.scopes = inner ++ answering :: outer →
        (∀ scope ∈ inner, stepIn? resolver scope part = none) →
        stepIn? resolver answering part = some answer →
          found = answer.follow? resolver rest
  /-- Nothing, where no scope can answer the first part. -/
  unanswered : anchor = .here → ∀ part rest, parts = part :: rest →
    part.isLoopVariable = false →
      (∀ scope ∈ ctx.scopes, stepIn? resolver scope part = none) → found = none
  /-- A loop variable is answered by the nearest iteration, from the start on, -/
  iteration : ∀ name rest, parts = .name name :: rest → isLoopVariable name = true →
    ∀ inner iterating outer position, ctx.scopesFrom anchor = inner ++ iterating :: outer →
      (∀ scope ∈ inner, scope.loop = none) → iterating.loop = some position →
        ∃ value, position.answer? name = some value ∧
          found = (Found.mk value false).follow? resolver rest
  /-- and it finds nothing where there is none. -/
  noIteration : ∀ name rest, parts = .name name :: rest → isLoopVariable name = true →
    (∀ scope ∈ ctx.scopesFrom anchor, scope.loop = none) → found = none

variable {ctx : Context} {resolver : Option Resolver} {anchor : Anchor} {parts : List Segment}
  {path : Path}

/-- The last scope is the root. -/
theorem scopesFrom_root (ctx : Context) : ctx.scopesFrom .root = [ctx.outermost.here] := by
  obtain ⟨here, outer⟩ := ctx
  simp only [scopesFrom, scopes, outermost]
  induction outer generalizing here with
  | nil => rfl
  | cons next outer ih =>
      rw [List.getLastD_cons]
      exact ih next

theorem climb?_of_parts (hparts : ∀ part ∈ parts, part.IsPart) :
    ctx.climb? parts = some (ctx, parts) := by
  unfold climb?
  split
  · cases hparts _ (List.mem_cons_self ..)
  · rfl

/-- Leaving scopes leads to the scope that is as many levels out. -/
theorem climb?_replicate (hparts : ∀ part ∈ parts, part.IsPart) (levels : Nat) (ctx : Context) :
    ctx.climb? (List.replicate levels .parent ++ parts) =
      match ctx.scopes.drop levels with
      | [] => none
      | start :: outer => some (⟨start, outer⟩, parts) := by
  induction levels generalizing ctx with
  | zero => exact climb?_of_parts hparts
  | succ levels ih =>
      obtain ⟨here, outer⟩ := ctx
      rw [List.replicate_succ, List.cons_append, climb?]
      cases outer with
      | nil => simp [parent?, scopes]
      | cons next outer => exact ih ⟨next, outer⟩

theorem start?_eq (hparts : ∀ part ∈ parts, part.IsPart) (anchor : Anchor) (ctx : Context) :
    ctx.start? (anchor.steps ++ parts) =
      match ctx.scopesFrom anchor with
      | [] => none
      | start :: outer => some (⟨start, outer⟩, parts) := by
  cases anchor with
  | here =>
      rw [Anchor.steps, List.nil_append]
      unfold start?
      split
      · cases hparts _ (List.mem_cons_self ..)
      · exact climb?_of_parts hparts
  | enclosing levels => exact climb?_replicate hparts (levels + 1) ctx
  | root =>
      rw [scopesFrom_root]
      rfl

/-- What parts find in the scopes from an anchor on. -/
def findIn? (resolver : Option Resolver) (anchored : Bool) :
    List Segment → List Scope → Option Found
  | _, [] => none
  | [], start :: _ => start.value.map (⟨·, false⟩)
  | part :: rest, start :: outer =>
      ((⟨start, outer⟩ : Context).first? resolver anchored part).bind (·.follow? resolver rest)

theorem isAnchored_eq (hsegments : path.segments = anchor.steps ++ parts)
    (hparts : ∀ part ∈ parts, part.IsPart) : path.isAnchored = anchor.moves := by
  unfold Path.isAnchored
  rw [hsegments]
  cases anchor with
  | here =>
      rw [Anchor.steps, List.nil_append]
      split
      · cases hparts _ (List.mem_cons_self ..)
      · cases hparts _ (List.mem_cons_self ..)
      · rfl
  | enclosing levels => rfl
  | root => rfl

/-- A path is its parts looked up in the scopes from its anchor on. -/
theorem find?_eq (hsegments : path.segments = anchor.steps ++ parts)
    (hparts : ∀ part ∈ parts, part.IsPart) (nonempty : path.segments ≠ []) (ctx : Context)
    (resolver : Option Resolver) :
    ctx.find? resolver path = findIn? resolver anchor.moves parts (ctx.scopesFrom anchor) := by
  have hstart := start?_eq hparts anchor ctx
  rw [← hsegments] at hstart
  unfold find?
  split
  · rename_i hnil
    exact absurd hnil nonempty
  · -- the current value is neither an anchor nor a part
    rename_i rest hself
    rw [hsegments] at hself
    cases anchor with
    | here =>
        rw [Anchor.steps, List.nil_append] at hself
        rw [hself] at hparts
        cases hparts _ (List.mem_cons_self ..)
    | enclosing levels => cases hself
    | root => cases hself
  · rw [hstart, isAnchored_eq hsegments hparts]
    cases ctx.scopesFrom anchor with
    | nil => rfl
    | cons start outer =>
        cases parts with
        | nil =>
            simp only [Option.bind_eq_bind, Option.bind_some, findIn?]
            cases start.value with
            | none => rfl
            | some value => rfl
        | cons part rest => rfl

theorem first?_of_not_loopVariable {part : Segment} (h : part.isLoopVariable = false)
    (ctx : Context) (resolver : Option Resolver) (anchored : Bool) :
    ctx.first? resolver anchored part =
      if anchored then stepIn? resolver ctx.here part
      else ctx.scopes.findSome? (stepIn? resolver · part) := by
  unfold first?
  cases part with
  | name text =>
      have hname : Stencil.isLoopVariable text = false := h
      simp only [hname]
      rfl
  | index | self | parent | root => rfl

theorem first?_of_isLoopVariable {name : String} (h : isLoopVariable name = true)
    (ctx : Context) (resolver : Option Resolver) (anchored : Bool) :
    ctx.first? resolver anchored (.name name) =
      (ctx.nearestLoop?.bind (·.answer? name)).map (⟨·, false⟩) := by
  unfold first?
  simp only [h, if_true]
  cases ctx.nearestLoop? with
  | none => rfl
  | some position =>
      simp only [Option.bind_eq_bind, Option.bind_some]
      cases position.answer? name with
      | none => rfl
      | some value => rfl

theorem findIn?_scopes (ctx : Context) (resolver : Option Resolver) (anchored : Bool)
    (part : Segment) (rest : List Segment) :
    findIn? resolver anchored (part :: rest) ctx.scopes =
      (ctx.first? resolver anchored part).bind (·.follow? resolver rest) :=
  rfl

theorem findIn?_of_isLoopVariable {name : String} (h : isLoopVariable name = true)
    (resolver : Option Resolver) (anchored : Bool) (rest : List Segment) (scopes : List Scope) :
    findIn? resolver anchored (.name name :: rest) scopes =
      ((scopes.findSome? Scope.loop).bind (·.answer? name)).bind
        fun value => (Found.mk value false).follow? resolver rest := by
  cases scopes with
  | nil => rfl
  | cons start outer =>
      rw [findIn?, first?_of_isLoopVariable h, nearestLoop?, scopes, Option.bind_map]
      rfl

/-- Every iteration answers the loop variables. -/
theorem exists_answer {name : String} (h : isLoopVariable name = true)
    (position : LoopPosition) : ∃ value, position.answer? name = some value := by
  simp only [isLoopVariable, List.contains_cons, List.contains_nil, Bool.or_false,
    Bool.or_eq_true, beq_iff_eq] at h
  rcases h with rfl | rfl | rfl | rfl | rfl <;> exact ⟨_, rfl⟩

theorem findSome?_split {α β : Type} {f : α → Option β} {inner outer : List α} {a : α}
    (hinner : ∀ b ∈ inner, f b = none) : (inner ++ a :: outer).findSome? f =
      (f a).or (outer.findSome? f) := by
  rw [List.findSome?_append, List.findSome?_eq_none_iff.mpr hinner, List.findSome?_cons]
  cases f a <;> rfl

/-- A path finds what its anchor and its parts say, one rule after the other. -/
theorem finds (hsegments : path.segments = anchor.steps ++ parts)
    (hparts : ∀ part ∈ parts, part.IsPart) (nonempty : path.segments ≠ []) (ctx : Context)
    (resolver : Option Resolver) :
    ctx.Finds resolver anchor parts (ctx.find? resolver path) := by
  rw [find?_eq hsegments hparts nonempty]
  constructor
  case outside =>
    intro hscopes
    rw [hscopes]
    rfl
  case bare =>
    rintro rfl start outer hscopes
    rw [hscopes]
    rfl
  case anchored =>
    rintro hmoves part rest rfl hpart start outer hscopes
    rw [hscopes, findIn?, first?_of_not_loopVariable hpart, if_pos hmoves, stepIn?]
    cases start.value with
    | none => rfl
    | some value => rfl
  case innermost =>
    rintro rfl part rest rfl hpart inner answering outer answer hscopes hinner hanswer
    rw [scopesFrom, findIn?_scopes, first?_of_not_loopVariable hpart, Anchor.moves,
      if_neg Bool.false_ne_true, hscopes, findSome?_split hinner, hanswer]
    rfl
  case unanswered =>
    rintro rfl part rest rfl hpart hnone
    rw [scopesFrom, findIn?_scopes, first?_of_not_loopVariable hpart, Anchor.moves,
      if_neg Bool.false_ne_true, List.findSome?_eq_none_iff.mpr hnone]
    rfl
  case iteration =>
    rintro name rest rfl hname inner iterating outer position hscopes hinner hloop
    obtain ⟨value, hvalue⟩ := exists_answer hname position
    refine ⟨value, hvalue, ?_⟩
    rw [findIn?_of_isLoopVariable hname, hscopes, findSome?_split hinner, hloop]
    simp only [Option.some_or, Option.bind_some, hvalue]
  case noIteration =>
    rintro name rest rfl hname hnone
    rw [findIn?_of_isLoopVariable hname, List.findSome?_eq_none_iff.mpr hnone]
    rfl

/-- The current value is that of the innermost scope; every other path that was read finds
what its anchor and its parts say. -/
theorem find?_follows_scopes {text : String} {path : Path} (hread : Path.parse text = .ok path) :
    (text = "." ∨ text = "this") ∧ (∀ (ctx : Context) (resolver : Option Resolver),
        ctx.find? resolver path = ctx.here.value.map (⟨·, ctx.here.fromResolver⟩)) ∨
      ∃ anchor parts, Path.IsWritten text anchor parts ∧
        path.segments = anchor.steps ++ parts ∧
        ∀ (ctx : Context) (resolver : Option Resolver),
          ctx.Finds resolver anchor parts (ctx.find? resolver path) := by
  rcases Path.exists_isWritten hread with ⟨htext, hself⟩ | ⟨anchor, parts, hwritten, hsegments⟩
  · refine Or.inl ⟨htext, fun ctx resolver => ?_⟩
    unfold find?
    rw [hself]
  · have nonempty := (Path.IsRead.wellFormed ⟨text, hread⟩).nonempty
    exact Or.inr ⟨anchor, parts, hwritten, hsegments, finds hsegments hwritten.isPart nonempty⟩

/-- Two scopes with an `a`, of which only that of the outer one has a `b`. -/
def obscured : Context :=
  ⟨.ofValue "inner" (.map [("a", .map [])]),
    [.ofValue "" (.map [("a", .map [("b", .bool true)])])]⟩

theorem hidden_path_is_absent :
    Path.parse "a.b" = .ok ⟨[.name "a", .name "b"], "a.b"⟩ ∧
      obscured.find? none ⟨[.name "a", .name "b"], "a.b"⟩ = none := by
  have hread : Path.parse "a.b" = .ok ⟨[.name "a", .name "b"], "a.b"⟩ := by decide +kernel
  refine ⟨hread, ?_⟩
  rcases find?_follows_scopes hread with ⟨htext, -⟩ | ⟨anchor, parts, -, hsegments, hfinds⟩
  · revert htext
    decide
  · cases anchor with
    | here =>
        obtain rfl : _ = parts := hsegments
        exact (hfinds obscured none).innermost rfl _ _ rfl rfl [] _ _ _ rfl (by simp) rfl
    | enclosing levels => cases hsegments
    | root => cases hsegments

end Context

end Stencil
