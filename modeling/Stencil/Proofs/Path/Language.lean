import Stencil.Proofs.Number.Decimal
import Stencil.Proofs.Path.Extension

/-!
The language of paths. A path is the current value, or an anchor and runs of name
characters between points, where the anchor is the root, some steps to enclosing scopes, or
nothing. The reader of paths accepts the texts of this language and no others, and a text of
it has one reading.
-/

namespace Stencil

open Numeral

/-- A run between points and the segment that it denotes: digits denote a position, which
must fit 64 bits, and other name characters a name. -/
inductive RunText : List Char → Segment → Prop where
  | index {run : List Char} (nonempty : run ≠ []) (digits : run.all Char.isDigit = true)
      (fits : ofDigits run < unsignedLimit) : RunText run (.index (ofDigits run))
  | name {run : List Char} (part : Path.IsPartText run)
      (notDigits : ¬run.all Char.isDigit = true) : RunText run (.name (String.ofList run))

/-- Runs between points, at least one. -/
inductive RunsText : List Char → List Segment → Prop where
  | last {run : List Char} {segment : Segment} (only : RunText run segment) :
      RunsText run [segment]
  | cons {run s : List Char} {segment : Segment} {segments : List Segment}
      (first : RunText run segment) (more : RunsText s segments) :
      RunsText (run ++ '.' :: s) (segment :: segments)

/-- So many steps to enclosing scopes. -/
def Path.stepsText : Nat → List Char
  | 0 => []
  | k + 1 => '.' :: '.' :: '/' :: stepsText k

/-- The texts of paths and the segments that they denote. The word `this` is the current
value where it stands alone. -/
inductive PathText : List Char → List Segment → Prop where
  | point : PathText ['.'] [.self]
  | word : PathText ['t', 'h', 'i', 's'] [.self]
  | root : PathText ['~'] [.root]
  | rootPoint : PathText ['~', '.'] [.root]
  | rooted (point : Bool) {s : List Char} {segments : List Segment}
      (runs : RunsText s segments) :
      PathText ('~' :: ((if point then ['.'] else []) ++ s)) (.root :: segments)
  | inner (k : Nat) {s : List Char} {segments : List Segment} (runs : RunsText s segments)
      (notWord : k = 0 → s ≠ ['t', 'h', 'i', 's']) :
      PathText (Path.stepsText k ++ s) (List.replicate k .parent ++ segments)
  | outer {k : Nat} (positive : 0 < k) :
      PathText (Path.stepsText k) (List.replicate k .parent)
  | outerPoints (k : Nat) :
      PathText (Path.stepsText k ++ ['.', '.']) (List.replicate (k + 1) .parent)

theorem runText_iff_read {text : String} {run : List Char} {segment : Segment} :
    RunText run segment ↔ Segment.read text run = .ok segment := by
  rw [Segment.read_eq_ok_iff]
  constructor
  · rintro (⟨nonempty, digits, fits⟩ | ⟨part, notDigits⟩)
    · exact ⟨nonempty, Or.inl ⟨digits, fits, rfl⟩⟩
    · exact ⟨part.nonempty, Or.inr ⟨notDigits, part.chars, rfl⟩⟩
  · rintro ⟨nonempty, ⟨digits, fits, rfl⟩ | ⟨notDigits, chars, rfl⟩⟩
    · exact .index nonempty digits fits
    · exact .name ⟨nonempty, chars⟩ notDigits

theorem RunText.isPartText {run : List Char} {segment : Segment} (h : RunText run segment) :
    Path.IsPartText run := by
  cases h with
  | index nonempty digits fits =>
      exact ⟨nonempty, fun c hc => isNameChar_of_isDigit (List.all_eq_true.mp digits c hc)⟩
  | name part notDigits => exact part

namespace RunsText

variable {s : List Char} {segments : List Segment}

theorem exists_cons (h : RunsText s segments) :
    ∃ c t, s = c :: t ∧ c ≠ '.' ∧ c ≠ '~' := by
  cases h with
  | last only =>
      obtain ⟨c, t, rfl, hpoint, -, hroot⟩ := only.isPartText.exists_cons
      exact ⟨c, t, rfl, hpoint, hroot⟩
  | cons first more =>
      obtain ⟨c, t, rfl, hpoint, -, hroot⟩ := first.isPartText.exists_cons
      exact ⟨c, _, rfl, hpoint, hroot⟩

theorem nonempty (h : RunsText s segments) : s ≠ [] := by
  obtain ⟨c, t, rfl, -⟩ := h.exists_cons
  exact List.cons_ne_nil c t

theorem ne_current (h : RunsText s segments) : segments ≠ [.self] := by
  rintro rfl
  cases h with
  | last only => cases only
  | cons first more => cases more

/-- Runs are what stands between the points. -/
theorem splitOn (h : RunsText s segments) :
    List.Forall₂ RunText (Text.splitOn '.' s) segments := by
  induction h with
  | last only =>
      rw [Text.splitOn_of_not_mem only.isPartText.not_mem]
      exact .cons only .nil
  | cons first more ih =>
      rw [Text.splitOn_append, Text.splitOn_of_not_mem first.isPartText.not_mem]
      exact .cons first ih

end RunsText

/-- A text that starts with a part, up to the first point, and goes on behind it. -/
theorem Text.splitOn_cases (separator : Char) (s : List Char) :
    (separator ∉ s ∧ Text.splitOn separator s = [s]) ∨
      ∃ part rest, s = part ++ separator :: rest ∧ rest.length < s.length ∧
        Text.splitOn separator s = part :: Text.splitOn separator rest := by
  by_cases hmem : separator ∈ s
  · obtain ⟨part, rest, rfl, hpart⟩ := List.eq_append_cons_of_mem hmem
    refine Or.inr ⟨part, rest, rfl, by simp; omega, ?_⟩
    rw [Text.splitOn_append, Text.splitOn_of_not_mem hpart, List.singleton_append]
  · exact Or.inl ⟨hmem, Text.splitOn_of_not_mem hmem⟩

theorem runsText_of_splitOn {s : List Char} {segments : List Segment}
    (h : List.Forall₂ RunText (Text.splitOn '.' s) segments) : RunsText s segments := by
  -- the split goes on behind the first point, with a text that is shorter
  induction hn : s.length using Nat.strong_induction_on generalizing s segments with
  | h n ih =>
      rcases Text.splitOn_cases '.' s with ⟨-, hsplit⟩ | ⟨run, rest, hs, hless, hsplit⟩
      · rw [hsplit] at h
        obtain ⟨segment, none, only, hnone, rfl⟩ := List.forall₂_cons_left_iff.mp h
        cases hnone
        exact .last only
      · rw [hsplit] at h
        obtain ⟨segment, others, first, more, rfl⟩ := List.forall₂_cons_left_iff.mp h
        rw [hs]
        exact .cons first (ih rest.length (hn ▸ hless) more rfl)

/-- The runs of a text are read as their segments. -/
theorem runsText_iff_read {text : String} {s : List Char} {segments : List Segment} :
    RunsText s segments ↔ (Text.splitOn '.' s).mapM (Segment.read text) = .ok segments := by
  rw [Path.mapM_read_iff]
  constructor
  · intro h
    exact h.splitOn.imp fun _ _ => runText_iff_read.mp
  · intro h
    exact runsText_of_splitOn (h.imp fun _ _ => runText_iff_read.mpr)

namespace Path

theorem climb_stepsText (k : Nat) (s : List Char) :
    climb (stepsText k ++ s) = (List.replicate k .parent ++ (climb s).1, (climb s).2) := by
  induction k with
  | zero => rfl
  | succ k ih => simp only [stepsText, List.cons_append, climb, ih, List.replicate_succ]

/-- What is taken off the front of a text as steps, the last of which may lack its slash. -/
theorem climb_cases (s : List Char) :
    ∃ k, s = stepsText k ++ (climb s).2 ∧ (climb s).1 = List.replicate k .parent ∨
      s = stepsText k ++ ['.', '.'] ∧ climb s = (List.replicate (k + 1) .parent, []) := by
  fun_induction climb s with
  | case1 s steps rest hclimb ih =>
      rw [hclimb] at ih
      obtain ⟨k, ⟨hs, hsteps⟩ | ⟨hs, hsteps⟩⟩ := ih
      · refine ⟨k + 1, Or.inl ⟨?_, congrArg _ hsteps⟩⟩
        exact congrArg ('.' :: '.' :: '/' :: ·) hs
      · obtain ⟨rfl, rfl⟩ := Prod.mk.inj hsteps
        exact ⟨k + 1, Or.inr ⟨congrArg ('.' :: '.' :: '/' :: ·) hs, rfl⟩⟩
  | case2 => exact ⟨0, Or.inr ⟨rfl, rfl⟩⟩
  | case3 => exact ⟨0, Or.inl ⟨rfl, rfl⟩⟩

theorem climb_of_runs {s : List Char} {segments : List Segment} (h : RunsText s segments) :
    climb s = ([], s) := by
  obtain ⟨c, t, rfl, hpoint, -⟩ := h.exists_cons
  exact climb_eq_self (fun t heq => hpoint (List.cons.inj heq).1)
    (fun heq => hpoint (List.cons.inj heq).1)

/-- A point after the root sign belongs to the anchor. -/
theorem anchor_rooted (point : Bool) {s : List Char} {segments : List Segment}
    (h : RunsText s segments) :
    anchor ('~' :: ((if point then ['.'] else []) ++ s)) = ([.root], s) := by
  cases point with
  | true => rfl
  | false =>
      obtain ⟨c, t, rfl, hpoint, -⟩ := h.exists_cons
      simp only [Bool.false_eq_true, if_false, List.nil_append]
      unfold anchor
      split
      · rename_i heq
        exact absurd (List.cons.inj (List.cons.inj heq).2).1 hpoint
      · rename_i heq
        rw [(List.cons.inj heq).2]
      · rename_i heq
        exact absurd rfl (heq _)

theorem anchor_stepsText (k : Nat) {s : List Char} (h : s.head? ≠ some '~') :
    anchor (stepsText k ++ s) = (List.replicate k .parent ++ (climb s).1, (climb s).2) := by
  rw [← climb_stepsText]
  apply anchor_eq_climb
  cases k with
  | zero => exact h
  | succ k => simp [stepsText]

variable {text : String}

/-- A text other than those of the current value is read as its anchor and its parts. -/
theorem parse_of_areRead (nonempty : text ≠ "") (notCurrent : ¬(text = "." ∨ text = "this"))
    {parts : List Segment} (h : AreRead text (anchor text.toList).2 parts) :
    parse text = .ok ⟨(anchor text.toList).1 ++ parts, text⟩ := by
  have hempty : ¬text.isEmpty = true := fun hnil => nonempty (String.isEmpty_iff.mp hnil)
  rw [parse, if_neg hempty, if_neg notCurrent]
  obtain ⟨hrest, rfl⟩ | ⟨hrest, hread⟩ := h
  · simp only [hrest]
    rfl
  · have hsome : ¬(anchor text.toList).2.isEmpty = true :=
      fun hnil => hrest (List.isEmpty_iff.mp hnil)
    simp only [if_neg hsome, hread]
    rfl

end Path

namespace PathText

open Stencil.Path

variable {s : List Char} {segments : List Segment}

/-- An anchor and what stands behind it. -/
theorem of_anchor {text : String} (nonempty : s ≠ []) (notWord : s ≠ ['t', 'h', 'i', 's'])
    (h : AreRead text (anchor s).2 segments) : PathText s ((anchor s).1 ++ segments) := by
  have hruns (rest : List Char) (h : AreRead text rest segments) :
      rest = [] ∧ segments = [] ∨ RunsText rest segments :=
    h.imp_right fun ⟨_, hread⟩ => runsText_iff_read.mpr hread
  unfold anchor at h ⊢
  split at h
  · rename_i rest
    rcases hruns rest h with ⟨rfl, rfl⟩ | hruns
    · exact .rootPoint
    · exact .rooted true hruns
  · rename_i rest _
    rcases hruns rest h with ⟨rfl, rfl⟩ | hruns
    · exact .root
    · exact .rooted false hruns
  · obtain ⟨k, ⟨hs, hsteps⟩ | ⟨hs, hclimb⟩⟩ := climb_cases s
    · rw [hsteps]
      rcases hruns _ h with ⟨hrest, rfl⟩ | hruns
      · rw [hrest, List.append_nil] at hs
        rw [List.append_nil, hs]
        refine .outer (Nat.pos_of_ne_zero ?_)
        rintro rfl
        exact nonempty hs
      · have hword : k = 0 → (climb s).2 ≠ ['t', 'h', 'i', 's'] := by
          rintro rfl hword
          exact notWord (hs.trans hword)
        have hinner := PathText.inner k hruns hword
        rwa [← hs] at hinner
    · rw [hclimb] at h ⊢
      obtain ⟨-, rfl⟩ | ⟨hsome, -⟩ := h
      · rw [List.append_nil, hs]
        exact .outerPoints k
      · exact absurd rfl hsome

/-- What the reader of paths splits off is the anchor of the language. -/
theorem anchor_append (h : PathText s segments) (notCurrent : segments ≠ [.self]) :
    ∃ parts, segments = (anchor s).1 ++ parts ∧
      ((anchor s).2 = [] ∧ parts = [] ∨ RunsText (anchor s).2 parts) := by
  cases h with
  | point => exact absurd rfl notCurrent
  | word => exact absurd rfl notCurrent
  | root => exact ⟨[], rfl, Or.inl ⟨rfl, rfl⟩⟩
  | rootPoint => exact ⟨[], rfl, Or.inl ⟨rfl, rfl⟩⟩
  | rooted point runs =>
      rw [anchor_rooted point runs]
      exact ⟨_, rfl, Or.inr runs⟩
  | inner k runs notWord =>
      obtain ⟨c, t, rfl, -, hroot⟩ := runs.exists_cons
      rw [anchor_stepsText k (by simpa using hroot), climb_of_runs runs, List.append_nil]
      exact ⟨_, rfl, Or.inr runs⟩
  | @outer k positive =>
      have hanchor := anchor_stepsText k (s := []) (by simp)
      have hclimb : climb [] = ([], []) := rfl
      rw [List.append_nil, hclimb, List.append_nil] at hanchor
      rw [hanchor]
      exact ⟨[], (List.append_nil _).symm, Or.inl ⟨rfl, rfl⟩⟩
  | outerPoints k =>
      rw [anchor_stepsText k (by simp), List.replicate_succ']
      exact ⟨[], (List.append_nil _).symm, Or.inl ⟨rfl, rfl⟩⟩

/-- Only these two texts denote the current value. -/
theorem current_iff (h : PathText s segments) :
    segments = [.self] ↔ s = ['.'] ∨ s = ['t', 'h', 'i', 's'] := by
  constructor
  · rintro rfl
    generalize hself : [Segment.self] = current at h
    cases h with
    | point => exact Or.inl rfl
    | word => exact Or.inr rfl
    | root | rootPoint | rooted => cases hself
    | inner k runs notWord =>
        cases k with
        | zero => exact absurd hself.symm runs.ne_current
        | succ k => cases hself
    | @outer k positive =>
        cases k with
        | zero => cases hself
        | succ k => cases hself
    | outerPoints k => cases hself
  · intro hcurrent
    cases h with
    | point => rfl
    | word => rfl
    | root | rootPoint | rooted => simp at hcurrent
    | inner k runs notWord =>
        cases k with
        | zero =>
            obtain ⟨c, t, rfl, hpoint, -⟩ := runs.exists_cons
            rcases hcurrent with hpointed | hword
            · exact absurd (List.cons.inj hpointed).1 hpoint
            · exact absurd hword (notWord rfl)
        | succ k => simp [stepsText] at hcurrent
    | @outer k positive =>
        cases k with
        | zero => cases positive
        | succ k => simp [stepsText] at hcurrent
    | outerPoints k => cases k <;> simp [stepsText] at hcurrent

theorem nonempty (h : PathText s segments) : s ≠ [] := by
  cases h with
  | point | word | root | rootPoint | rooted => exact List.cons_ne_nil _ _
  | inner k runs notWord => simp [runs.nonempty]
  | @outer k positive =>
      cases k with
      | zero => cases positive
      | succ k => exact List.cons_ne_nil _ _
  | outerPoints k => simp

end PathText

namespace Path

/-- The reader of paths makes of a text the segments that it denotes. -/
theorem parse_of_pathText {text : String} {segments : List Segment}
    (h : PathText text.toList segments) : parse text = .ok ⟨segments, text⟩ := by
  by_cases hself : segments = [.self]
  · subst hself
    have hcurrent : text = "." ∨ text = "this" :=
      (h.current_iff.mp rfl).imp (fun hpoint => String.toList_injective hpoint)
        (fun hword => String.toList_injective hword)
    rcases hcurrent with rfl | rfl <;> rfl
  · obtain ⟨parts, hsegments, hparts⟩ := h.anchor_append hself
    rw [hsegments]
    refine parse_of_areRead ?_ ?_ ?_
    · rintro rfl
      exact h.nonempty rfl
    · rintro (rfl | rfl)
      · exact hself (h.current_iff.mpr (Or.inl rfl))
      · exact hself (h.current_iff.mpr (Or.inr rfl))
    · exact hparts.imp_right fun hruns => ⟨hruns.nonempty, runsText_iff_read.mp hruns⟩

theorem pathText_of_parse {text : String} {path : Path} (h : parse text = .ok path) :
    PathText text.toList path.segments := by
  obtain ⟨rfl | rfl, hself⟩ | ⟨hempty, hcurrent, parts, hparts, hsegments⟩ := parse_cases h
  · rw [hself]
    exact .point
  · rw [hself]
    exact .word
  · rw [hsegments]
    refine .of_anchor (by simpa using hempty) ?_ hparts
    exact fun hword => hcurrent (Or.inr (String.toList_injective hword))

end Path

/-- How a segment is written: a position in decimal, and a name as it is. -/
def Segment.canonical : Segment → List Char
  | .name text => text.toList
  | .index position => (toString position).toList
  | .self => ['.']
  | .parent => ['.', '.']
  | .root => ['~']

/-- Segments between points. -/
def Segment.joined (segments : List Segment) : List Char :=
  ['.'].intercalate (segments.map Segment.canonical)

/-- How the segments of a path are written: the root sign with a point behind it if
anything follows, each step to an enclosing scope with its slash. -/
def Path.canonical : List Segment → List Char
  | .parent :: segments => '.' :: '.' :: '/' :: canonical segments
  | .root :: segments =>
      '~' :: ((if segments.isEmpty then [] else ['.']) ++ Segment.joined segments)
  | segments => Segment.joined segments

theorem Path.canonical_replicate (k : Nat) (segments : List Segment) :
    canonical (List.replicate k .parent ++ segments) = stepsText k ++ canonical segments := by
  induction k with
  | zero => rfl
  | succ k ih =>
      rw [List.replicate_succ, List.cons_append, canonical, ih]
      rfl

theorem RunText.canonical {run : List Char} {segment : Segment} (h : RunText run segment) :
    RunText segment.canonical segment := by
  cases h with
  | index nonempty digits fits =>
      have hshown : (Segment.index (ofDigits run)).canonical =
          Nat.toDigits 10 (ofDigits run) := by
        rw [Segment.canonical, Nat.toString_eq_repr, Nat.toList_repr]
      rw [hshown]
      have hindex : RunText (Nat.toDigits 10 (ofDigits run)) _ := .index Nat.toDigits_ne_nil
        (List.all_eq_true.mpr isDigit_of_mem_toDigits) (by rwa [ofDigits_toDigits])
      rwa [ofDigits_toDigits] at hindex
  | name part notDigits =>
      rw [Segment.canonical, String.toList_ofList]
      exact .name part notDigits

theorem RunsText.joined {s : List Char} {segments : List Segment} (h : RunsText s segments) :
    RunsText (Segment.joined segments) segments := by
  induction h with
  | last only =>
      rw [Segment.joined, List.map_singleton, List.intercalate_singleton]
      exact .last only.canonical
  | @cons run s segment segments first more ih =>
      have hsegments : segments.map Segment.canonical ≠ [] := by
        rintro hnil
        obtain rfl := List.map_eq_nil_iff.mp hnil
        cases more
      rw [Segment.joined, List.map_cons, List.intercalate_cons_of_ne_nil hsegments,
        List.append_assoc]
      exact .cons first.canonical ih

/-- Only the word itself is written like it. -/
theorem RunsText.joined_ne_word {s : List Char} {segments : List Segment}
    (h : RunsText s segments) (hs : s ≠ ['t', 'h', 'i', 's']) :
    Segment.joined segments ≠ ['t', 'h', 'i', 's'] := by
  intro hword
  -- the word has no point, so that a single run would have to be it
  have hpoint : '.' ∉ Segment.joined segments := by
    rw [hword]
    decide
  cases h with
  | last only =>
      rw [Segment.joined, List.map_singleton, List.intercalate_singleton] at hword
      cases only with
      | index nonempty digits fits =>
          have hletter := isDigit_of_mem_toDigits (n := ofDigits s) 't' (by
            rw [Segment.canonical, Nat.toString_eq_repr, Nat.toList_repr] at hword
            rw [hword]
            exact List.mem_cons_self ..)
          cases hletter
      | name part notDigits =>
          rw [Segment.canonical, String.toList_ofList] at hword
          exact hs hword
  | cons first more =>
      cases more with
      | last only => simp [Segment.joined, List.intercalate_cons_cons] at hpoint
      | cons second more => simp [Segment.joined, List.intercalate_cons_cons] at hpoint

/-- Runs are written between points, without an anchor. -/
theorem RunsText.canonical_eq {s : List Char} {segments : List Segment}
    (h : RunsText s segments) : Path.canonical segments = Segment.joined segments := by
  cases h with
  | last only => cases only <;> rfl
  | cons first more => cases first <;> rfl

/-- How the segments of a path are written denotes these segments. -/
theorem PathText.canonical {s : List Char} {segments : List Segment} (h : PathText s segments) :
    PathText (Path.canonical segments) segments := by
  cases h with
  | point => exact .point
  | word => exact .point
  | root => exact .root
  | rootPoint => exact .root
  | @rooted point s segments runs =>
      have hsome : ¬segments.isEmpty = true := by
        cases runs <;> simp
      rw [Path.canonical, if_neg hsome]
      exact .rooted true runs.joined
  | inner k runs notWord =>
      rw [Path.canonical_replicate, runs.canonical_eq]
      exact .inner k runs.joined fun hk => runs.joined_ne_word (notWord hk)
  | @outer k positive =>
      have hsteps := Path.canonical_replicate k []
      rw [List.append_nil] at hsteps
      rw [hsteps]
      exact (List.append_nil (Path.stepsText k)).symm ▸ .outer positive
  | outerPoints k =>
      have hsteps := Path.canonical_replicate (k + 1) []
      rw [List.append_nil] at hsteps
      rw [hsteps]
      exact (List.append_nil (Path.stepsText (k + 1))).symm ▸ .outer (Nat.succ_pos k)

/-- The reader of paths accepts exactly the texts of the language and makes of each the
segments that it denotes, of which there is one list. Written again, the segments of a path
are read as the same ones. -/
theorem Path.parse_accepts_language (text : String) :
    (∀ path, parse text = .ok path ↔ path.text = text ∧ PathText text.toList path.segments) ∧
    (∀ first second, PathText text.toList first → PathText text.toList second →
      first = second) ∧
    ∀ path, parse text = .ok path →
      parse (String.ofList (canonical path.segments)) =
        .ok ⟨path.segments, String.ofList (canonical path.segments)⟩ := by
  refine ⟨fun path => ⟨fun h => ⟨(isPathText_of_parse h).1, pathText_of_parse h⟩, ?_⟩, ?_, ?_⟩
  · rintro ⟨rfl, h⟩
    exact parse_of_pathText h
  · intro first second hfirst hsecond
    have hsame := (parse_of_pathText hfirst).symm.trans (parse_of_pathText hsecond)
    exact congrArg Path.segments (Except.ok.inj hsame)
  · intro path h
    apply parse_of_pathText
    rw [String.toList_ofList]
    exact (pathText_of_parse h).canonical

/-- A path with a position that is padded with zeros. -/
theorem Path.parse_padded_position :
    PathText "../007.é".toList [.parent, .index 7, .name "é"] ∧
    parse "../007.é" = .ok ⟨[.parent, .index 7, .name "é"], "../007.é"⟩ ∧
    parse "../7.é" = .ok ⟨[.parent, .index 7, .name "é"], "../7.é"⟩ := by
  obtain ⟨haccepts, -, hagain⟩ := parse_accepts_language "../007.é"
  have hparse : parse "../007.é" = .ok ⟨[.parent, .index 7, .name "é"], "../007.é"⟩ := by
    decide +kernel
  have hcanonical : String.ofList (canonical [.parent, .index 7, .name "é"]) = "../7.é" := by
    decide +kernel
  refine ⟨((haccepts _).mp hparse).2, hparse, ?_⟩
  have hwritten := hagain _ hparse
  rwa [hcanonical] at hwritten

end Stencil
