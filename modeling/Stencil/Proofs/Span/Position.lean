import Mathlib.Data.List.DropRight
import Stencil.Span

/-!
The places of a source. A place between two characters has the text before it, and
the line and the column of the place are counted in that text. The index of the lines
finds the same ones by its table.
-/

namespace Stencil

open Text

namespace Text

variable (before inside after : List Char)

/-- The offset behind a text splits it off. -/
theorem splitAt?_append : splitAt? (byteSize before) (before ++ after) = some (before, after) := by
  induction before with
  | nil =>
      rw [byteSize_nil, splitAt?]
      rfl
  | cons c before ih =>
      have hpos : 0 < c.utf8Size := c.utf8Size_pos
      obtain ⟨n, hn⟩ : ∃ n, byteSize (c :: before) = n + 1 :=
        Nat.exists_eq_succ_of_ne_zero (by rw [byteSize_cons]; omega)
      have hle : c.utf8Size ≤ n + 1 := by
        rw [← hn, byteSize_cons]
        omega
      have hrest : n + 1 - c.utf8Size = byteSize before := by
        rw [← hn, byteSize_cons]
        omega
      rw [hn, List.cons_append, splitAt?, if_pos hle, hrest, ih]
      rfl

theorem slice?_append :
    slice? (byteSize before) (byteSize before + byteSize inside) (before ++ (inside ++ after)) =
      some inside := by
  have hsize : byteSize before + byteSize inside - byteSize before = byteSize inside := by omega
  rw [slice?, if_neg (by omega), splitAt?_append, hsize]
  simp [splitAt?_append]

variable {before inside after}

/-- A text is split at exactly the offsets that lie between two characters. -/
theorem splitAt?_eq_some_iff {offset : Nat} {source : List Char} :
    splitAt? offset source = some (before, after) ↔
      source = before ++ after ∧ offset = byteSize before := by
  refine ⟨fun h => ?_, ?_⟩
  · induction source generalizing offset before with
    | nil =>
        cases offset with
        | zero =>
            rw [splitAt?] at h
            obtain ⟨rfl, rfl⟩ := Prod.mk.inj (Option.some.inj h)
            exact ⟨rfl, rfl⟩
        | succ n => simp only [splitAt?, reduceCtorEq] at h
    | cons c source ih =>
        cases offset with
        | zero =>
            rw [splitAt?] at h
            obtain ⟨rfl, rfl⟩ := Prod.mk.inj (Option.some.inj h)
            exact ⟨rfl, rfl⟩
        | succ n =>
            rw [splitAt?] at h
            split at h
            · next hle =>
                obtain ⟨⟨rest, after'⟩, hrest, hpair⟩ := Option.map_eq_some_iff.mp h
                obtain ⟨rfl, rfl⟩ := Prod.mk.inj hpair
                obtain ⟨rfl, hsize⟩ := ih hrest
                refine ⟨rfl, ?_⟩
                rw [byteSize_cons]
                omega
            · cases h
  · rintro ⟨rfl, rfl⟩
    exact splitAt?_append before after

theorem byteSize_toList (s : String) : byteSize s.toList = s.utf8ByteSize := by
  obtain ⟨cs, rfl⟩ : ∃ cs, s = String.ofList cs := ⟨s.toList, String.ofList_toList.symm⟩
  rw [String.toList_ofList]
  induction cs with
  | nil => rfl
  | cons c cs ih =>
      rw [byteSize_cons, ih, String.ofList_cons, String.utf8ByteSize_append,
        String.utf8ByteSize_singleton]

/-- The offsets between characters of a string are the sizes of the texts at its front. -/
theorem isValid_iff {source : String} {offset : Nat} :
    (String.Pos.Raw.mk offset).IsValid source ↔
      ∃ before after, source.toList = before ++ after ∧ offset = byteSize before := by
  rw [String.Pos.Raw.isValid_iff_exists_append]
  constructor
  · rintro ⟨first, second, rfl, hoffset⟩
    refine ⟨first.toList, second.toList, String.toList_append, ?_⟩
    rw [byteSize_toList]
    exact congrArg String.Pos.Raw.byteIdx hoffset
  · rintro ⟨before, after, hsource, rfl⟩
    refine ⟨String.ofList before, String.ofList after, ?_, ?_⟩
    · rw [← String.ofList_append, ← hsource, String.ofList_toList]
    · have hsize := byteSize_toList (String.ofList before)
      rw [String.toList_ofList] at hsize
      exact congrArg String.Pos.Raw.mk hsize

/-- Texts of one size at the front of the same text are the same. -/
theorem append_inj_of_byteSize {before' after' : List Char}
    (h : before ++ after = before' ++ after') (hsize : byteSize before = byteSize before') :
    before = before' ∧ after = after' := by
  have hsplit := splitAt?_append before after
  rw [h, hsize, splitAt?_append] at hsplit
  exact ⟨(Prod.mk.inj (Option.some.inj hsplit)).1.symm,
    (Prod.mk.inj (Option.some.inj hsplit)).2.symm⟩

theorem byteSize_pos (h : inside ≠ []) : 0 < byteSize inside := by
  obtain ⟨c, rest, rfl⟩ := List.exists_cons_of_ne_nil h
  have hpos : 0 < c.utf8Size := c.utf8Size_pos
  rw [byteSize_cons]
  omega

/-- Of two texts at the front of the same text the shorter is at the front of the other. -/
theorem prefix_of_byteSize_le {first second source : List Char} (hfirst : first <+: source)
    (hsecond : second <+: source) (hle : byteSize first ≤ byteSize second) : first <+: second := by
  rcases List.prefix_or_prefix_of_prefix hfirst hsecond with h | ⟨more, rfl⟩
  · exact h
  · have hnone : more = [] := by
      by_contra hsome
      have hpos := byteSize_pos hsome
      rw [byteSize_append] at hle
      omega
    exact ⟨[], by rw [hnone, List.append_nil, List.append_nil]⟩

/-- The line of the place behind a text. -/
def lineAfter (before : List Char) : Nat :=
  before.count '\n' + 1

/-- The column of the place behind a text: the characters since its last line break
are before it. -/
def columnAfter (before : List Char) : Nat :=
  (before.rtakeWhile (· ≠ '\n')).length + 1

end Text

namespace LineIndex

theorem startsAfter_append (offset : Nat) (first second : List Char) :
    startsAfter offset (first ++ second) =
      startsAfter offset first ++ startsAfter (offset + byteSize first) second := by
  induction first generalizing offset with
  | nil => rfl
  | cons c first ih =>
      simp only [List.cons_append, startsAfter, ih, byteSize_cons, Nat.add_assoc]
      split <;> rfl

/-- A line starts behind its break and not behind the end of the text. -/
theorem startsAfter_bounds (offset : Nat) (s : List Char) :
    ∀ start ∈ startsAfter offset s, offset < start ∧ start ≤ offset + byteSize s := by
  induction s generalizing offset with
  | nil =>
      intro start hstart
      cases hstart
  | cons c s ih =>
      have hpos : 0 < c.utf8Size := c.utf8Size_pos
      have hrest : ∀ start ∈ startsAfter (offset + c.utf8Size) s,
          offset < start ∧ start ≤ offset + byteSize (c :: s) := by
        intro start hstart
        have hbounds := ih (offset + c.utf8Size) start hstart
        rw [byteSize_cons]
        omega
      simp only [startsAfter]
      split
      · refine List.forall_mem_cons.mpr ⟨?_, hrest⟩
        rw [byteSize_cons]
        omega
      · exact hrest

theorem length_startsAfter (offset : Nat) (s : List Char) :
    (startsAfter offset s).length = s.count '\n' := by
  induction s generalizing offset with
  | nil => rfl
  | cons c s ih =>
      simp only [startsAfter, List.count_cons]
      split
      · rename_i hbreak
        simp [hbreak, ih]
      · rename_i hplain
        simp [hplain, ih]

variable (before after : List Char)

/-- The lines of a source start in the text before a place or behind it. -/
theorem starts_append : (ofSource (before ++ after)).starts =
    (0 :: startsAfter 0 before) ++ startsAfter (byteSize before) after := by
  rw [ofSource, startsAfter_append, Nat.zero_add]
  rfl

theorem le_of_mem_starts : ∀ start ∈ 0 :: startsAfter 0 before, start ≤ byteSize before := by
  refine List.forall_mem_cons.mpr ⟨Nat.zero_le _, fun start hstart => ?_⟩
  have hbounds := startsAfter_bounds 0 before start hstart
  omega

theorem lt_of_mem_startsAfter :
    ∀ start ∈ startsAfter (byteSize before) after, byteSize before < start :=
  fun start hstart => (startsAfter_bounds _ after start hstart).1

/-- The lines that start up to a place are those of the text before it. -/
theorem startsUpTo_eq :
    (ofSource (before ++ after)).startsUpTo (byteSize before) = 0 :: startsAfter 0 before := by
  have hbefore : ∀ start ∈ 0 :: startsAfter 0 before,
      decide (start ≤ byteSize before) = true := by
    intro start hstart
    rw [decide_eq_true_eq]
    exact le_of_mem_starts before start hstart
  have hafter : (startsAfter (byteSize before) after).takeWhile (· ≤ byteSize before) = [] := by
    cases hstarts : startsAfter (byteSize before) after with
    | nil => rfl
    | cons start starts =>
        have hless := lt_of_mem_startsAfter before after start (hstarts ▸ List.mem_cons_self ..)
        rw [List.takeWhile_cons_of_neg]
        simp only [decide_eq_true_eq]
        omega
  rw [startsUpTo, starts_append, List.takeWhile_append_of_pos hbefore, hafter, List.append_nil]

/-- The last line of a text starts where the text before its last line ends. -/
theorem getLastD_starts :
    (0 :: startsAfter 0 before).getLastD 0 = byteSize (before.rdropWhile (· ≠ '\n')) := by
  induction before using List.reverseRecOn with
  | nil => rfl
  | append_singleton before c ih =>
      rw [startsAfter_append, startsAfter, startsAfter, ← List.cons_append]
      split
      · rename_i hbreak
        rw [List.rdropWhile_concat_neg _ _ _ (by simpa using hbreak), List.getLastD_concat]
        simp
      · rename_i hplain
        rw [List.rdropWhile_concat_pos _ _ _ (by simpa using hplain), List.append_nil]
        exact ih

/-- At a place between two characters the index counts the lines and the column in
the text before it. -/
theorem span_eq (stop : Nat) :
    (ofSource (before ++ after)).span (byteSize before) stop =
      ⟨byteSize before, stop, lineAfter before, columnAfter before⟩ := by
  have hlast := List.rdropWhile_append_rtakeWhile (p := (· ≠ '\n')) (l := before)
  have hslice := slice?_append (before.rdropWhile (· ≠ '\n')) (before.rtakeWhile (· ≠ '\n')) after
  rw [← byteSize_append, ← List.append_assoc, hlast] at hslice
  have hsource : (ofSource (before ++ after)).source = before ++ after := rfl
  simp only [span, startsUpTo_eq, getLastD_starts, hsource, hslice]
  rw [List.length_cons, length_startsAfter]
  rfl

end LineIndex

namespace Span

/-- The span of a part of a source, given by the text before it. -/
def after (before inside : List Char) : Span :=
  ⟨byteSize before, byteSize before + byteSize inside, lineAfter before, columnAfter before⟩

/-- The span is that of this part of a source: it starts and ends between characters
of the source, around the part, and has the line and the column of its start. -/
def Covers (span : Span) (source inside : List Char) : Prop :=
  ∃ before rest, source = before ++ (inside ++ rest) ∧ span = .after before inside

theorem covers_span (before inside rest : List Char) :
    ((LineIndex.ofSource (before ++ (inside ++ rest))).span (byteSize before)
      (byteSize before + byteSize inside)).Covers (before ++ (inside ++ rest)) inside :=
  ⟨before, rest, rfl, LineIndex.span_eq before (inside ++ rest) _⟩

variable {span : Span} {source inside : List Char}

theorem Covers.stop_eq (h : span.Covers source inside) :
    span.stop = span.start + byteSize inside := by
  obtain ⟨before, rest, -, rfl⟩ := h
  rfl

theorem Covers.stop_le (h : span.Covers source inside) : span.stop ≤ byteSize source := by
  obtain ⟨before, rest, rfl, rfl⟩ := h
  simp only [after, byteSize_append]
  omega

/-- From the start of a part to the end of a later one is a part, too. -/
theorem Covers.through {first second : Span} {inside inside' : List Char}
    (hfirst : first.Covers source inside) (hsecond : second.Covers source inside')
    (hle : first.stop ≤ second.start) :
    ∃ middle, { first with stop := second.stop }.Covers source (inside ++ (middle ++ inside')) := by
  obtain ⟨before, rest, hsource, rfl⟩ := hfirst
  obtain ⟨before', rest', hsource', rfl⟩ := hsecond
  have hprefix : before ++ inside <+: before' := by
    have hfirst : before ++ inside <+: source := ⟨rest, by rw [hsource, List.append_assoc]⟩
    have hsecond : before' <+: source := ⟨inside' ++ rest', hsource'.symm⟩
    refine prefix_of_byteSize_le hfirst hsecond ?_
    rw [byteSize_append]
    exact hle
  obtain ⟨middle, rfl⟩ := hprefix
  refine ⟨middle, before, rest', ?_, ?_⟩
  · rw [hsource']
    simp only [List.append_assoc]
  · simp only [after, byteSize_append, Nat.add_assoc]

theorem Covers.slice (h : span.Covers source inside) :
    slice? span.start span.stop source = some inside := by
  obtain ⟨before, rest, rfl, rfl⟩ := h
  exact slice?_append before inside rest

end Span

end Stencil
