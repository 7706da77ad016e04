import Stencil.Proofs.Token.Cutting

/-!
The pieces of any source, between any delimiters. Put together they are the source, no
opening delimiter begins in the content of a tag, and cutting takes no more rounds than
the source has characters.
-/

namespace Stencil

open Text

namespace Piece

variable (marks : Delimiters)

theorem opener_brace (rest : List Char) :
    marks.opening ++ rest = opener marks (brace rest).1 ++ (brace rest).2 := by
  unfold brace opener
  split <;> simp

theorem upToOpening_append (s : List Char) :
    (upToOpening marks s).1 ++ (upToOpening marks s).2 = s := by
  unfold upToOpening
  split
  · rename_i before rest hcut
    rw [append_of_cut? hcut, List.append_assoc, List.drop_left]
  · exact List.append_nil s

theorem noneBegins_upToOpening (s : List Char) :
    NoneBegins marks.opening (upToOpening marks s).1 (upToOpening marks s).2 := by
  unfold upToOpening
  split
  · rename_i before rest hcut
    have hdrop : s.drop before.length = marks.opening ++ rest := by
      rw [append_of_cut? hcut, List.append_assoc, List.drop_left]
    simp only [hdrop]
    exact noneBegins_of_cut? hcut
  · rename_i hcut
    exact noneBegins_of_cut?_none hcut

/-- After an opening delimiter comes a tag, in whose content neither an opening delimiter
nor its closer begins, or the delimiter is not closed before the next one. -/
theorem afterOpener_cases (braced : Bool) (inner : List Char) :
    (∃ content after, afterOpener marks braced inner = (tag braced content, after) ∧
      inner = content ++ (closer marks braced ++ after) ∧
      NoneBegins marks.opening content (closer marks braced ++ after) ∧
      NoneBegins (closer marks braced) content (closer marks braced ++ after)) ∨
    ∃ rest after, afterOpener marks braced inner = (unclosed braced rest, after) ∧
      inner = rest ++ after := by
  have happend := upToOpening_append marks inner
  have hnone := noneBegins_upToOpening marks inner
  rcases hupTo : upToOpening marks inner with ⟨rest, resume⟩
  rw [hupTo] at happend hnone
  simp only [afterOpener, hupTo]
  split
  · rename_i content after hcut
    have hinner : inner = content ++ (closer marks braced ++ after) := by
      rw [append_of_cut? hcut, List.append_assoc]
    split
    · rename_i hlength
      obtain ⟨more, hrest⟩ : content <+: rest :=
        List.prefix_of_prefix_length_le (hinner ▸ List.prefix_append _ _)
          (happend ▸ List.prefix_append _ _) hlength
      refine Or.inl ⟨content, after, rfl, hinner, ?_, noneBegins_of_cut? hcut⟩
      have hafter : closer marks braced ++ after = more ++ resume := by
        have hboth : content ++ (closer marks braced ++ after) = content ++ (more ++ resume) := by
          rw [← hinner, ← happend, ← hrest, List.append_assoc]
        exact List.append_cancel_left hboth
      rw [← hrest] at hnone
      rw [hafter]
      exact hnone.front
    · exact Or.inr ⟨rest, resume, rfl, happend.symm⟩
  · exact Or.inr ⟨rest, resume, rfl, happend.symm⟩

/-- The piece can stand in front of the rest of a source: a text is not empty, and no
opening delimiter begins in the content of a tag. -/
def IsCut (piece : Piece) (rest : List Char) : Prop :=
  match piece with
  | text source => source ≠ []
  | unclosed .. => True
  | tag braced content => NoneBegins marks.opening content (closer marks braced ++ rest)

/-- Each of these pieces can stand in front of those behind it. -/
def AreCut : List Piece → Prop
  | [] => True
  | piece :: pieces => piece.IsCut marks (pieces.flatMap (source marks)) ∧ AreCut pieces

theorem source_ne_nil {piece : Piece} {rest : List Char} (h : piece.IsCut marks rest) :
    piece.source marks ≠ [] := by
  cases piece with
  | text source => exact h
  | unclosed braced rest => simp [source, opener, marks.opening_ne]
  | tag braced content => simp [source, opener, marks.opening_ne]

/-- The piece after an opening delimiter is a part of the source that can stand where it
is. -/
theorem afterOpener_isCut (rest : List Char) :
    let piece := afterOpener marks (brace rest).1 (brace rest).2
    marks.opening ++ rest = piece.1.source marks ++ piece.2 ∧ piece.1.IsCut marks piece.2 := by
  rw [opener_brace]
  rcases afterOpener_cases marks (brace rest).1 (brace rest).2 with
    ⟨content, after, hpiece, hinner, hnone, -⟩ | ⟨inside, after, hpiece, hinner⟩
  · rw [hpiece]
    exact ⟨by simp only [source, List.append_assoc, ← hinner], hnone⟩
  · rw [hpiece]
    exact ⟨by simp only [source, List.append_assoc, ← hinner], trivial⟩

/-- Nothing of a source is lost when it is cut, and nothing is added. -/
theorem flatMap_ofSource (s : List Char) : (ofSource marks s).flatMap (source marks) = s := by
  fun_induction ofSource marks s with
  | case1 s hempty => exact (List.isEmpty_iff.mp hempty).symm
  | case2 s hsome hcut => rw [List.flatMap_singleton, source]
  | case3 s hsome before rest hcut _ inner piece ih =>
      have hbefore : (if before.isEmpty then [] else [text before]).flatMap (source marks) =
          before := by
        split
        · rename_i hempty
          exact (List.isEmpty_iff.mp hempty).symm
        · rw [List.flatMap_singleton, source]
      rw [List.flatMap_append, List.flatMap_cons, hbefore, ih, append_of_cut? hcut,
        List.append_assoc, (afterOpener_isCut marks rest).1]

theorem areCut_ofSource (s : List Char) : AreCut marks (ofSource marks s) := by
  fun_induction ofSource marks s with
  | case1 => trivial
  | case2 s hsome hcut => exact ⟨by simpa [IsCut] using hsome, trivial⟩
  | case3 s hsome before rest hcut _ inner piece ih =>
      have hpiece : AreCut marks (piece.1 :: ofSource marks piece.2) := by
        refine ⟨?_, ih⟩
        rw [flatMap_ofSource]
        exact (afterOpener_isCut marks rest).2
      split
      · exact hpiece
      · rename_i hbefore
        exact ⟨by simpa [IsCut] using hbefore, hpiece⟩

theorem head?_brace {rest : List Char} (h : (brace rest).1 = false) :
    (brace rest).2.head? ≠ some '\x7b' := by
  unfold brace at h ⊢
  split
  · cases h
  · rename_i hfirst
    cases rest with
    | nil => simp
    | cons c rest =>
        rw [List.head?_cons]
        rintro hc
        obtain rfl := Option.some.inj hc
        exact hfirst rest rfl

/-- Between double braces a source in which every tag is closed is cut into texts and
closed tags. -/
theorem tagged_ofSource {s : List Char}
    (hclosed : ∀ braced rest, unclosed braced rest ∉ ofSource .braces s) :
    Tagged (ofSource .braces s) := by
  fun_induction ofSource Delimiters.braces s with
  | case1 => exact .nil
  | case2 s hsome hcut => exact .last (by simpa using hsome) (noneBegins_of_cut?_none hcut)
  | case3 s hsome before rest hcut _ inner piece ih =>
      have hbefore := (noneBegins_of_cut? hcut).of_append
      have hrest := ih fun braced rest hmem => hclosed braced rest (by simp [hmem])
      rcases afterOpener_cases .braces inner.1 inner.2 with
        ⟨content, after, hpiece, hinner, hopening, hclosing⟩ | ⟨inside, after, hpiece, -⟩
      · have hcontent : IsClosed inner.1 content := by
          refine ⟨hopening.of_append, hclosing.of_append, fun hbraced hfirst => ?_⟩
          refine head?_brace hbraced ?_
          rw [hinner, List.head?_append, hfirst]
          rfl
        rw [show piece = (tag inner.1 content, after) from hpiece] at hrest ⊢
        split
        · exact .tag hcontent hrest
        · rename_i htext
          exact .textTag (by simpa using htext) hbefore hcontent hrest
      · exfalso
        refine hclosed inner.1 inside ?_
        rw [show piece = (unclosed inner.1 inside, after) from hpiece]
        simp

/-- The pieces of a source if cutting ends within so many rounds; a round goes up to the
end of the next tag. -/
def cutWithin? : Nat → List Char → Option (List Piece)
  | _, [] => some []
  | 0, _ :: _ => none
  | rounds + 1, c :: s =>
      match cut? marks.opening (c :: s) with
      | none => some [text (c :: s)]
      | some (before, rest) =>
          let piece := afterOpener marks (brace rest).1 (brace rest).2
          (cutWithin? rounds piece.2).map fun pieces =>
            (if before.isEmpty then [] else [text before]) ++ piece.1 :: pieces

/-- Cutting ends: it takes at most as many rounds as the source has characters. -/
theorem cutWithin?_length {rounds : Nat} {s : List Char} (h : s.length ≤ rounds) :
    cutWithin? marks rounds s = some (ofSource marks s) := by
  induction rounds generalizing s with
  | zero =>
      rw [List.length_eq_zero_iff.mp (Nat.le_zero.mp h), ofSource_nil, cutWithin?]
  | succ rounds ih =>
      cases s with
      | nil => rw [ofSource_nil, cutWithin?]
      | cons c s =>
          rw [cutWithin?]
          split
          · rename_i hcut
            rw [ofSource_text (List.cons_ne_nil c s) hcut]
          · rename_i before rest hcut
            have hless := length_lt_of_cut? marks.opening_ne hcut
            have hle := length_afterOpener_le marks (brace rest).1 (brace rest).2
            have hbrace := length_brace_le rest
            simp only [ofSource_cut marks hcut]
            rw [ih (by omega)]
            rfl

end Piece

end Stencil
