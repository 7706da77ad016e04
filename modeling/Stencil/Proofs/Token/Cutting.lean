import Stencil.Proofs.Text.Occurrence
import Stencil.Token.Piece

/-!
Cutting a source into the pieces that it was put together from. With double
braces as delimiters, pieces come back as they are if no text and no content of
a tag runs into the delimiter behind it. A tag ends at its closer whatever follows,
so a source that ends in a tag is cut alike in front of any other.
-/

namespace Stencil

open Text

def Delimiters.braces : Delimiters :=
  ⟨['\x7b', '\x7b'], ['\x7d', '\x7d'], by simp, by simp⟩

/-- A content that ends where its tag is closed. Without braces of its own it
must not start with one. -/
structure Piece.IsContent (braced : Bool) (content : List Char) : Prop where
  noOpening : ¬HasPair '\x7b' content
  clear : ClearOf '\x7d' content
  noBrace : braced = false → content.head? ≠ some '\x7b'

/-- A content in which neither a tag nor the end of its own begins. Without braces of
its own it must not start with one. -/
structure Piece.IsClosed (braced : Bool) (content : List Char) : Prop where
  noOpening : NoneBegins Delimiters.braces.opening content (closer .braces braced)
  noClosing : NoneBegins (closer .braces braced) content (closer .braces braced)
  noBrace : braced = false → content.head? ≠ some '\x7b'

/-- A text that ends where the tag behind it starts. -/
structure Piece.IsBefore (text : List Char) : Prop where
  nonempty : text ≠ []
  clear : ClearOf '\x7b' text

/-- Pieces that come back when their source is cut. Texts are separated by tags. -/
inductive WellCut : List Piece → Prop where
  | nil : WellCut []
  | last {text : List Char} (hsome : text ≠ []) (hpair : ¬HasPair '\x7b' text) :
      WellCut [.text text]
  | tag {braced : Bool} {content : List Char} {pieces : List Piece}
      (hcontent : Piece.IsContent braced content) (rest : WellCut pieces) :
      WellCut (.tag braced content :: pieces)
  | textTag {text : List Char} {braced : Bool} {content : List Char} {pieces : List Piece}
      (htext : Piece.IsBefore text) (hcontent : Piece.IsContent braced content)
      (rest : WellCut pieces) : WellCut (.text text :: .tag braced content :: pieces)

/-- Texts and closed tags, as they come from cutting a source in which every tag is
closed. A tag begins neither in a text nor in the content of another tag. -/
inductive Tagged : List Piece → Prop where
  | nil : Tagged []
  | last {text : List Char} (hsome : text ≠ [])
      (hnone : NoneBegins Delimiters.braces.opening text []) : Tagged [.text text]
  | tag {braced : Bool} {content : List Char} {pieces : List Piece}
      (hclosed : Piece.IsClosed braced content) (rest : Tagged pieces) :
      Tagged (.tag braced content :: pieces)
  | textTag {text : List Char} {braced : Bool} {content : List Char} {pieces : List Piece}
      (hsome : text ≠ [])
      (hnone : NoneBegins Delimiters.braces.opening text Delimiters.braces.opening)
      (hclosed : Piece.IsClosed braced content) (rest : Tagged pieces) :
      Tagged (.text text :: .tag braced content :: pieces)

namespace Piece

variable {marks : Delimiters} {s before rest : List Char}

theorem ofSource_nil (marks : Delimiters) : ofSource marks [] = [] := by
  rw [ofSource]
  rfl

theorem ofSource_text (hsome : s ≠ []) (hcut : cut? marks.opening s = none) :
    ofSource marks s = [text s] := by
  rw [ofSource, if_neg (by simpa using hsome)]
  split
  · rfl
  · rename_i h
    cases hcut.symm.trans h

/-- A source with an opening delimiter is a text, if there is one, the piece
after the delimiter and the pieces of the rest. -/
theorem ofSource_cut (marks : Delimiters) (hcut : cut? marks.opening s = some (before, rest)) :
    ofSource marks s =
      let piece := afterOpener marks (brace rest).1 (brace rest).2
      (if before.isEmpty then [] else [text before]) ++ piece.1 :: ofSource marks piece.2 := by
  have hsome : ¬s.isEmpty = true := by
    intro hnil
    rw [List.isEmpty_iff.mp hnil, cut?, if_neg (by simpa using marks.opening_ne)] at hcut
    cases hcut
  rw [ofSource, if_neg hsome]
  split
  · rename_i h
    cases hcut.symm.trans h
  · rename_i before' rest' h
    obtain ⟨rfl, rfl⟩ := Prod.mk.inj (Option.some.inj (hcut.symm.trans h))
    rfl

variable {braced : Bool} {content after : List Char}

/-- The brace of a tag is found behind its opening delimiter. -/
theorem brace_opener (hfirst : braced = false → s.head? ≠ some '\x7b') :
    brace ((if braced then ['\x7b'] else []) ++ s) = (braced, s) := by
  cases braced with
  | true => rfl
  | false =>
      simp only [Bool.false_eq_true, if_false, List.nil_append]
      unfold brace
      split
      · exact absurd rfl (hfirst rfl)
      · rfl

/-- A tag is closed by its closer, which begins nowhere in its content. -/
theorem afterOpener_tag (marks : Delimiters)
    (hopening : NoneBegins marks.opening content (closer marks braced ++ after))
    (hclosing : NoneBegins (closer marks braced) content (closer marks braced ++ after)) :
    afterOpener marks braced (content ++ (closer marks braced ++ after)) =
      (tag braced content, after) := by
  have hlength : content.length ≤
      (upToOpening marks (content ++ (closer marks braced ++ after))).1.length := by
    unfold upToOpening
    split
    · rename_i before rest hcut
      exact hopening.length_le hcut
    · simp
  unfold afterOpener
  simp only [hclosing.cut?, if_pos hlength]

namespace IsClosed

variable (h : IsClosed braced content)
include h

theorem afterOpener_eq (after : List Char) :
    afterOpener .braces braced (content ++ (closer .braces braced ++ after)) =
      (tag braced content, after) := by
  refine afterOpener_tag .braces (h.noOpening.extend ?_ after) (h.noClosing.extend ?_ after)
  · cases braced <;> decide
  · exact Nat.le_succ _

theorem head?_ne (after : List Char) (hbraced : braced = false) :
    (content ++ (closer .braces braced ++ after)).head? ≠ some '\x7b' := by
  subst hbraced
  cases hcontent : content with
  | nil => simp [closer, Delimiters.braces]
  | cons c rest =>
      have hfirst := h.noBrace rfl
      rw [hcontent] at hfirst
      exact hfirst

end IsClosed

/-- A text and a tag in front of a source are its first pieces. -/
theorem ofSource_tag
    (hbefore : NoneBegins Delimiters.braces.opening before Delimiters.braces.opening)
    (hclosed : IsClosed braced content) (after : List Char) :
    ofSource .braces (before ++ (source .braces (tag braced content) ++ after)) =
      (if before.isEmpty then [] else [text before]) ++
        tag braced content :: ofSource .braces after := by
  have hsource : before ++ (source .braces (tag braced content) ++ after) =
      before ++ (Delimiters.braces.opening ++ ((if braced then ['\x7b'] else []) ++
        (content ++ (closer .braces braced ++ after)))) := by
    simp [source, opener]
  have hcut := (hbefore.extend (Nat.le_succ _) ((if braced then ['\x7b'] else []) ++
    (content ++ (closer .braces braced ++ after)))).cut?
  rw [hsource, ofSource_cut .braces hcut, brace_opener (hclosed.head?_ne after)]
  simp only [hclosed.afterOpener_eq]

theorem IsContent.isClosed (h : IsContent braced content) : IsClosed braced content := by
  have hclosing (mark : List Char) :
      NoneBegins ('\x7d' :: '\x7d' :: mark) content ('\x7d' :: '\x7d' :: mark) := by
    have hnone := h.clear.noneBegins mark []
    rwa [List.append_nil] at hnone
  have hopening : NoneBegins Delimiters.braces.opening content (closer .braces braced) :=
    noneBegins_of_not_isInfix h.noOpening (by cases braced <;> simp [closer, Delimiters.braces])
  cases braced with
  | true => exact ⟨hopening, hclosing ['\x7d'], h.noBrace⟩
  | false => exact ⟨hopening, hclosing [], h.noBrace⟩

end Piece

namespace Tagged

variable {pieces : List Piece}

/-- The pieces in front of a source are cut off it, unless they end in a text that the
source goes on with. -/
theorem ofSource_append (h : Tagged pieces) (rest : List Char)
    (hlast : rest ≠ [] → ∀ text, pieces.getLast? ≠ some (.text text)) :
    Piece.ofSource .braces (pieces.flatMap (Piece.source .braces) ++ rest) =
      pieces ++ Piece.ofSource .braces rest := by
  induction h with
  | nil => rfl
  | last hsome hnone =>
      have hrest : rest = [] := Decidable.byContradiction fun hrest => hlast hrest _ rfl
      rw [hrest, List.append_nil, List.flatMap_singleton, Piece.source, Piece.ofSource_nil,
        List.append_nil]
      exact Piece.ofSource_text hsome (hnone.cut?_none (by simp [Delimiters.braces]))
  | tag hclosed tags ih =>
      rename_i braced content pieces
      have hmore := ih fun hrest text htext =>
        hlast hrest text (by simp [List.getLast?_cons, htext])
      have hcut := Piece.ofSource_tag (noneBegins_nil _ _) hclosed
        (pieces.flatMap (Piece.source .braces) ++ rest)
      rw [hmore] at hcut
      rw [List.flatMap_cons, List.append_assoc]
      exact hcut
  | textTag hsome hnone hclosed tags ih =>
      have hmore := ih fun hrest text htext =>
        hlast hrest text (by simp [List.getLast?_cons, htext])
      rw [List.flatMap_cons, List.flatMap_cons, Piece.source, List.append_assoc,
        List.append_assoc, Piece.ofSource_tag hnone hclosed, hmore,
        if_neg (by simpa using hsome)]
      rfl

theorem ofSource_eq (h : Tagged pieces) :
    Piece.ofSource .braces (pieces.flatMap (Piece.source .braces)) = pieces := by
  have happend := h.ofSource_append [] fun hnil => absurd rfl hnil
  rwa [List.append_nil, Piece.ofSource_nil, List.append_nil] at happend

end Tagged

theorem WellCut.tagged {pieces : List Piece} (h : WellCut pieces) : Tagged pieces := by
  induction h with
  | nil => exact .nil
  | last hsome hpair => exact .last hsome (noneBegins_of_not_isInfix hpair (by simp))
  | tag hcontent rest ih => exact .tag hcontent.isClosed ih
  | textTag htext hcontent rest ih =>
      have hnone := htext.clear.noneBegins [] []
      exact .textTag htext.nonempty hnone hcontent.isClosed ih

end Stencil
