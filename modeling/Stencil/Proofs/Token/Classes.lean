import Mathlib.Data.List.Forall2
import Stencil.Proofs.Token.Cutting
import Stencil.Token.Scan

/-!
The tokens of a source that is put together from pieces: one for each piece,
which says what the piece holds.
-/

namespace Stencil

open Text

/-- The class and the value of the token of a piece, if it has one. -/
def Piece.class? : Piece → Option (TokenKind × List Char)
  | text source => some (.text, source)
  | unclosed .. => none
  | tag braced content => Token.classify? braced (trim content)

namespace Token

/-- The token has the class and the value of the piece. -/
def Tells (token : Token) (piece : Piece) : Prop :=
  piece.class? = some (token.kind, token.value.toList)

theorem classify?_ne_text {braced : Bool} {content value : List Char} {kind : TokenKind}
    (h : classify? braced content = some (kind, value)) : kind ≠ .text := by
  rintro rfl
  unfold classify? classifyOpening classifyInverted at h
  grind

variable {lines : LineIndex} {scan : Scan}

/-- Text joins the latest token if that is a text that ends where it starts. -/
theorem Scan.addText_join {last : Token} {earlier : List Token} (lines : LineIndex)
    (htokens : scan.tokens = last :: earlier)
    (hjoins : last.kind = .text ∧ last.span.stop = scan.offset) (text : List Char) :
    scan.addText lines text = ⟨scan.offset + byteSize text, { last with
      value := last.value ++ String.ofList text, span.stop := scan.offset + byteSize text } ::
        earlier, scan.errors⟩ := by
  simp only [Scan.addText, htokens, if_pos hjoins]

/-- Text that joins no token is a token of its own. -/
theorem Scan.addText_separate (lines : LineIndex)
    (hapart : ∀ last ∈ scan.tokens.head?, ¬(last.kind = .text ∧ last.span.stop = scan.offset))
    (text : List Char) :
    scan.addText lines text = ⟨scan.offset + byteSize text,
      ⟨.text, String.ofList text, lines.span scan.offset (scan.offset + byteSize text)⟩ ::
        scan.tokens, scan.errors⟩ := by
  simp only [Scan.addText]
  split
  · rename_i last earlier htokens
    rw [if_neg (hapart last (by rw [htokens]; rfl)), htokens]
  · rename_i htokens
    rw [htokens]

theorem addPiece_text (lines : LineIndex) (text : List Char)
    (hlast : ∀ token ∈ scan.tokens.head?, token.kind ≠ .text) :
    ∃ token stop, scan.addPiece .braces [] lines (.text text) =
        ⟨stop, token :: scan.tokens, scan.errors⟩ ∧ Tells token (.text text) := by
  have hapart : ∀ last ∈ scan.tokens.head?,
      ¬(last.kind = .text ∧ last.span.stop = scan.offset) :=
    fun last hhead hjoins => hlast last hhead hjoins.1
  exact ⟨_, _, Scan.addText_separate lines hapart text, by simp [Tells, Piece.class?]⟩

/-- A tag that has a class is one token, which is no text. -/
theorem addPiece_tag (lines : LineIndex) (scan : Scan) {braced : Bool} {content : List Char}
    (hclass : (Piece.tag braced content).class?.isSome = true) :
    ∃ token stop, scan.addPiece .braces [] lines (.tag braced content) =
        ⟨stop, token :: scan.tokens, scan.errors⟩ ∧
      Tells token (.tag braced content) ∧ token.kind ≠ .text := by
  obtain ⟨⟨kind, value⟩, hsome⟩ := Option.isSome_iff_exists.mp hclass
  have hkind := classify?_ne_text hsome
  simp only [Piece.class?] at hsome
  simp only [Scan.addPiece, Scan.addTag, List.find?_nil, hsome]
  exact ⟨_, _, rfl, by simp [Tells, Piece.class?, hsome], hkind⟩

/-- Adding texts and closed tags that all have a class adds a token for each and no
error. -/
theorem foldl_addPiece (lines : LineIndex) {pieces : List Piece} (h : Tagged pieces)
    (hclass : ∀ piece ∈ pieces, piece.class?.isSome = true) (scan : Scan)
    (hlast : ∀ token ∈ scan.tokens.head?, token.kind ≠ .text) :
    ∃ tokens stop, pieces.foldl (Scan.addPiece .braces [] lines) scan =
        ⟨stop, tokens.reverse ++ scan.tokens, scan.errors⟩ ∧
      List.Forall₂ Tells tokens pieces := by
  induction h generalizing scan with
  | nil => exact ⟨[], scan.offset, rfl, .nil⟩
  | last hsome hnone =>
      rename_i text
      obtain ⟨token, stop, hadd, htells⟩ := addPiece_text lines text hlast
      exact ⟨[token], stop, hadd, .cons htells .nil⟩
  | tag hclosed rest ih =>
      obtain ⟨token, stop, hadd, htells, hkind⟩ := addPiece_tag lines scan
        (hclass _ (List.mem_cons_self ..))
      obtain ⟨tokens, stop', hfold, hmore⟩ := ih
        (fun piece hpiece => hclass piece (List.mem_cons_of_mem _ hpiece))
        ⟨stop, token :: scan.tokens, scan.errors⟩ (by simpa using hkind)
      refine ⟨token :: tokens, stop', ?_, .cons htells hmore⟩
      rw [List.foldl_cons, hadd, hfold]
      simp
  | textTag hsome hnone hclosed rest ih =>
      rename_i text braced content pieces
      obtain ⟨before, middle, hbefore, htold⟩ := addPiece_text lines text hlast
      obtain ⟨token, stop, hadd, htells, hkind⟩ := addPiece_tag lines
        ⟨middle, before :: scan.tokens, scan.errors⟩
        (hclass (.tag braced content) (by simp))
      obtain ⟨tokens, stop', hfold, hmore⟩ := ih
        (fun piece hpiece => hclass piece (by simp [hpiece]))
        ⟨stop, token :: before :: scan.tokens, scan.errors⟩ (by simpa using hkind)
      refine ⟨before :: token :: tokens, stop', ?_, .cons htold (.cons htells hmore)⟩
      rw [List.foldl_cons, hbefore, List.foldl_cons, hadd, hfold]
      simp

/-- A source of texts and closed tags that all have a class has a token for each, and
nothing is wrong with it. -/
theorem scanWith_tagged {pieces : List Piece} (h : Tagged pieces)
    (hclass : ∀ piece ∈ pieces, piece.class?.isSome = true) :
    ∃ tokens, scanWith .braces [] (String.ofList (pieces.flatMap (Piece.source .braces))) =
        (tokens, []) ∧ List.Forall₂ Tells tokens pieces := by
  obtain ⟨tokens, stop, hfold, htells⟩ := foldl_addPiece
    (.ofSource (pieces.flatMap (Piece.source .braces))) h hclass ⟨0, [], []⟩ (by simp)
  refine ⟨tokens, ?_, htells⟩
  simp only [scanWith, String.toList_ofList, h.ofSource_eq, hfold]
  simp

theorem scanWith_wellCut {pieces : List Piece} (h : WellCut pieces)
    (hclass : ∀ piece ∈ pieces, piece.class?.isSome = true) :
    ∃ tokens, scanWith .braces [] (String.ofList (pieces.flatMap (Piece.source .braces))) =
        (tokens, []) ∧ List.Forall₂ Tells tokens pieces :=
  scanWith_tagged h.tagged hclass

end Token

end Stencil
