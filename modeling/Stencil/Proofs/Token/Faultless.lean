import Stencil.Proofs.Token.Classes
import Stencil.Proofs.Token.Pieces

/-!
Sources with which scanning finds nothing wrong. Every piece of such a source has a
class, so that every tag is closed and none is empty, and its tokens are those of its
pieces.
-/

namespace Stencil.Token

open Text

variable {marks : Delimiters} {lines : LineIndex} {scan : Scan}

/-- A piece adds errors exactly if it has no class, and leaves the earlier ones. -/
theorem Scan.errors_addPiece (marks : Delimiters) (lines : LineIndex) (scan : Scan)
    (piece : Piece) :
    ∃ errors, (scan.addPiece marks [] lines piece).errors = scan.errors ++ errors ∧
      (errors = [] ↔ piece.class?.isSome = true) := by
  cases piece with
  | text source => exact ⟨[], by simp [addPiece, addText], by simp [Piece.class?]⟩
  | unclosed braced rest =>
      exact ⟨[_], rfl, by simp [Piece.class?]⟩
  | tag braced content =>
      simp only [addPiece, addTag, List.find?_nil, Piece.class?]
      cases classify? braced (trim content) with
      | some told => exact ⟨[], by simp, by simp⟩
      | none => exact ⟨[_], rfl, by simp⟩

theorem Scan.errors_foldl_addPiece {pieces : List Piece} :
    (pieces.foldl (addPiece marks [] lines) scan).errors = [] ↔
      scan.errors = [] ∧ ∀ piece ∈ pieces, piece.class?.isSome = true := by
  induction pieces generalizing scan with
  | nil => simp
  | cons piece pieces ih =>
      obtain ⟨errors, hadd, hnone⟩ := errors_addPiece marks lines scan piece
      rw [List.foldl_cons, ih, hadd, List.append_eq_nil_iff, hnone, List.forall_mem_cons,
        and_assoc]

/-- Nothing is wrong with a source exactly if each of its pieces has a class. -/
theorem faultless_iff {source : String} :
    (scanWith marks [] source).2 = [] ↔
      ∀ piece ∈ Piece.ofSource marks source.toList, piece.class?.isSome = true := by
  rw [scanWith, Scan.errors_foldl_addPiece]
  simp

/-- A source with which nothing is wrong is one of texts and closed tags, each of which
has a token. -/
theorem tagged_of_faultless {source : String} (h : (scanWith .braces [] source).2 = []) :
    Tagged (Piece.ofSource .braces source.toList) ∧
      List.Forall₂ Tells (scanWith .braces [] source).1
        (Piece.ofSource .braces source.toList) := by
  have hclass := faultless_iff.mp h
  have htagged : Tagged (Piece.ofSource .braces source.toList) := by
    refine Piece.tagged_ofSource fun braced rest hmem => ?_
    have hsome := hclass _ hmem
    simp [Piece.class?] at hsome
  obtain ⟨tokens, hscan, htells⟩ := scanWith_tagged htagged hclass
  rw [Piece.flatMap_ofSource, String.ofList_toList] at hscan
  rw [hscan]
  exact ⟨htagged, htells⟩

end Stencil.Token
