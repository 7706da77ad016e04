import Stencil.Proofs.Document.Rebuilding

/-!
The template of a partial that refers to itself between two texts, which may be
empty: it is parsed without errors as the declaration of the partial and a reference
to it.
-/

namespace Stencil

open Text

/-- The literal of a text, unless it is empty. -/
def Item.literals (text : String) : List Item :=
  if text.isEmpty then [] else [.literal text]

/-- The body of a partial with a reference to it between two texts. -/
def Item.selfReferring (name first last : String) (span : Span) : List Item :=
  literals first ++ .reference name span :: literals last

namespace Document

/-- A template that declares a partial, which refers to itself between two texts, and
refers to it. -/
def selfReference (first last : String) : String :=
  String.join ["\x7b\x7b#declare p\x7d\x7d", first, "\x7b\x7b> p\x7d\x7d", last,
    "\x7b\x7b/declare\x7d\x7d\x7b\x7b> p\x7d\x7d"]

def textPieces (text : String) : List Piece :=
  if text.isEmpty then [] else [.text text.toList]

/-- The tag of a reference to the partial. -/
def referencePiece : Piece :=
  .tag false ['>', ' ', 'p']

def declarePiece : Piece :=
  .tag false ['#', 'd', 'e', 'c', 'l', 'a', 'r', 'e', ' ', 'p']

def closePiece : Piece :=
  .tag false declarationCloser

def selfReferencePieces (first last : String) : List Piece :=
  declarePiece :: (textPieces first ++ referencePiece ::
    (textPieces last ++ [closePiece, referencePiece]))

theorem flatMap_textPieces (text : String) :
    (textPieces text).flatMap (Piece.source .braces) = text.toList := by
  rw [textPieces]
  split
  · rename_i hempty
    rw [String.isEmpty_iff.mp hempty]
    rfl
  · rw [List.flatMap_singleton, Piece.source]

theorem selfReference_eq (first last : String) :
    selfReference first last =
      String.ofList ((selfReferencePieces first last).flatMap (Piece.source .braces)) := by
  rw [← String.toList_inj, String.toList_ofList, selfReference, String.toList_join]
  simp only [selfReferencePieces, List.flatMap_cons, List.flatMap_append, List.flatMap_nil,
    flatMap_textPieces]
  rfl

theorem wellCut_textPieces {text : String} (htext : ClearOf '\x7b' text.toList)
    {pieces : List Piece} (h : WellCut pieces) (hnext : StartsWithTag pieces) :
    WellCut (textPieces text ++ pieces) := by
  rw [textPieces]
  split
  · exact h
  · rename_i hsome
    have hchars : text.toList ≠ [] := by
      rwa [String.isEmpty_iff, ← String.toList_inj] at hsome
    exact h.consText hchars htext.1 (Or.inr ⟨hnext, htext.2⟩)

theorem wellCut_selfReference {first last : String} (hfirst : ClearOf '\x7b' first.toList)
    (hlast : ClearOf '\x7b' last.toList) : WellCut (selfReferencePieces first last) := by
  have hreference {pieces : List Piece} (h : WellCut pieces) : WellCut (referencePiece :: pieces) :=
    .tag (isContent_word _ (by decide) (by decide)) h
  have hclosed : WellCut [closePiece, referencePiece] :=
    .tag (isContent_word _ (by decide) (by decide)) (hreference .nil)
  have hbehind := wellCut_textPieces hlast hclosed ⟨_, _, _, rfl⟩
  have hbody := wellCut_textPieces hfirst (hreference hbehind) ⟨_, _, _, rfl⟩
  exact .tag (isContent_word _ (by decide) (by decide)) hbody

theorem referencePiece_class : referencePiece.class? = some (.reference, ['p']) := by
  decide

theorem declarePiece_class :
    declarePiece.class? = some (.opening .declaration "declare", ['p']) := by
  decide

theorem class?_textPieces (text : String) :
    ∀ piece ∈ textPieces text, piece.class?.isSome = true := by
  intro piece hpiece
  rw [textPieces] at hpiece
  split at hpiece
  · cases hpiece
  · rw [List.mem_singleton.mp hpiece]
    rfl

theorem class?_selfReference (first last : String) :
    ∀ piece ∈ selfReferencePieces first last, piece.class?.isSome = true := by
  have hreference : referencePiece.class?.isSome = true := by
    rw [referencePiece_class]
    rfl
  have hdeclare : declarePiece.class?.isSome = true := by
    rw [declarePiece_class]
    rfl
  simp only [selfReferencePieces, List.forall_mem_cons, List.forall_mem_append]
  exact ⟨hdeclare, class?_textPieces first, hreference, class?_textPieces last, rfl, hreference,
    List.forall_mem_nil _⟩

end Document

variable (escaping : Bool) {tokens : List Token} {token : Token}

theorem adds_text {text : String}
    (h : List.Forall₂ Token.Tells tokens (Document.textPieces text)) :
    Adds escaping tokens (Item.literals text) [] := by
  rw [Document.textPieces] at h
  rw [Item.literals]
  split at h
  · rename_i hempty
    cases h
    rw [if_pos hempty]
    exact Adds.nil
  · rename_i hsome
    obtain ⟨token, nothing, htoken, hnothing, rfl⟩ := List.forall₂_cons_right_iff.mp h
    cases hnothing
    obtain ⟨hkind, hvalue⟩ := htoken.eq rfl
    rw [if_neg hsome]
    have htext := Adds.single escaping token (by rw [hkind]; rfl)
    simpa only [Token.singleItems, Token.ownErrors, hkind, hvalue, String.ofList_toList] using htext

theorem adds_reference (h : token.Tells Document.referencePiece) :
    Adds escaping [token] [.reference "p" token.span] [] := by
  obtain ⟨hkind, hvalue⟩ := h.eq Document.referencePiece_class
  have hvalue : token.value = "p" := hvalue
  have hreference := Adds.single escaping token (by rw [hkind]; rfl)
  simp only [Token.singleItems, Token.ownErrors, hkind, hvalue] at hreference
  exact hreference

/-- The pieces of the template become the declaration and the reference. -/
theorem adds_selfReference {first last : String}
    (h : List.Forall₂ Token.Tells tokens (Document.selfReferencePieces first last)) :
    ∃ inner outer final, Adds escaping tokens
      [.declaration "p" (Item.selfReferring "p" first last inner) outer, .reference "p" final]
      [] := by
  obtain ⟨opener, inside, hopener, hinside, rfl⟩ := List.forall₂_cons_right_iff.mp h
  obtain ⟨before, rest, rfl, hbefore, hrest⟩ := tells_append hinside
  obtain ⟨inner, behind, hinner, hbehind, rfl⟩ := List.forall₂_cons_right_iff.mp hrest
  obtain ⟨after, ending, rfl, hafter, hending⟩ := tells_append hbehind
  obtain ⟨closer, final, hcloser, hfinal, rfl⟩ := List.forall₂_cons_right_iff.mp hending
  obtain ⟨outer, nothing, houter, hnothing, rfl⟩ := List.forall₂_cons_right_iff.mp hfinal
  cases hnothing
  obtain ⟨hopens, hname⟩ := hopener.eq Document.declarePiece_class
  obtain ⟨hcloses, hclosed⟩ := hcloser.eq declarationCloser_class
  let tags : TagPair .declaration := ⟨opener, closer, by rw [hopens, hclosed], hcloses⟩
  have hname : opener.value = "p" := hname
  have hbody := (adds_text escaping hbefore).append
    ((adds_reference escaping hinner).append (adds_text escaping hafter))
  have hdeclaration := Adds.enclosed tags hbody
  have hnone : opener.ownErrors = [] := by
    simp only [Token.ownErrors, hopens, hname]
    rfl
  have hall := hdeclaration.append (adds_reference escaping houter)
  refine ⟨inner.span, tags.span, outer.span, ?_⟩
  simpa [hnone, Builder.opened, Frame.close, hname, Item.selfReferring, tags] using hall

/-- The template is parsed without errors as the declaration and the reference. -/
theorem Document.parse_selfReference {settings : Settings}
    (hbraces : settings.delimiters? = some .braces) {first last : String}
    (hfirst : ClearOf '\x7b' first.toList) (hlast : ClearOf '\x7b' last.toList) :
    ∃ inner outer final,
      (parse settings [] (selfReference first last)).errors = [] ∧
      (parse settings [] (selfReference first last)).items =
        [.declaration "p" (Item.selfReferring "p" first last inner) outer,
          .reference "p" final] := by
  obtain ⟨tokens, hscan, htells⟩ := Token.scanWith_wellCut (wellCut_selfReference hfirst hlast)
    (class?_selfReference first last)
  obtain ⟨inner, outer, final, hadds⟩ :=
    adds_selfReference (!settings.disablesEscaping) htells
  refine ⟨inner, outer, final, ?_, ?_⟩
  · simp only [parse, Token.scan, hbraces, selfReference_eq, hscan, hadds.ofTokens]
    exact List.mergeSort_nil
  · simp only [parse, Token.scan, hbraces, selfReference_eq, hscan, hadds.ofTokens]

end Stencil
