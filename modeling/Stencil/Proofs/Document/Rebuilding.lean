import Stencil.Proofs.Document.Growth
import Stencil.Proofs.Document.Printing

/-!
The builder makes the printed items again from the tokens of their pieces: each
kind of item from its own tokens, and forests from those of their items.
-/

namespace Stencil

open Text

theorem Token.Tells.eq {token : Token} {piece : Piece} {kind : TokenKind} {value : List Char}
    (h : Token.Tells token piece) (hclass : piece.class? = some (kind, value)) :
    token.kind = kind ∧ token.value = String.ofList value := by
  have hsame := Option.some.inj (h.symm.trans hclass)
  obtain ⟨hkind, hvalue⟩ := Prod.mk.inj hsame
  exact ⟨hkind, by rw [← hvalue, String.ofList_toList]⟩

theorem IsTagText.isEmpty_eq_false {name : String} (h : IsTagText name.toList) :
    name.isEmpty = false := by
  rw [Bool.eq_false_iff, ne_eq, String.isEmpty_iff]
  rintro rfl
  exact h.nonempty rfl

theorem tells_append {tokens : List Token} {pieces pieces' : List Piece}
    (h : List.Forall₂ Token.Tells tokens (pieces ++ pieces')) :
    ∃ first second, tokens = first ++ second ∧ List.Forall₂ Token.Tells first pieces ∧
      List.Forall₂ Token.Tells second pieces' :=
  ⟨tokens.take pieces.length, tokens.drop pieces.length, by rw [List.take_append_drop],
    List.forall₂_take_append _ _ _ h, List.forall₂_drop_append _ _ _ h⟩

/-- Reading the printed text of an expression gives it back at the place of the
tag. -/
theorem Expression.FitsTag.read_eq {expression : Expression} (h : expression.FitsTag)
    (span : Span) :
    Expression.read (String.ofList (Item.tagText expression)) span =
      (expression.placed span, []) := by
  have hread := Expression.read_source .plain span expression h.printable allBlank_nil
    allBlank_nil
  rwa [List.append_nil, List.nil_append] at hread

theorem Token.blockOf?_eq_none {text : String}
    (h : text ∉ ["each", "with", "if", "declare"]) : Token.blockOf? text.toList = none := by
  simp only [List.mem_cons, List.not_mem_nil, or_false, not_or, ← String.toList_inj] at h
  obtain ⟨heach, hwith, hif, hdeclare⟩ := h
  have heach : text.toList ≠ ['e', 'a', 'c', 'h'] := heach
  have hwith : text.toList ≠ ['w', 'i', 't', 'h'] := hwith
  have hif : text.toList ≠ ['i', 'f'] := hif
  have hdeclare : text.toList ≠ ['d', 'e', 'c', 'l', 'a', 'r', 'e'] := hdeclare
  rw [Token.blockOf?, if_neg heach, if_neg hwith, if_neg hif, if_neg hdeclare]

/-- The tags that are printed around the body of a section. -/
theorem sectionTags {kind : SectionKind} {expression : Expression} {opener closer : Token}
    (hfits : expression.FitsTag)
    (hplain : kind = .plain → expression.path.text ∉ ["each", "with", "if", "declare"])
    (hopener : opener.Tells (.tag false (kind.openerContent (Item.tagText expression))))
    (hcloser : closer.Tells (.tag false (kind.closerContent (Item.tagText expression)))) :
    ∃ tags : TagPair (.ofSection kind), tags.opener = opener ∧ tags.closer = closer ∧
      tags.expression = expression.placed opener.span ∧ opener.ownErrors = [] := by
  have hword : kind = .plain →
      Token.blockOf? (Token.splitKeyword (Item.tagText expression)).1 = none := by
    intro hkind
    rw [hfits.splitKeyword_tagText]
    exact Token.blockOf?_eq_none (hplain hkind)
  obtain ⟨hopens, hvalue⟩ := hopener.eq (kind.opener_class hfits.isPathTag hword)
  obtain ⟨hcloses, hname⟩ := hcloser.eq (kind.closer_class hfits.isPathTag)
  refine ⟨⟨opener, closer, by rw [hopens, hname], hcloses⟩, rfl, rfl, ?_, ?_⟩
  · rw [TagPair.expression, hvalue, hfits.read_eq]
  · simp only [Token.ownErrors, hopens, hvalue, hfits.read_eq]

/-- The tags that are printed around the definition of a partial. -/
theorem declarationTags {name : String} {opener closer : Token} (hname : IsTagText name.toList)
    (hopener : opener.Tells (.tag false (declarationOpener name.toList)))
    (hcloser : closer.Tells (.tag false declarationCloser)) :
    ∃ tags : TagPair .declaration, tags.opener = opener ∧ tags.closer = closer ∧
      opener.value = name ∧ opener.ownErrors = [] := by
  obtain ⟨hopens, hvalue⟩ := hopener.eq (declarationOpener_class hname)
  obtain ⟨hcloses, hcloserName⟩ := hcloser.eq declarationCloser_class
  rw [String.ofList_toList] at hvalue
  refine ⟨⟨opener, closer, by rw [hopens, hcloserName], hcloses⟩, rfl, rfl, hvalue, ?_⟩
  simp only [Token.ownErrors, hopens, hvalue, hname.isEmpty_eq_false]
  rfl

/-- From these tokens the builder makes these items, their places apart, and
reports nothing. -/
def Rebuilds (tokens : List Token) (items : List Item) : Prop :=
  ∃ items', Adds true tokens items' [] ∧ Item.allUnplaced items' = Item.allUnplaced items

theorem Item.allUnplaced_append (items items' : List Item) :
    allUnplaced (items ++ items') = allUnplaced items ++ allUnplaced items' := by
  induction items with
  | nil => rfl
  | cons item items ih => rw [List.cons_append, allUnplaced, allUnplaced, ih, List.cons_append]

theorem Rebuilds.append {tokens tokens' : List Token} {items items' : List Item}
    (hfirst : Rebuilds tokens items) (hsecond : Rebuilds tokens' items') :
    Rebuilds (tokens ++ tokens') (items ++ items') := by
  obtain ⟨first, hfirstAdds, hfirstSame⟩ := hfirst
  obtain ⟨second, hsecondAdds, hsecondSame⟩ := hsecond
  refine ⟨first ++ second, hfirstAdds.append hsecondAdds, ?_⟩
  rw [Item.allUnplaced_append, Item.allUnplaced_append, hfirstSame, hsecondSame]

theorem rebuilds_literal {token : Token} {text : String}
    (h : token.Tells (.text text.toList)) : Rebuilds [token] [.literal text] := by
  obtain ⟨hkind, hvalue⟩ := h.eq rfl
  have htext := Adds.single true token (by rw [hkind]; rfl)
  simp only [Token.singleItems, Token.ownErrors, hkind, hvalue, String.ofList_toList] at htext
  exact ⟨_, htext, rfl⟩

theorem rebuilds_output {token : Token} {expression : Expression} {escape : Bool} (span : Span)
    (hfits : expression.FitsTag)
    (helse : escape = true → Item.tagText expression ≠ ['e', 'l', 's', 'e'])
    (h : token.Tells (.tag (!escape) (padded (Item.tagText expression)))) :
    Rebuilds [token] [.output expression escape span] := by
  obtain ⟨hkind, hvalue⟩ := h.eq (Token.classify?_expression hfits.isPathTag helse)
  have houtput := Adds.single true token (by rw [hkind]; rfl)
  simp only [Token.singleItems, Token.ownErrors, hkind, hvalue, hfits.read_eq] at houtput
  refine ⟨_, houtput, ?_⟩
  simp only [Bool.and_true, Item.allUnplaced, Item.unplaced, Expression.placed_placed]

theorem rebuilds_reference {token : Token} {name : String} (span : Span)
    (hname : IsTagText name.toList) (h : token.Tells (.tag false ('>' :: padded name.toList))) :
    Rebuilds [token] [.reference name span] := by
  obtain ⟨hkind, hvalue⟩ := h.eq (Token.classify?_reference hname)
  have hreference := Adds.single true token (by rw [hkind]; rfl)
  simp only [Token.singleItems, Token.ownErrors, hkind, hvalue, String.ofList_toList,
    hname.isEmpty_eq_false, Bool.false_eq_true, if_false] at hreference
  exact ⟨_, hreference, rfl⟩

/-- A section is made again if both its branches are. -/
theorem rebuilds_block {tokens : List Token} {kind : SectionKind} {expression : Expression}
    {body otherwise : List Item} (span : Span) (hfits : expression.FitsTag)
    (hplain : kind = .plain → expression.path.text ∉ ["each", "with", "if", "declare"])
    (hbody : ∀ {tokens}, List.Forall₂ Token.Tells tokens (Item.allPieces body) →
      Rebuilds tokens body)
    (hotherwise : ∀ {tokens}, List.Forall₂ Token.Tells tokens (Item.allPieces otherwise) →
      Rebuilds tokens otherwise)
    (htells : List.Forall₂ Token.Tells tokens
      (Item.block kind expression body otherwise span).pieces) :
    Rebuilds tokens [.block kind expression body otherwise span] := by
  obtain ⟨opener, inside, hopener, hinside, rfl⟩ := List.forall₂_cons_right_iff.mp htells
  obtain ⟨first, last, rfl, hfirst, hbehind⟩ := tells_append hinside
  obtain ⟨middle, final, rfl, hbranch, hfinal⟩ := tells_append hbehind
  obtain ⟨closer, nothing, hcloser, hnothing, rfl⟩ := List.forall₂_cons_right_iff.mp hfinal
  cases hnothing
  obtain ⟨tags, rfl, rfl, hexpression, herrors⟩ := sectionTags hfits hplain hopener hcloser
  obtain ⟨body', hbodyAdds, hbodySame⟩ := hbody hfirst
  by_cases hother : otherwise = []
  · subst hother
    cases hbranch
    have hsection : Adds true _ [.block kind tags.expression body' [] tags.span] _ :=
      Adds.enclosed tags hbodyAdds
    rw [herrors] at hsection
    refine ⟨_, hsection, ?_⟩
    simp only [Item.allUnplaced, Item.unplaced, hexpression, Expression.placed_placed, hbodySame]
  · simp only [List.isEmpty_iff, hother, if_false] at hbranch
    obtain ⟨token, others, htoken, hothers, rfl⟩ := List.forall₂_cons_right_iff.mp hbranch
    obtain ⟨otherwise', hotherAdds, hotherSame⟩ := hotherwise hothers
    have hsection := Adds.branched tags (htoken.eq else_class).1 hbodyAdds hotherAdds
    rw [herrors] at hsection
    refine ⟨_, by simpa using hsection, ?_⟩
    simp only [Item.allUnplaced, Item.unplaced, hexpression, Expression.placed_placed, hbodySame,
      hotherSame]

theorem rebuilds_declaration {tokens : List Token} {name : String} {body : List Item}
    (span : Span) (hname : IsTagText name.toList)
    (hbody : ∀ {tokens}, List.Forall₂ Token.Tells tokens (Item.allPieces body) →
      Rebuilds tokens body)
    (htells : List.Forall₂ Token.Tells tokens (Item.declaration name body span).pieces) :
    Rebuilds tokens [.declaration name body span] := by
  obtain ⟨opener, inside, hopener, hinside, rfl⟩ := List.forall₂_cons_right_iff.mp htells
  obtain ⟨first, last, rfl, hfirst, hfinal⟩ := tells_append hinside
  obtain ⟨closer, nothing, hcloser, hnothing, rfl⟩ := List.forall₂_cons_right_iff.mp hfinal
  cases hnothing
  obtain ⟨tags, rfl, rfl, hvalue, herrors⟩ := declarationTags hname hopener hcloser
  obtain ⟨body', hbodyAdds, hbodySame⟩ := hbody hfirst
  have hdeclaration : Adds true _ [.declaration tags.opener.value body' tags.span] _ :=
    Adds.enclosed tags hbodyAdds
  rw [herrors, hvalue] at hdeclaration
  refine ⟨_, hdeclaration, ?_⟩
  simp only [Item.allUnplaced, Item.unplaced, hbodySame]

/-- The tokens of printed items make these items again. -/
theorem ArePrintable.rebuilds {enclosed : Bool} {items : List Item}
    (h : ArePrintable enclosed items)
    (hkeywords : ∀ item ∈ Item.walkAll items, ¬item.ReadsAsKeyword) {tokens : List Token}
    (htells : List.Forall₂ Token.Tells tokens (Item.allPieces items)) :
    Rebuilds tokens items := by
  induction h generalizing tokens with
  | nil =>
      cases htells
      exact ⟨[], Adds.nil, rfl⟩
  | literal hsome hpair hapart hlast more ih =>
      obtain ⟨token, rest, htoken, hrest, rfl⟩ := List.forall₂_cons_right_iff.mp htells
      have hmore := ih (fun item hitem => hkeywords item (List.mem_append_right _ hitem)) hrest
      exact (rebuilds_literal htoken).append hmore
  | output escape span hfits more ih =>
      obtain ⟨token, rest, htoken, hrest, rfl⟩ := List.forall₂_cons_right_iff.mp htells
      have hmore := ih (fun item hitem => hkeywords item (List.mem_append_right _ hitem)) hrest
      rename_i expression following
      have hnotElse : escape = true → Item.tagText expression ≠ ['e', 'l', 's', 'e'] := by
        intro hescape hspelled
        have houtput := hkeywords _ (List.mem_cons_self ..)
        exact houtput ⟨hescape, hfits.eq_else hspelled⟩
      have houtput := rebuilds_output span hfits hnotElse htoken
      exact houtput.append hmore
  | block kind span hfits inner other more ihinner ihother ih =>
      obtain ⟨first, rest, rfl, hfirst, hrest⟩ := tells_append htells
      have hmore := ih (fun item hitem => hkeywords item (List.mem_append_right _ hitem)) hrest
      rename_i expression body otherwise following
      have hplain : kind = .plain →
          expression.path.text ∉ ["each", "with", "if", "declare"] := by
        intro hkind hword
        have hblock := hkeywords _ (List.mem_cons_self ..)
        exact hblock ⟨hkind, hword⟩
      have hbody : ∀ item ∈ Item.walkAll body, ¬item.ReadsAsKeyword := fun item hitem =>
        hkeywords item (by simp [Item.walkAll, Item.walk, hitem])
      have hotherwise : ∀ item ∈ Item.walkAll otherwise, ¬item.ReadsAsKeyword := fun item hitem =>
        hkeywords item (by simp [Item.walkAll, Item.walk, hitem])
      have hsection := rebuilds_block span hfits hplain (ihinner hbody) (ihother hotherwise) hfirst
      exact hsection.append hmore
  | reference span hname more ih =>
      obtain ⟨token, rest, htoken, hrest, rfl⟩ := List.forall₂_cons_right_iff.mp htells
      have hmore := ih (fun item hitem => hkeywords item (List.mem_append_right _ hitem)) hrest
      exact (rebuilds_reference span hname htoken).append hmore
  | declaration span hname inner more ihinner ih =>
      obtain ⟨first, rest, rfl, hfirst, hrest⟩ := tells_append htells
      have hmore := ih (fun item hitem => hkeywords item (List.mem_append_right _ hitem)) hrest
      rename_i name body following
      have hbody : ∀ item ∈ Item.walkAll body, ¬item.ReadsAsKeyword := fun item hitem =>
        hkeywords item (by simp [Item.walkAll, Item.walk, hitem])
      have hdeclaration := rebuilds_declaration span hname (ihinner hbody) hfirst
      exact hdeclaration.append hmore

end Stencil
