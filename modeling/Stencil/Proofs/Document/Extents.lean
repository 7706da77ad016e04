import Stencil.Document.Parser
import Stencil.Proofs.Document.Recovery
import Stencil.Proofs.Expression.Completeness
import Stencil.Proofs.Token.Tiling

/-!
Where the items of a valid template are. The tokens of a source stand in order; so do the
items that they form, and the items inside a block stand between its opening and its
closing tag.
-/

namespace Stencil

open Text

namespace Item

theorem mem_walkAll {item : Item} {items : List Item} (h : item ∈ items) :
    item ∈ walkAll items := by
  induction items with
  | nil => cases h
  | cons first rest ih =>
      rw [walkAll, walk_eq]
      rcases List.mem_cons.mp h with rfl | hrest
      · exact List.mem_cons_self ..
      · exact List.mem_append_right _ (ih hrest)

/-- Items that stand in order between two offsets. Each is the item of a tag that has no
items inside it, or its items stand between the tags of a block. -/
inductive Arranged (tokens : List Token) : Nat → List Item → Nat → Prop where
  | nil {start stop : Nat} (hle : start ≤ stop) : Arranged tokens start [] stop
  | literal {start stop : Nat} {items : List Item} (text : String)
      (rest : Arranged tokens start items stop) :
      Arranged tokens start (.literal text :: items) stop
  | single {start stop : Nat} {item : Item} {items : List Item} {token : Token}
      (hmem : token ∈ tokens) (htag : token.kind ≠ .text) (hspan : item.span? = some token.span)
      (hnone : item.children = []) (hstart : start ≤ token.span.start)
      (rest : Arranged tokens token.span.stop items stop) :
      Arranged tokens start (item :: items) stop
  | block {start stop : Nat} {item : Item} {items : List Item} {block : BlockKind}
      (tags : TagPair block) (hopener : tags.opener ∈ tokens) (hcloser : tags.closer ∈ tokens)
      (hspan : item.span? = some tags.span) (hstart : start ≤ tags.opener.span.start)
      (inside : Arranged tokens tags.opener.span.stop item.children tags.closer.span.start)
      (rest : Arranged tokens tags.closer.span.stop items stop) :
      Arranged tokens start (item :: items) stop

namespace Arranged

variable {tokens : List Token} {start middle stop : Nat} {items others : List Item}

theorem of_le (h : Arranged tokens middle items stop) (hle : start ≤ middle) :
    Arranged tokens start items stop := by
  induction h with
  | nil hmiddle => exact .nil (hle.trans hmiddle)
  | literal text rest ih => exact .literal text (ih hle)
  | single hmem htag hspan hnone hstart rest ih =>
      exact .single hmem htag hspan hnone (hle.trans hstart) rest
  | block tags hopener hcloser hspan hstart inside rest ihinside ih =>
      exact .block tags hopener hcloser hspan (hle.trans hstart) inside rest

theorem append (h : Arranged tokens start items middle)
    (hothers : Arranged tokens middle others stop) :
    Arranged tokens start (items ++ others) stop := by
  induction h with
  | nil hle => exact hothers.of_le hle
  | literal text rest ih => exact .literal text (ih hothers)
  | single hmem htag hspan hnone hstart rest ih =>
      exact .single hmem htag hspan hnone hstart (ih hothers)
  | block tags hopener hcloser hspan hstart inside rest ihinside ih =>
      exact .block tags hopener hcloser hspan hstart inside (ih hothers)

end Arranged

end Item

/-- Tokens stand in order between two offsets. -/
structure Token.AreBetween (start : Nat) (tokens : List Token) (stop : Nat) : Prop where
  le : start ≤ stop
  bounds : ∀ token ∈ tokens, start ≤ token.span.start ∧ token.span.start ≤ token.span.stop ∧
    token.span.stop ≤ stop
  ordered : tokens.Pairwise (·.span.stop ≤ ·.span.start)

namespace Token.AreBetween

variable {start stop : Nat} {token : Token} {first second : List Token}

/-- The tokens before a token and those behind it stand on its sides. -/
theorem split (h : AreBetween start (first ++ token :: second) stop) :
    AreBetween start first token.span.start ∧ start ≤ token.span.start ∧
      AreBetween token.span.stop second stop := by
  obtain ⟨hfirst, hsecond, hcross⟩ := List.pairwise_append.mp h.ordered
  obtain ⟨htoken, hsecond⟩ := List.pairwise_cons.mp hsecond
  have hbounds := h.bounds token (by simp)
  refine ⟨⟨hbounds.1, ?_, hfirst⟩, hbounds.1, ⟨hbounds.2.2, ?_, hsecond⟩⟩
  · intro earlier hearlier
    have hle := h.bounds earlier (List.mem_append_left _ hearlier)
    exact ⟨hle.1, hle.2.1, hcross earlier hearlier token (List.mem_cons_self ..)⟩
  · intro later hlater
    have hle := h.bounds later (by simp [hlater])
    exact ⟨htoken later hlater, hle.2⟩

theorem uncons (h : AreBetween start (token :: second) stop) :
    start ≤ token.span.start ∧ AreBetween token.span.stop second stop := by
  have hsplit : AreBetween start ([] ++ token :: second) stop := h
  exact hsplit.split.2

/-- What two tokens enclose stands between them. -/
theorem enclosed {closer : Token}
    (h : AreBetween start (token :: (first ++ closer :: second)) stop) :
    start ≤ token.span.start ∧ AreBetween token.span.stop first closer.span.start ∧
      AreBetween closer.span.stop second stop := by
  obtain ⟨hstart, hbehind⟩ := h.uncons
  obtain ⟨hfirst, -, hsecond⟩ := hbehind.split
  exact ⟨hstart, hfirst, hsecond⟩

end Token.AreBetween

/-- The items of a derivation stand where its tokens do. -/
theorem Derivation.arranged (escaping : Bool) {scanned : List Token} (d : Derivation)
    {start stop : Nat} (hsub : d.tokens ⊆ scanned)
    (hbetween : Token.AreBetween start d.tokens stop) :
    Item.Arranged scanned start (d.items escaping) stop := by
  induction d generalizing start stop with
  | nil => exact .nil hbetween.le
  | single token isSingle rest ih =>
      obtain ⟨hstart, hrest⟩ := hbetween.uncons
      obtain ⟨hmem, hsub⟩ := List.cons_subset.mp hsub
      have hrest := ih hsub hrest
      have hwithout := hrest.of_le
        (hstart.trans (hbetween.bounds token (List.mem_cons_self ..)).2.1)
      simp only [items, Token.singleItems]
      cases hkind : token.kind with
      | text => exact .literal _ hwithout
      | expression escape => exact .single hmem (by simp [hkind]) rfl rfl hstart hrest
      | reference =>
          dsimp only
          split
          · exact hwithout
          · exact .single hmem (by simp [hkind]) rfl rfl hstart hrest
      | comment | opening | closing | otherwise | custom => exact hwithout
  | block kind tags body rest ihbody ih =>
      obtain ⟨hstart, hbody, hrest⟩ := hbetween.enclosed
      simp only [tokens, List.cons_subset, List.append_subset] at hsub
      obtain ⟨hopener, hbodysub, hcloser, hrestsub⟩ := hsub
      refine .block tags hopener hcloser rfl hstart ?_ (ih hrestsub hrest)
      simp only [Item.children, List.append_nil]
      exact ihbody hbodysub hbody
  | branches kind tags body middle isElse alternative rest ihbody ihalternative ih =>
      obtain ⟨hstart, hbetween⟩ := hbetween.uncons
      have hmiddle := (hbetween.bounds middle (by simp)).2.1
      obtain ⟨hbody, -, hbetween⟩ := hbetween.split
      obtain ⟨halternative, -, hrest⟩ := hbetween.split
      simp only [tokens, List.cons_subset, List.append_subset] at hsub
      obtain ⟨hopener, hbodysub, -, haltsub, hcloser, hrestsub⟩ := hsub
      refine .block tags hopener hcloser rfl hstart ?_ (ih hrestsub hrest)
      -- the other branch stands behind the else, and that behind the body
      exact (ihbody hbodysub hbody).append ((ihalternative haltsub halternative).of_le hmiddle)
  | declaration tags body rest ihbody ih =>
      obtain ⟨hstart, hbody, hrest⟩ := hbetween.enclosed
      simp only [tokens, List.cons_subset, List.append_subset] at hsub
      obtain ⟨hopener, hbodysub, hcloser, hrestsub⟩ := hsub
      exact .block tags hopener hcloser rfl hstart (ihbody hbodysub hbody) (ih hrestsub hrest)

/-- The place of a block is from its opening to its closing tag. -/
theorem TagPair.span_eq {block : BlockKind} (tags : TagPair block)
    (hopener : tags.opener.span.start ≤ tags.opener.span.stop)
    (hinside : tags.opener.span.stop ≤ tags.closer.span.start)
    (hcloser : tags.closer.span.start ≤ tags.closer.span.stop) :
    tags.span = { tags.opener.span with stop := tags.closer.span.stop } := by
  rw [span, Span.merge_of_le (hopener.trans hinside),
    Nat.max_eq_right (hinside.trans hcloser)]

namespace Item.Arranged

variable {tokens : List Token} {start stop : Nat} {items : List Item}

section

variable (hsome : ∀ token ∈ tokens, token.span.start < token.span.stop)
include hsome

theorem le (h : Arranged tokens start items stop) : start ≤ stop := by
  induction h with
  | nil hle => exact hle
  | literal text rest ih => exact ih
  | single hmem htag hspan hnone hstart rest ih => exact hstart.trans ((hsome _ hmem).le.trans ih)
  | block tags hopener hcloser hspan hstart inside rest ihinside ih =>
      have hfirst := hsome _ hopener
      have hlast := hsome _ hcloser
      omega

theorem span_eq {block : BlockKind} {tags : TagPair block} {item : Item}
    (hopener : tags.opener ∈ tokens) (hcloser : tags.closer ∈ tokens)
    (inside : Arranged tokens tags.opener.span.stop item.children tags.closer.span.start) :
    tags.span = { tags.opener.span with stop := tags.closer.span.stop } :=
  tags.span_eq (hsome _ hopener).le (inside.le hsome) (hsome _ hcloser).le

/-- All items that stand between two offsets, and those inside them, have their places
there. -/
theorem bounds (h : Arranged tokens start items stop) :
    ∀ item ∈ walkAll items, ∀ span, item.span? = some span →
      start ≤ span.start ∧ span.start < span.stop ∧ span.stop ≤ stop := by
  induction h with
  | nil hle =>
      intro item hitem
      cases hitem
  | literal text rest ih =>
      intro item hitem span hspan
      rcases List.mem_cons.mp hitem with rfl | hrest
      · cases hspan
      · exact ih item hrest span hspan
  | single hmem htag hspan hnone hstart rest ih =>
      intro inner hinner span hinnerspan
      have hfirst := hsome _ hmem
      have hle := rest.le hsome
      rw [walkAll, walk_eq, hnone] at hinner
      rcases List.mem_cons.mp hinner with rfl | hrest
      · obtain rfl := Option.some.inj (hspan.symm.trans hinnerspan)
        omega
      · have hbounds := ih inner hrest span hinnerspan
        omega
  | block tags hopener hcloser hspan hstart inside rest ihinside ih =>
      intro inner hinner span hinnerspan
      have hfirst := hsome _ hopener
      have hlast := hsome _ hcloser
      have hbetween := inside.le hsome
      have hle := rest.le hsome
      rw [walkAll, walk_eq, List.cons_append] at hinner
      rcases List.mem_cons.mp hinner with rfl | hinner
      · obtain rfl := Option.some.inj (hspan.symm.trans hinnerspan)
        rw [span_eq hsome hopener hcloser inside]
        dsimp only
        omega
      · rcases List.mem_append.mp hinner with hinside | hrest
        · have hbounds := ihinside inner hinside span hinnerspan
          omega
        · have hbounds := ih inner hrest span hinnerspan
          omega

theorem start_le (h : Arranged tokens start items stop) :
    ∀ span ∈ items.filterMap span?, start ≤ span.start := by
  intro span hspan
  obtain ⟨item, hitem, hspan⟩ := List.mem_filterMap.mp hspan
  exact (h.bounds hsome item (mem_walkAll hitem) span hspan).1

/-- Items that stand in order have their places in order. -/
theorem siblings (h : Arranged tokens start items stop) :
    (items.filterMap span?).Pairwise (·.stop ≤ ·.start) := by
  induction h with
  | nil hle => exact .nil
  | literal text rest ih => exact ih
  | single hmem htag hspan hnone hstart rest ih =>
      rw [List.filterMap_cons_some hspan]
      exact .cons (rest.start_le hsome) ih
  | block tags hopener hcloser hspan hstart inside rest ihinside ih =>
      rw [List.filterMap_cons_some hspan]
      refine .cons ?_ ih
      rw [span_eq hsome hopener hcloser inside]
      exact rest.start_le hsome

end

/-- An item with a place is that of a tag and has no items inside it, or its items stand
between the tags of a block. -/
theorem place_cases (h : Arranged tokens start items stop) :
    ∀ item ∈ walkAll items, ∀ span, item.span? = some span →
      (∃ token ∈ tokens, token.kind ≠ .text ∧ span = token.span ∧ item.children = []) ∨
      ∃ (block : BlockKind) (tags : TagPair block), tags.opener ∈ tokens ∧
        tags.closer ∈ tokens ∧ span = tags.span ∧
        Arranged tokens tags.opener.span.stop item.children tags.closer.span.start := by
  induction h with
  | nil hle =>
      intro item hitem
      cases hitem
  | literal text rest ih =>
      intro item hitem span hspan
      rcases List.mem_cons.mp hitem with rfl | hrest
      · cases hspan
      · exact ih item hrest span hspan
  | single hmem htag hspan hnone hstart rest ih =>
      intro inner hinner span hinnerspan
      rw [walkAll, walk_eq, hnone] at hinner
      rcases List.mem_cons.mp hinner with rfl | hrest
      · obtain rfl := Option.some.inj (hspan.symm.trans hinnerspan)
        exact Or.inl ⟨_, hmem, htag, rfl, hnone⟩
      · exact ih inner hrest span hinnerspan
  | block tags hopener hcloser hspan hstart inside rest ihinside ih =>
      intro inner hinner span hinnerspan
      rw [walkAll, walk_eq, List.cons_append] at hinner
      rcases List.mem_cons.mp hinner with rfl | hinner
      · obtain rfl := Option.some.inj (hspan.symm.trans hinnerspan)
        exact Or.inr ⟨_, tags, hopener, hcloser, rfl, inside⟩
      · rcases List.mem_append.mp hinner with hinside | hrest
        · exact ihinside inner hinside span hinnerspan
        · exact ih inner hrest span hinnerspan

end Item.Arranged

/-- Tokens whose tree has no errors have a derivation, and their items are those that it
denotes. -/
theorem exists_derivation {escaping : Bool} {tokens : List Token}
    (hcustom : ∀ token ∈ tokens, ∀ provider, token.kind ≠ .custom provider)
    (herrors : (Item.ofTokens escaping [] tokens).2 = []) :
    ∃ d : Derivation, d.tokens = tokens ∧
      (Item.ofTokens escaping [] tokens).1 = d.items escaping := by
  rw [Item.ofTokens, Builder.finish, Builder.closeAll_eq] at herrors
  obtain ⟨hrun, hopen⟩ := List.append_eq_nil_iff.mp herrors
  have hclean : ∀ error ∈ (Builder.empty.addTokens escaping [] 0 tokens).errors,
      ¬error.IsStructural := by
    rw [hrun]
    intro error herror
    cases herror
  have hstart : Unfinished (Builder.empty.frames.map Frame.shape) [] := .outside .nil
  have hunfinished : Unfinished
      ((Builder.empty.addTokens escaping [] 0 tokens).frames.map Frame.shape) tokens :=
    Unfinished.run tokens hcustom hstart hclean
  rw [List.map_eq_nil_iff.mp (List.map_eq_nil_iff.mp hopen)] at hunfinished
  cases hunfinished with
  | outside d => exact ⟨d, rfl, by rw [(d.adds escaping).ofTokens]⟩

namespace Token.AccountFor

variable {marks : Delimiters} {source : List Char} {tokens : List Token}
  {errors : List ParseError}

/-- The tokens that account for a source stand in order from its start to its end, and
none of them is empty. -/
theorem areBetween (h : AccountFor marks source tokens errors) :
    AreBetween 0 tokens (byteSize source) ∧
      ∀ token ∈ tokens, token.span.start < token.span.stop := by
  refine ⟨⟨Nat.zero_le _, ?_, h.ordered⟩, fun token htoken => (h.bounds htoken).1⟩
  intro token htoken
  obtain ⟨hsome, hstop⟩ := h.bounds htoken
  exact ⟨Nat.zero_le _, hsome.le, hstop⟩

theorem isTag (h : AccountFor marks source tokens errors) {token : Token} (hmem : token ∈ tokens)
    (htag : token.kind ≠ .text) :
    ∃ braced content, token.span.IsTag marks source braced content := by
  cases h.tokens_stand token hmem with
  | text kind covers => exact absurd kind htag
  | tag place hclass => exact ⟨_, _, place⟩

theorem not_custom (h : AccountFor marks source tokens errors) :
    ∀ token ∈ tokens, ∀ provider, token.kind ≠ .custom provider := by
  intro token htoken provider hcustom
  cases h.tokens_stand token htoken with
  | text kind covers => cases kind.symm.trans hcustom
  | tag place hclass =>
      rw [hcustom] at hclass
      unfold classify? classifyOpening classifyInverted at hclass
      grind

end Token.AccountFor

/-- A part of a source from an opening delimiter to a closing one. -/
def Span.IsDelimited (marks : Delimiters) (source : List Char) (span : Span) : Prop :=
  ∃ inside, span.Covers source inside ∧ marks.opening <+: inside ∧ marks.closing <:+ inside

theorem Span.IsTag.isDelimited {marks : Delimiters} {source content : List Char} {span : Span}
    {braced : Bool} (h : span.IsTag marks source braced content) :
    span.IsDelimited marks source := by
  refine ⟨_, h.covers, ?_, ?_⟩
  · simp only [Piece.source, Piece.opener, List.append_assoc]
    exact List.prefix_append _ _
  · simp only [Piece.source, Piece.closer, ← List.append_assoc]
    exact List.suffix_append _ _

theorem Span.IsDelimited.through {marks : Delimiters} {source : List Char} {first second : Span}
    (hfirst : first.IsDelimited marks source) (hsecond : second.IsDelimited marks source)
    (hle : first.stop ≤ second.start) :
    { first with stop := second.stop }.IsDelimited marks source := by
  obtain ⟨inside, hcovers, hopening, -⟩ := hfirst
  obtain ⟨inside', hcovers', -, hclosing⟩ := hsecond
  obtain ⟨middle, hboth⟩ := hcovers.through hcovers' hle
  refine ⟨_, hboth, hopening.trans (List.prefix_append _ _), ?_⟩
  rw [← List.append_assoc]
  exact hclosing.trans (List.suffix_append _ _)

/-- Where an item stands. Its place is from an opening delimiter to a closing one. The
places of the items in it are in order, those of the other branch after those of the body.
They and the places of all items further inside lie strictly between the ends of the place
of the item, after its opening tag and before its closing tag; an item of one tag has none
inside it. -/
structure Item.StandsAt (marks : Delimiters) (source : List Char) (tokens : List Token)
    (item : Item) (span : Span) : Prop where
  delimited : span.IsDelimited marks source
  siblings : (item.children.filterMap Item.span?).Pairwise (·.stop ≤ ·.start)
  inside : ∃ opener ∈ tokens, ∃ closer ∈ tokens, span = opener.span.merge closer.span ∧
    (opener = closer ∧ item.children = [] ∨
      ∃ block, opener.kind = .opening block closer.value ∧ closer.kind = .closing) ∧
    ∀ inner ∈ Item.walkAll item.children, ∀ place, inner.span? = some place →
      span.start < place.start ∧ place.stop < span.stop ∧
      opener.span.stop ≤ place.start ∧ place.stop ≤ closer.span.start

/-- Items that stand in order among the tokens of a source stand where their tags do. -/
theorem Item.Arranged.standsAt {marks : Delimiters} {source : List Char} {tokens : List Token}
    {errors : List ParseError} {start stop : Nat} {items : List Item}
    (h : Arranged tokens start items stop)
    (haccount : Token.AccountFor marks source tokens errors) :
    ∀ item ∈ walkAll items, ∀ span, item.span? = some span →
      item.StandsAt marks source tokens span := by
  have hsome := haccount.areBetween.2
  have hdelimited {token : Token} (hmem : token ∈ tokens) (htag : token.kind ≠ .text) :
      token.span.IsDelimited marks source := by
    obtain ⟨braced, content, place⟩ := haccount.isTag hmem htag
    exact place.isDelimited
  intro item hitem span hspan
  rcases h.place_cases item hitem span hspan with
    ⟨token, hmem, htag, rfl, hnone⟩ | ⟨block, tags, hopener, hcloser, rfl, inside⟩
  · refine ⟨hdelimited hmem htag, by rw [hnone]; exact .nil, token, hmem, token, hmem, ?_,
      Or.inl ⟨rfl, hnone⟩, ?_⟩
    · rw [Span.merge_of_le (Nat.le_refl _), Nat.max_self]
    · rw [hnone]
      intro inner hinner
      cases hinner
  · have hopens := hdelimited hopener (by rw [tags.opens]; exact TokenKind.noConfusion)
    have hcloses := hdelimited hcloser (by rw [tags.closes]; exact TokenKind.noConfusion)
    have hplace := Item.Arranged.span_eq hsome hopener hcloser inside
    have hfirst := hsome _ hopener
    have hlast := hsome _ hcloser
    refine ⟨?_, inside.siblings hsome, tags.opener, hopener, tags.closer, hcloser, rfl,
      Or.inr ⟨block, tags.opens, tags.closes⟩, ?_⟩
    · rw [hplace]
      exact hopens.through hcloses (inside.le hsome)
    · intro inner hinner place hinnerplace
      have hbounds := inside.bounds hsome inner hinner place hinnerplace
      rw [hplace]
      dsimp only
      omega

namespace Document

/-- The items of a valid template nest as its tags do. Between delimiters of any kind and
without providers, the place of every item is from an opening to a closing delimiter and
has the line and the column of its start; places next to each other are in order; and what
is inside an item has its place strictly inside that of the item, after its opening tag and
before its closing tag. -/
theorem places_nest (settings : Settings) {marks : Delimiters}
    (hmarks : settings.delimiters? = some marks) (source : String)
    (hvalid : (parse settings [] source).isValid = true) :
    ((parse settings [] source).items.filterMap Item.span?).Pairwise (·.stop ≤ ·.start) ∧
    ∀ item ∈ (parse settings [] source).walk, ∀ span, item.span? = some span →
      item.StandsAt marks source.toList (Token.scan settings [] source).1 span := by
  have haccount := Token.accountFor_scan settings hmarks [] source
    (fun piece _ => piece.unclaimed_nil)
  have herrors : (parse settings [] source).errors = [] := List.isEmpty_iff.mp hvalid
  have hnone : (Item.ofTokens (!settings.disablesEscaping) []
      (Token.scan settings [] source).1).2 = [] := by
    have hperm := List.mergeSort_perm ((Token.scan settings [] source).2 ++
      (Item.ofTokens (!settings.disablesEscaping) [] (Token.scan settings [] source).1).2)
      fun a b => a.span.start ≤ b.span.start
    exact (List.append_eq_nil_iff.mp (List.perm_nil.mp (hperm.symm.trans (.of_eq herrors)))).2
  obtain ⟨d, hd, hitems⟩ := exists_derivation haccount.not_custom hnone
  have harranged : Item.Arranged (Token.scan settings [] source).1 0
      (parse settings [] source).items (byteSize source.toList) := by
    have hparse : (parse settings [] source).items = d.items (!settings.disablesEscaping) := hitems
    rw [hparse]
    exact d.arranged _ (hd ▸ List.Subset.refl _) (hd ▸ haccount.areBetween.1)
  refine ⟨harranged.siblings haccount.areBetween.2, ?_⟩
  rw [walk, Item.visit_eq_walkAll]
  exact harranged.standsAt haccount

/-- A section whose body declares a partial and whose other branch refers to it. -/
def nestedSource : String :=
  "é⟨#if a⟩⟨#declare p⟩ñ\n⟨/declare⟩⟨else⟩⟨> p⟩⟨/if⟩"

/-- The tokens of the section. -/
def nestedDerivation : Derivation :=
  .single ⟨.text, "é", ⟨0, 2, 1, 1⟩⟩ rfl <|
  .branches .truthy
    ⟨⟨.opening (.ofSection .truthy) "if", "a", ⟨2, 13, 1, 2⟩⟩, ⟨.closing, "if", ⟨65, 74, 2, 22⟩⟩,
      rfl, rfl⟩
    (.declaration
      ⟨⟨.opening .declaration "declare", "p", ⟨13, 29, 1, 9⟩⟩,
        ⟨.closing, "declare", ⟨32, 46, 2, 1⟩⟩, rfl, rfl⟩
      (.single ⟨.text, "ñ\n", ⟨29, 32, 1, 21⟩⟩ rfl .nil) .nil)
    ⟨.otherwise, "", ⟨46, 56, 2, 11⟩⟩ rfl
    (.single ⟨.reference, "p", ⟨56, 65, 2, 17⟩⟩ rfl .nil)
    .nil

theorem places_nest_sections :
    Settings.angled.delimiters? = some .angles ∧
    (parse .angled [] nestedSource).isValid = true ∧
    (parse .angled [] nestedSource).walk.filterMap Item.span? =
      [⟨2, 74, 1, 2⟩, ⟨13, 46, 1, 9⟩, ⟨56, 65, 2, 17⟩] ∧
    ∀ item ∈ (parse .angled [] nestedSource).walk, ∀ span, item.span? = some span →
      item.StandsAt .angles nestedSource.toList (Token.scan .angled [] nestedSource).1 span := by
  have hscan : Token.scan .angled [] nestedSource = (nestedDerivation.tokens, []) := by
    decide +kernel
  have hread : (Expression.read "a" ⟨2, 13, 1, 2⟩).2 = [] := by
    have hname : Expression.ChainText ⟨2, 13, 1, 2⟩ (['a'] ++ [])
        ⟨⟨[.name "a"], "a"⟩, [], ⟨2, 13, 1, 2⟩⟩ := .mk (by simp) (by simp; decide) rfl .nil
    have hword := Expression.read_of_chainText (List.forall_mem_nil _) hname (List.forall_mem_nil _)
    exact congrArg Prod.snd hword
  have hparse : parse .angled [] nestedSource = ⟨nestedDerivation.items true, [], none⟩ := by
    have herrors : nestedDerivation.errors = [] := by
      simp [nestedDerivation, Derivation.errors, Token.ownErrors, hread]
    have htokens := (nestedDerivation.adds true).ofTokens
    rw [herrors] at htokens
    have hescaping : (!Settings.angled.disablesEscaping) = true := rfl
    simp only [parse, hscan, hescaping, htokens, List.append_nil, List.mergeSort_nil]
    rfl
  have hvalid : (parse .angled [] nestedSource).isValid = true := by
    rw [hparse]
    rfl
  refine ⟨rfl, hvalid, ?_, (places_nest .angled rfl nestedSource hvalid).2⟩
  rw [hparse, walk, Item.visit_eq_walkAll]
  rfl

end Document

end Stencil
