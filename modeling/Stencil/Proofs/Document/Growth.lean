import Stencil.Proofs.Document.Grammar

/-!
What the builder does along a derivation. Each step of the builder either adds
items and errors to the block that it is in, or enters or leaves a block, so
that the tokens of a derivation add the items that it denotes, whatever block
the builder is in.
-/

namespace Stencil

/-- A frame with more items in the branch that is being collected. -/
def Frame.addAll (frame : Frame) (items : List Item) : Frame :=
  match frame.otherwise with
  | some others => { frame with otherwise := some (others ++ items) }
  | none => { frame with body := frame.body ++ items }

namespace Builder

/-- A builder with more items in its innermost block, and more errors. -/
def grow (builder : Builder) (items : List Item) (errors : List ParseError) : Builder :=
  match builder.frames with
  | [] => ⟨builder.items ++ items, [], builder.errors ++ errors⟩
  | frame :: frames =>
      ⟨builder.items, frame.addAll items :: frames, builder.errors ++ errors⟩

variable (builder : Builder)

theorem grow_nil : builder.grow [] [] = builder := by
  obtain ⟨items, frames, errors⟩ := builder
  cases frames with
  | nil => simp [grow]
  | cons frame frames =>
      obtain ⟨block, opener, body, otherwise⟩ := frame
      cases otherwise <;> simp [grow, Frame.addAll]

theorem grow_grow (items items' : List Item) (errors errors' : List ParseError) :
    (builder.grow items errors).grow items' errors' =
      builder.grow (items ++ items') (errors ++ errors') := by
  obtain ⟨built, frames, reported⟩ := builder
  cases frames with
  | nil => simp [grow]
  | cons frame frames =>
      obtain ⟨block, opener, body, otherwise⟩ := frame
      cases otherwise <;> simp [grow, Frame.addAll]

theorem add_eq_grow (item : Item) : builder.add item = builder.grow [item] [] := by
  obtain ⟨built, frames, reported⟩ := builder
  cases frames with
  | nil => simp [add, grow]
  | cons frame frames =>
      obtain ⟨block, opener, body, otherwise⟩ := frame
      cases otherwise <;> simp [add, grow, Frame.add, Frame.addAll]

theorem reportAll_eq_grow (errors : List ParseError) :
    builder.reportAll errors = builder.grow [] errors := by
  obtain ⟨built, frames, reported⟩ := builder
  cases frames with
  | nil => simp [reportAll, grow]
  | cons frame frames =>
      obtain ⟨block, opener, body, otherwise⟩ := frame
      cases otherwise <;> simp [reportAll, grow, Frame.addAll]

theorem report_eq_grow (fault : Fault) (span : Span) :
    builder.report fault span = builder.grow [] [⟨fault, span⟩] :=
  builder.reportAll_eq_grow [⟨fault, span⟩]

/-- A builder inside one more block, after some more errors. -/
def within (frame : Frame) (errors : List ParseError) : Builder :=
  ⟨builder.items, frame :: builder.frames, builder.errors ++ errors⟩

theorem within_grow (frame : Frame) (items : List Item) (errors errors' : List ParseError) :
    (builder.within frame errors).grow items errors' =
      builder.within (frame.addAll items) (errors ++ errors') := by
  simp only [within, grow, List.append_assoc]

/-- Closing the innermost block by its name adds its item to the block around it. -/
theorem close_within (frame : Frame) (errors : List ParseError) (span : Span) :
    (builder.within frame errors).close frame.block.name span =
      builder.grow [frame.close (frame.block.span.merge span)] errors := by
  have hreport : (⟨builder.items, builder.frames, builder.errors ++ errors⟩ : Builder) =
      builder.grow [] errors := builder.reportAll_eq_grow errors
  simp only [within, close, if_true]
  rw [hreport, add_eq_grow, grow_grow, List.nil_append, List.append_nil]

/-- An `else` starts the other branch of a section that has none yet. -/
theorem otherwise_within (block : OpenBlock) (kind : SectionKind) (expression : Expression)
    (items : List Item) (errors : List ParseError) (span : Span) :
    (builder.within ⟨block, .block kind expression, items, none⟩ errors).otherwise span =
      builder.within ⟨block, .block kind expression, items, some []⟩ errors := rfl

/-- A token that is an item by itself adds that item, wherever it stands. -/
theorem addBuiltin_single (escaping : Bool) (index : Nat) (token : Token)
    (isSingle : token.kind.isSingle = true) :
    builder.addBuiltin escaping index token =
      builder.grow (token.singleItems escaping) token.ownErrors := by
  obtain ⟨kind, value, span⟩ := token
  cases kind with
  | text => simp only [addBuiltin, add_eq_grow]; rfl
  | comment => exact builder.grow_nil.symm
  | expression escape =>
      simp only [addBuiltin, add_eq_grow, reportAll_eq_grow, grow_grow]
      simp [Token.singleItems, Token.ownErrors]
  | reference =>
      simp only [addBuiltin, Token.singleItems, Token.ownErrors]
      split
      · exact builder.report_eq_grow _ _
      · exact builder.add_eq_grow _
  | opening | closing | otherwise | custom => cases isSingle

/-- What the frame of an opening tag becomes when it is closed. -/
def opened (block : BlockKind) (token : Token) : Opener :=
  match block with
  | .ofSection kind => .block kind (Expression.read token.value token.span).1
  | .declaration => .declaration token.value

theorem addBuiltin_opening (escaping : Bool) (index : Nat) {token : Token} {block : BlockKind}
    {name : String} (opens : token.kind = .opening block name) :
    builder.addBuiltin escaping index token =
      builder.within ⟨⟨name, index, token.span⟩, opened block token, [], none⟩
        token.ownErrors := by
  obtain ⟨kind, value, span⟩ := token
  cases opens
  cases block with
  | ofSection kind => rfl
  | declaration =>
      simp only [addBuiltin, Token.ownErrors]
      split
      · rfl
      · simp only [within, openBlock, List.append_nil]
        rfl

theorem addBuiltin_closing (escaping : Bool) (index : Nat) {token : Token}
    (closes : token.kind = .closing) :
    builder.addBuiltin escaping index token = builder.close token.value token.span := by
  simp only [addBuiltin, closes]

theorem addBuiltin_else (escaping : Bool) (index : Nat) {token : Token}
    (isElse : token.kind = .otherwise) :
    builder.addBuiltin escaping index token = builder.otherwise token.span := by
  simp only [addBuiltin, isElse]

/-- Without providers a token is handled by the built-in rules. -/
theorem addTokens_cons (escaping : Bool) (index : Nat) (token : Token) (tokens : List Token) :
    builder.addTokens escaping [] index (token :: tokens) =
      (builder.addBuiltin escaping index token).addTokens escaping [] (index + 1) tokens := by
  simp only [addTokens, addToken, List.find?_nil]

end Builder

/-- Whatever block a builder is in, these tokens add these items to it, and
these errors. -/
def Adds (escaping : Bool) (tokens : List Token) (items : List Item)
    (errors : List ParseError) : Prop :=
  ∀ (builder : Builder) (index : Nat) (after : List Token), ∃ index',
    builder.addTokens escaping [] index (tokens ++ after) =
      (builder.grow items errors).addTokens escaping [] index' after

namespace Adds

variable {escaping : Bool} {tokens tokens' : List Token} {items items' : List Item}
  {errors errors' : List ParseError}

theorem nil : Adds escaping [] [] [] := by
  intro builder index after
  exact ⟨index, by rw [builder.grow_nil]; rfl⟩

theorem append (hfirst : Adds escaping tokens items errors)
    (hsecond : Adds escaping tokens' items' errors') :
    Adds escaping (tokens ++ tokens') (items ++ items') (errors ++ errors') := by
  intro builder index after
  obtain ⟨middle, hmiddle⟩ := hfirst builder index (tokens' ++ after)
  obtain ⟨index', hlast⟩ := hsecond (builder.grow items errors) middle after
  exact ⟨index', by rw [List.append_assoc, hmiddle, hlast, Builder.grow_grow]⟩

theorem single (escaping : Bool) (token : Token) (isSingle : token.kind.isSingle = true) :
    Adds escaping [token] (token.singleItems escaping) token.ownErrors := by
  intro builder index after
  refine ⟨index + 1, ?_⟩
  rw [List.singleton_append, Builder.addTokens_cons, builder.addBuiltin_single _ _ _ isSingle]

/-- An opening tag and what follows it are collected in a frame. -/
theorem opener {block : BlockKind} (tags : TagPair block)
    (hbody : Adds escaping tokens items errors) (builder : Builder) (index : Nat)
    (after : List Token) :
    ∃ index', builder.addTokens escaping [] index (tags.opener :: (tokens ++ after)) =
      (builder.within ⟨⟨tags.closer.value, index, tags.opener.span⟩,
        Builder.opened block tags.opener, items, none⟩
        (tags.opener.ownErrors ++ errors)).addTokens escaping [] index' after := by
  obtain ⟨index', h⟩ := hbody (builder.within ⟨⟨tags.closer.value, index, tags.opener.span⟩,
    Builder.opened block tags.opener, [], none⟩ tags.opener.ownErrors) (index + 1) after
  refine ⟨index', ?_⟩
  rw [Builder.addTokens_cons, builder.addBuiltin_opening escaping index tags.opens, h,
    Builder.within_grow]
  rfl

theorem closer {block : BlockKind} (tags : TagPair block) (builder : Builder) (frame : Frame)
    (hname : frame.block.name = tags.closer.value) (index : Nat) (after : List Token) :
    (builder.within frame errors).addTokens escaping [] index (tags.closer :: after) =
      (builder.grow [frame.close (frame.block.span.merge tags.closer.span)] errors).addTokens
        escaping [] (index + 1) after := by
  rw [Builder.addTokens_cons, Builder.addBuiltin_closing _ _ _ tags.closes, ← hname,
    builder.close_within]

theorem enclosed {block : BlockKind} (tags : TagPair block)
    (hbody : Adds escaping tokens items errors) :
    Adds escaping (tags.opener :: (tokens ++ [tags.closer]))
      [(⟨⟨tags.closer.value, 0, tags.opener.span⟩, Builder.opened block tags.opener, items,
        none⟩ : Frame).close tags.span]
      (tags.opener.ownErrors ++ errors) := by
  intro builder index after
  obtain ⟨closing, h⟩ := opener tags hbody builder index (tags.closer :: after)
  refine ⟨closing + 1, ?_⟩
  rw [List.cons_append, List.append_assoc, List.singleton_append, h,
    closer tags builder _ rfl]
  rfl

theorem branched {kind : SectionKind} (tags : TagPair (.ofSection kind)) {middle : Token}
    (isElse : middle.kind = .otherwise) (hbody : Adds escaping tokens items errors)
    (hother : Adds escaping tokens' items' errors') :
    Adds escaping (tags.opener :: (tokens ++ middle :: (tokens' ++ [tags.closer])))
      [.block kind tags.expression items items' tags.span]
      (tags.opener.ownErrors ++ errors ++ errors') := by
  intro builder index after
  obtain ⟨parting, h⟩ :=
    opener tags hbody builder index (middle :: (tokens' ++ tags.closer :: after))
  obtain ⟨closing, h'⟩ := hother (builder.within ⟨⟨tags.closer.value, index, tags.opener.span⟩,
    Builder.opened (.ofSection kind) tags.opener, items, some []⟩
    (tags.opener.ownErrors ++ errors)) (parting + 1) (tags.closer :: after)
  refine ⟨closing + 1, ?_⟩
  simp only [List.cons_append, List.append_assoc, List.nil_append]
  rw [h, Builder.addTokens_cons, Builder.addBuiltin_else _ _ _ isElse, Builder.opened,
    Builder.otherwise_within]
  rw [Builder.opened] at h'
  rw [h', Builder.within_grow, closer tags builder _ rfl, List.append_assoc]
  rfl

end Adds

/-- Tokens that add items and errors wherever they stand are the document of these. -/
theorem Adds.ofTokens {escaping : Bool} {tokens : List Token} {items : List Item}
    {errors : List ParseError} (h : Adds escaping tokens items errors) :
    Item.ofTokens escaping [] tokens = (items, errors) := by
  obtain ⟨index, hbuilt⟩ := h .empty 0 []
  rw [List.append_nil] at hbuilt
  simp only [Item.ofTokens, hbuilt, Builder.addTokens]
  simp [Builder.grow, Builder.empty, Builder.finish, Builder.closeAll]

/-- A derivation adds the items that it denotes and the errors of its tokens. -/
theorem Derivation.adds (escaping : Bool) (d : Derivation) :
    Adds escaping d.tokens (d.items escaping) d.errors := by
  induction d with
  | nil => exact Adds.nil
  | single token isSingle rest ih => exact (Adds.single escaping token isSingle).append ih
  | block kind tags body rest ihbody ih =>
      have h : Adds escaping _ ([.block kind tags.expression (body.items escaping) [] tags.span] ++
        rest.items escaping) _ := (Adds.enclosed tags ihbody).append ih
      simpa only [tokens, items, errors, List.cons_append, List.append_assoc,
        List.nil_append] using h
  | branches kind tags body middle isElse alternative rest ihbody ihalternative ih =>
      have h := (Adds.branched tags isElse ihbody ihalternative).append ih
      simpa only [tokens, items, errors, List.cons_append, List.append_assoc,
        List.nil_append] using h
  | declaration tags body rest ihbody ih =>
      have h : Adds escaping _ ([.declaration tags.opener.value (body.items escaping) tags.span] ++
        rest.items escaping) _ := (Adds.enclosed tags ihbody).append ih
      simpa only [tokens, items, errors, List.cons_append, List.append_assoc,
        List.nil_append] using h

end Stencil
