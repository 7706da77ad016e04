import Mathlib.Data.List.Pairwise
import Stencil.Proofs.Document.Recovery
import Stencil.Proofs.Document.Rebuilding
import Stencil.Proofs.Expression.Places

/-!
The places of tokens are no part of what the builder makes of them. From tokens of the
same classes with the same values it makes the same items and reports the same faults,
at the places of the tokens that are in the same positions.
-/

namespace Stencil

/-- The fault without the line that it mentions. -/
def Fault.unplaced : Fault → Fault
  | closesOther name opened _ => closesOther name opened 0
  | fault => fault

def ParseError.unplaced (error : ParseError) : ParseError :=
  ⟨error.fault.unplaced, ⟨0, 0, 0, 0⟩⟩

def Opener.unplaced : Opener → Opener
  | block kind expression => block kind (expression.placed ⟨0, 0, 0, 0⟩)
  | declaration name => declaration name
  | custom tag => custom { tag with
      expression := tag.expression.map (·.placed ⟨0, 0, 0, 0⟩), span := ⟨0, 0, 0, 0⟩ }

theorem Opener.isSection_unplaced (opener : Opener) :
    opener.unplaced.isSection = opener.isSection := by
  cases opener <;> rfl

def Frame.unplaced (frame : Frame) : Frame :=
  ⟨{ frame.block with span := ⟨0, 0, 0, 0⟩ }, frame.opener.unplaced,
    Item.allUnplaced frame.body, frame.otherwise.map Item.allUnplaced⟩

namespace Frame

theorem unplaced_addAll (frame : Frame) (items : List Item) :
    (frame.addAll items).unplaced = frame.unplaced.addAll (Item.allUnplaced items) := by
  obtain ⟨block, opener, body, otherwise⟩ := frame
  cases otherwise <;> simp [addAll, unplaced, Item.allUnplaced_append]

theorem unplaced_close (frame : Frame) (span : Span) :
    (frame.close span).unplaced = frame.unplaced.close ⟨0, 0, 0, 0⟩ := by
  obtain ⟨block, opener, body, otherwise⟩ := frame
  cases opener <;> cases otherwise <;> rfl

end Frame

section Alike

variable {P : Span → Span → Prop}

/-- The token has the class and the value of the other one, and its place corresponds. -/
structure Token.Alike (P : Span → Span → Prop) (token token' : Token) : Prop where
  kind : token.kind = token'.kind
  value : token.value = token'.value
  places : P token.span token'.span

structure ParseError.Alike (P : Span → Span → Prop) (error error' : ParseError) : Prop where
  fault : error.fault.unplaced = error'.fault.unplaced
  places : P error.span error'.span

structure Frame.Alike (P : Span → Span → Prop) (frame frame' : Frame) : Prop where
  unplaced : frame.unplaced = frame'.unplaced
  places : P frame.block.span frame'.block.span

structure Builder.Alike (P : Span → Span → Prop) (builder builder' : Builder) : Prop where
  items : Item.allUnplaced builder.items = Item.allUnplaced builder'.items
  frames : List.Forall₂ (Frame.Alike P) builder.frames builder'.frames
  errors : List.Forall₂ (ParseError.Alike P) builder.errors builder'.errors

namespace Token.Alike

variable {token token' : Token}

theorem expression (h : token.Alike P token') :
    (Expression.read token.value token.span).1.placed ⟨0, 0, 0, 0⟩ =
      (Expression.read token'.value token'.span).1.placed ⟨0, 0, 0, 0⟩ := by
  rw [h.value, Expression.read_moved token'.value token.span token'.span,
    Expression.placed_placed]

theorem readErrors (h : token.Alike P token') :
    List.Forall₂ (ParseError.Alike P) (Expression.read token.value token.span).2
      (Expression.read token'.value token'.span).2 := by
  rw [h.value, Expression.read_moved token'.value token.span token'.span,
    List.forall₂_map_right_iff, List.forall₂_same]
  intro error herror
  obtain ⟨fault, -, rfl⟩ := List.mem_map.mp herror
  exact ⟨rfl, h.places⟩

theorem singleItems (h : token.Alike P token') (escaping : Bool) :
    Item.allUnplaced (token.singleItems escaping) =
      Item.allUnplaced (token'.singleItems escaping) := by
  have hexpression := h.expression
  have hkind := h.kind
  have hvalue := h.value
  obtain ⟨kind, value, span⟩ := token
  obtain ⟨kind', value', span'⟩ := token'
  obtain rfl : kind = kind' := hkind
  obtain rfl : value = value' := hvalue
  cases kind with
  | expression escape =>
      simp only [Token.singleItems, Item.allUnplaced, Item.unplaced]
      rw [hexpression]
  | reference =>
      simp only [Token.singleItems]
      split <;> rfl
  | text | comment | opening | closing | otherwise | custom => rfl

theorem ownErrors (h : token.Alike P token') :
    List.Forall₂ (ParseError.Alike P) token.ownErrors token'.ownErrors := by
  have hread := h.readErrors
  have places := h.places
  have hkind := h.kind
  have hvalue := h.value
  obtain ⟨kind, value, span⟩ := token
  obtain ⟨kind', value', span'⟩ := token'
  obtain rfl : kind = kind' := hkind
  obtain rfl : value = value' := hvalue
  have hnameless (fault : Fault) : List.Forall₂ (ParseError.Alike P)
      (if value.isEmpty then [⟨fault, span⟩] else [])
      (if value.isEmpty then [⟨fault, span'⟩] else []) := by
    split
    · exact .cons ⟨rfl, places⟩ .nil
    · exact .nil
  cases kind with
  | expression escape => exact hread
  | opening block name =>
      cases block with
      | ofSection kind => exact hread
      | declaration => exact hnameless _
  | reference => exact hnameless _
  | text | comment | closing | otherwise | custom => exact .nil

/-- The blocks that the tokens open are alike, too. -/
theorem opened (h : token.Alike P token') (block : BlockKind) :
    (Builder.opened block token).unplaced = (Builder.opened block token').unplaced := by
  cases block with
  | ofSection kind => exact congrArg (Opener.block kind) h.expression
  | declaration => exact congrArg Opener.declaration h.value

end Token.Alike

theorem Frame.Alike.addAll {frame frame' : Frame} (h : frame.Alike P frame')
    {items items' : List Item} (hitems : Item.allUnplaced items = Item.allUnplaced items') :
    (frame.addAll items).Alike P (frame'.addAll items') := by
  refine ⟨?_, ?_⟩
  · rw [Frame.unplaced_addAll, Frame.unplaced_addAll, h.unplaced, hitems]
  · rw [Frame.block_addAll, Frame.block_addAll]
    exact h.places

theorem Frame.Alike.close {frame frame' : Frame} (h : frame.Alike P frame') (span span' : Span) :
    Item.allUnplaced [frame.close span] = Item.allUnplaced [frame'.close span'] := by
  simp only [Item.allUnplaced, Frame.unplaced_close, h.unplaced]

theorem Frame.Alike.unclosed {frame frame' : Frame} (h : frame.Alike P frame') :
    frame.block.unclosed.Alike P frame'.block.unclosed := by
  have hname : frame.block.name = frame'.block.name := congrArg (·.block.name) h.unplaced
  exact ⟨congrArg Fault.unclosedBlock hname, h.places⟩

namespace Builder.Alike

variable {builder builder' : Builder}

theorem grow (h : builder.Alike P builder') {items items' : List Item}
    {errors errors' : List ParseError} (hitems : Item.allUnplaced items = Item.allUnplaced items')
    (herrors : List.Forall₂ (ParseError.Alike P) errors errors') :
    (builder.grow items errors).Alike P (builder'.grow items' errors') := by
  have hall := List.rel_append h.errors herrors
  obtain ⟨built, frames, reported⟩ := builder
  obtain ⟨built', frames', reported'⟩ := builder'
  cases h.frames with
  | nil =>
      refine ⟨?_, .nil, hall⟩
      simp only [Builder.grow, Item.allUnplaced_append, hitems, h.items]
  | cons hframe hframes => exact ⟨h.items, .cons (hframe.addAll hitems) hframes, hall⟩

theorem report (h : builder.Alike P builder') {fault fault' : Fault} {span span' : Span}
    (hfault : fault.unplaced = fault'.unplaced) (places : P span span') :
    (builder.report fault span).Alike P (builder'.report fault' span') := by
  rw [report_eq_grow, report_eq_grow]
  exact h.grow rfl (.cons ⟨hfault, places⟩ .nil)

theorem close (h : builder.Alike P builder') (name : String) {span span' : Span}
    (places : P span span') : (builder.close name span).Alike P (builder'.close name span') := by
  have hreport {fault fault' : Fault} (hfault : fault.unplaced = fault'.unplaced) :=
    h.report hfault places
  obtain ⟨items, frames, errors⟩ := builder
  obtain ⟨items', frames', errors'⟩ := builder'
  cases h.frames with
  | nil => exact hreport rfl
  | cons hframe hframes =>
      rename_i frame frame' frames frames'
      have hname : frame.block.name = frame'.block.name :=
        congrArg (·.block.name) hframe.unplaced
      simp only [Builder.close, hname]
      split
      · have hrest : Builder.Alike P ⟨items, frames, errors⟩ ⟨items', frames', errors'⟩ :=
          ⟨h.items, hframes, h.errors⟩
        rw [add_eq_grow, add_eq_grow]
        exact hrest.grow (hframe.close _ _) .nil
      · exact hreport rfl

theorem otherwise (h : builder.Alike P builder') {span span' : Span} (places : P span span') :
    (builder.otherwise span).Alike P (builder'.otherwise span') := by
  have hreport {fault : Fault} :
      (builder.report fault span).Alike P (builder'.report fault span') := h.report rfl places
  obtain ⟨items, frames, errors⟩ := builder
  obtain ⟨items', frames', errors'⟩ := builder'
  cases h.frames with
  | nil => exact hreport
  | cons hframe hframes =>
      rename_i frame frame' frames frames'
      have hbranch : frame.otherwise.isSome = frame'.otherwise.isSome := by
        have hsame := congrArg (·.otherwise.isSome) hframe.unplaced
        simpa only [Frame.unplaced, Option.isSome_map] using hsame
      have hopener : frame.opener.isSection = frame'.opener.isSection := by
        rw [← Opener.isSection_unplaced, ← frame'.opener.isSection_unplaced]
        exact congrArg (·.opener.isSection) hframe.unplaced
      simp only [Builder.otherwise, hbranch, hopener]
      split
      · exact hreport
      · split
        · refine ⟨h.items, .cons ⟨?_, hframe.places⟩ hframes, h.errors⟩
          exact congrArg (fun frame : Frame => { frame with otherwise := some [] }) hframe.unplaced
        · exact hreport

theorem addBuiltin (h : builder.Alike P builder') (escaping : Bool) (index : Nat)
    {token token' : Token} (htoken : token.Alike P token') :
    (builder.addBuiltin escaping index token).Alike P
      (builder'.addBuiltin escaping index token') := by
  have hkind' := htoken.kind.symm
  cases hkind : token.kind with
  | text | comment | expression | reference =>
      have isSingle : token.kind.isSingle = true := by rw [hkind]; rfl
      rw [addBuiltin_single _ _ _ _ isSingle, addBuiltin_single _ _ _ _ (hkind' ▸ isSingle)]
      exact h.grow (htoken.singleItems escaping) htoken.ownErrors
  | opening block name =>
      rw [addBuiltin_opening _ _ _ hkind, addBuiltin_opening _ _ _ (hkind'.trans hkind)]
      refine ⟨h.items, .cons ⟨?_, htoken.places⟩ h.frames,
        List.rel_append h.errors htoken.ownErrors⟩
      simp only [Frame.unplaced, htoken.opened block]
  | closing =>
      rw [addBuiltin_closing _ _ _ hkind, addBuiltin_closing _ _ _ (hkind'.trans hkind),
        htoken.value]
      exact h.close _ htoken.places
  | otherwise =>
      rw [addBuiltin_else _ _ _ hkind, addBuiltin_else _ _ _ (hkind'.trans hkind)]
      exact h.otherwise htoken.places
  | custom provider =>
      simp only [Builder.addBuiltin, hkind'.trans hkind, hkind, htoken.value]
      exact h.report rfl htoken.places

theorem addTokens (h : builder.Alike P builder') (escaping : Bool) (index : Nat)
    {tokens tokens' : List Token} (htokens : List.Forall₂ (Token.Alike P) tokens tokens') :
    (builder.addTokens escaping [] index tokens).Alike P
      (builder'.addTokens escaping [] index tokens') := by
  induction htokens generalizing builder builder' index with
  | nil => exact h
  | cons htoken hrest ih =>
      rw [addTokens_cons, addTokens_cons]
      exact ih (h.addBuiltin escaping index htoken) (index + 1)

end Builder.Alike

/-- Frames that are alike are closed alike at the end. -/
theorem Builder.closeAll_alike {items items' : List Item} {errors errors' : List ParseError}
    {frames frames' : List Frame} (hitems : Item.allUnplaced items = Item.allUnplaced items')
    (herrors : List.Forall₂ (ParseError.Alike P) errors errors')
    (hframes : List.Forall₂ (Frame.Alike P) frames frames') :
    Item.allUnplaced (closeAll items errors frames).1 =
        Item.allUnplaced (closeAll items' errors' frames').1 ∧
      List.Forall₂ (ParseError.Alike P) (closeAll items errors frames).2
        (closeAll items' errors' frames').2 := by
  fun_induction closeAll items errors frames generalizing errors' frames' with
  | case1 =>
      cases hframes
      rw [closeAll]
      exact ⟨hitems, herrors⟩
  | case2 errors frame =>
      cases hframes with
      | cons hframe hnone =>
          rename_i frame'
          cases hnone
          rw [closeAll]
          refine ⟨?_, List.rel_append herrors (.cons hframe.unclosed .nil)⟩
          rw [Item.allUnplaced_append, Item.allUnplaced_append, hitems, hframe.close]
  | case3 errors frame outer frames span =>
      rename_i ih
      cases hframes with
      | cons hframe hmore =>
          cases hmore with
          | cons houter hrest =>
              rw [closeAll]
              refine ih (List.rel_append herrors (.cons hframe.unclosed .nil)) (.cons ?_ hrest)
              rw [Frame.add_eq_addAll, Frame.add_eq_addAll]
              exact houter.addAll (hframe.close _ _)

/-- From tokens that are alike come items that are alike, and errors that are. -/
theorem Item.ofTokens_alike (escaping : Bool) {tokens tokens' : List Token}
    (h : List.Forall₂ (Token.Alike P) tokens tokens') :
    allUnplaced (ofTokens escaping [] tokens).1 = allUnplaced (ofTokens escaping [] tokens').1 ∧
      List.Forall₂ (ParseError.Alike P) (ofTokens escaping [] tokens).2
        (ofTokens escaping [] tokens').2 := by
  have hempty : Builder.empty.Alike P Builder.empty := ⟨rfl, .nil, .nil⟩
  obtain ⟨hitems, hframes, herrors⟩ := hempty.addTokens escaping 0 h
  exact Builder.closeAll_alike hitems herrors hframes

end Alike

end Stencil
