import Stencil.Proofs.Document.Steps

/-!
No accepted token is lost, doubled or moved. Whatever is wrong with the blocks
of a template, its tree, walked in document order, comes past one item for each
token that stands for an item, in the order of the tokens. The invariant takes
the frames of a builder together: the items outside all blocks, then, from the
outermost frame inwards, the opener of each and what it has collected.
-/

namespace Stencil

/-- What an item is apart from the items inside it and the extent of its block. -/
inductive Item.Label where
  | literal (text : String)
  | output (expression : Expression) (escape : Bool) (span : Span)
  | block (kind : SectionKind) (expression : Expression)
  | reference (name : String) (span : Span)
  | declaration (name : String)
  | custom (provider name : String)

def Item.label : Item → Item.Label
  | .literal text => .literal text
  | .output expression escape span => .output expression escape span
  | .block kind expression _ _ _ => .block kind expression
  | .reference name span => .reference name span
  | .declaration name _ _ => .declaration name
  | .custom tag _ => .custom tag.provider tag.name

/-- The labels of the items of a forest, in document order. -/
def Item.labels (items : List Item) : List Item.Label :=
  (walkAll items).map label

/-- What the item of a token is. Texts, expressions, opening tags and references
to a name stand for an item; comments, closers and elses do not. -/
def Token.label? (escaping : Bool) (token : Token) : Option Item.Label :=
  match token.kind with
  | .text => some (.literal token.value)
  | .expression escape =>
      some (.output (Expression.read token.value token.span).1 (escape && escaping) token.span)
  | .opening (.ofSection kind) _ =>
      some (.block kind (Expression.read token.value token.span).1)
  | .opening .declaration _ => some (.declaration token.value)
  | .reference =>
      if token.value.isEmpty then none else some (.reference token.value token.span)
  | .comment | .closing | .otherwise | .custom _ => none

namespace Item

@[simp] theorem labels_nil : labels [] = [] := rfl

@[simp] theorem labels_append (first second : List Item) :
    labels (first ++ second) = labels first ++ labels second := by
  rw [labels, walkAll_append, List.map_append]
  rfl

theorem labels_singleton (item : Item) : labels [item] = item.label :: labels item.children := by
  rw [labels, walkAll, walk_eq]
  simp only [walkAll, List.append_nil, List.map_cons, labels]

end Item

def Opener.label : Opener → Item.Label
  | .block kind expression => .block kind expression
  | .declaration name => .declaration name
  | .custom tag => .custom tag.provider tag.name

namespace Frame

/-- The labels of a frame: that of its opener, then those of what it has
collected. -/
def labels (frame : Frame) : List Item.Label :=
  frame.opener.label :: Item.labels (frame.body ++ frame.otherwise.getD [])

variable (frame : Frame)

@[simp] theorem labels_addAll (items : List Item) :
    (frame.addAll items).labels = frame.labels ++ Item.labels items := by
  obtain ⟨block, opener, body, otherwise⟩ := frame
  cases otherwise <;> simp [addAll, labels]

/-- A closed frame keeps all that it has collected. -/
theorem labels_close (h : frame.IsProper) (span : Span) :
    Item.labels [frame.close span] = frame.labels := by
  obtain ⟨block, opener, body, otherwise⟩ := frame
  rw [Item.labels_singleton]
  cases opener with
  | block kind expression => rfl
  | declaration name | custom tag =>
      cases otherwise with
      | none => simp [close, labels, Item.label, Item.children, Opener.label]
      | some items => cases h rfl

end Frame

namespace Builder

/-- The labels of all that a builder holds, from the outside inwards. -/
def labels (builder : Builder) : List Item.Label :=
  Item.labels builder.items ++ builder.frames.reverse.flatMap Frame.labels

variable {builder : Builder}

theorem labels_within (frame : Frame) (errors : List ParseError) :
    (builder.within frame errors).labels = builder.labels ++ frame.labels := by
  simp [labels, within]

/-- New items come last. -/
theorem labels_grow (items : List Item) (errors : List ParseError) :
    (builder.grow items errors).labels = builder.labels ++ Item.labels items := by
  obtain ⟨built, frames, reported⟩ := builder
  cases frames with
  | nil => simp [labels, grow]
  | cons frame frames => simp [labels, grow]

theorem labels_singleItems (escaping : Bool) (token : Token)
    (isSingle : token.kind.isSingle = true) :
    Item.labels (token.singleItems escaping) = (token.label? escaping).toList := by
  obtain ⟨kind, value, span⟩ := token
  cases kind with
  | text | comment | expression escape => rfl
  | reference =>
      simp only [Token.singleItems, Token.label?]
      split <;> rfl
  | opening | closing | otherwise | custom => cases isSingle

/-- A token adds the label of its item after all others, or nothing. -/
theorem labels_step {escaping : Bool} {index : Nat} {token : Token} {after : Builder}
    (hproper : builder.IsProper) (h : Step escaping index token builder after) :
    after.labels = builder.labels ++ (token.label? escaping).toList := by
  cases h with
  | grows isSingle result =>
      rw [result, labels_grow, labels_singleItems escaping token isSingle]
  | @opens block name opens result =>
      rw [result, labels_within]
      congr 1
      cases block <;> simp only [Token.label?, opens] <;> rfl
  | @closes frame frames closes inside named result =>
      have hframe : frame.IsProper := hproper frame (inside ▸ List.mem_cons_self ..)
      rw [result, labels_grow, Frame.labels_close _ hframe]
      simp [labels, inside, Token.label?, closes]
  | @branches frame frames isElse inside isSection isWhole result =>
      rw [result]
      simp [labels, inside, Frame.labels, isWhole, Token.label?, isElse]
  | refuses fault unexpected refused result =>
      have hnone : token.label? escaping = none := by
        rcases refused with hkind | hkind | ⟨provider, hkind⟩ <;>
          simp only [Token.label?, hkind]
      rw [result]
      simp [labels, report, hnone]

theorem labels_addTokens (hproper : builder.IsProper) (escaping : Bool) (index : Nat)
    (tokens : List Token) :
    (builder.addTokens escaping [] index tokens).labels =
      builder.labels ++ tokens.filterMap (Token.label? escaping) := by
  induction tokens generalizing builder index with
  | nil => exact (List.append_nil _).symm
  | cons token tokens ih =>
      have hstep := builder.step_addBuiltin escaping index token
      rw [addTokens_cons, ih (hproper.step hstep), labels_step hproper hstep, List.append_assoc]
      cases hlabel : token.label? escaping with
      | none => rw [List.filterMap_cons_none hlabel]; rfl
      | some label => rw [List.filterMap_cons_some hlabel]; rfl

/-- Folding the frames that are left open into each other loses nothing. -/
theorem labels_closeAll (items : List Item) (errors : List ParseError) (frames : List Frame)
    (hproper : ∀ frame ∈ frames, frame.IsProper) :
    Item.labels (closeAll items errors frames).1 = labels ⟨items, frames, errors⟩ := by
  fun_induction closeAll items errors frames with
  | case1 => simp [labels]
  | case2 errors frame span =>
      rw [Item.labels_append, frame.labels_close (hproper frame (List.mem_singleton.mpr rfl))]
      simp [labels]
  | case3 errors frame outer frames span ih =>
      rw [List.forall_mem_cons, List.forall_mem_cons] at hproper
      obtain ⟨hframe, houter, hframes⟩ := hproper
      rw [Frame.add_eq_addAll] at ih ⊢
      rw [ih (List.forall_mem_cons.mpr ⟨houter.addAll _, hframes⟩)]
      simp [labels, frame.labels_close hframe]

end Builder

/-- The labels of the tree that tokens form are those of the tokens, in their order. -/
theorem Item.labels_ofTokens (escaping : Bool) (tokens : List Token) :
    labels (ofTokens escaping [] tokens).1 = tokens.filterMap (Token.label? escaping) := by
  have hproper := Builder.isProper_empty.addTokens escaping 0 tokens
  have hlabels := Builder.labels_addTokens Builder.isProper_empty escaping 0 tokens
  exact (Builder.labels_closeAll _ _ _ hproper).trans hlabels

/-- No accepted token is lost, doubled or moved, whatever errors the template
has: the walk of the tree that tokens form lists an item for each text,
expression, opening tag and reference to a name, in the order of the tokens, and
no other item. -/
theorem Document.walk_ofTokens (escaping : Bool) (tokens : List Token) (model : Option Model) :
    let (items, errors) := Item.ofTokens escaping [] tokens
    (Document.walk ⟨items, errors, model⟩).map Item.label =
      tokens.filterMap (Token.label? escaping) := by
  simp only [Document.walk, Item.visit_eq_walkAll]
  exact Item.labels_ofTokens escaping tokens

end Stencil
