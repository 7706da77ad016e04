import Stencil.Proofs.Document.Preorder

/-!
The builder with two stacks: the open blocks that a provider is shown on one of them, and
the items that are collected for these blocks on the other. Items and `else` tags look at
the second one, closing tags at the first, and what is left at the end is taken off both
as long as neither is empty. The stacks stay level, so that this is the builder with one
stack of frames.
-/

namespace Stencil

/-- What is collected for an open block. -/
structure Collector where
  opener : Opener
  body : List Item
  otherwise : Option (List Item)

namespace Collector

def add (collector : Collector) (item : Item) : Collector :=
  match collector.otherwise with
  | some items => { collector with otherwise := some (items ++ [item]) }
  | none => { collector with body := collector.body ++ [item] }

def close (collector : Collector) (span : Span) : Item :=
  match collector.opener with
  | .block kind expression =>
      .block kind expression collector.body (collector.otherwise.getD []) span
  | .declaration name => .declaration name collector.body span
  | .custom tag => .custom { tag with span } collector.body

/-- The labels of what is collected: that of the opener, then those of the items. -/
def labels (collector : Collector) : List Item.Label :=
  collector.opener.label :: Item.labels (collector.body ++ collector.otherwise.getD [])

end Collector

/-- A document being built with two stacks, innermost first. -/
structure Stacks where
  items : List Item
  collectors : List Collector
  scopes : List OpenBlock
  errors : List ParseError

namespace Stacks

def empty : Stacks := ⟨[], [], [], []⟩

def add (state : Stacks) (item : Item) : Stacks :=
  match state.collectors with
  | [] => { state with items := state.items ++ [item] }
  | collector :: collectors => { state with collectors := collector.add item :: collectors }

def reportAll (state : Stacks) (errors : List ParseError) : Stacks :=
  { state with errors := state.errors ++ errors }

def report (state : Stacks) (fault : Fault) (span : Span) : Stacks :=
  state.reportAll [⟨fault, span⟩]

def openBlock (state : Stacks) (opener : Opener) (block : OpenBlock) : Stacks :=
  { state with
    collectors := ⟨opener, [], none⟩ :: state.collectors
    scopes := block :: state.scopes }

/-- Closes the innermost block if it has this name. An item is made of it only if there
is something on both stacks. -/
def close (state : Stacks) (name : String) (span : Span) : Stacks :=
  match state.scopes with
  | [] => state.report (.closesNothing name) span
  | block :: scopes =>
      if block.name = name then
        match state.collectors with
        | [] => { state with scopes }
        | collector :: collectors =>
            { state with collectors, scopes }.add (collector.close (block.span.merge span))
      else state.report (.closesOther name block.name block.span.line) span

def otherwise (state : Stacks) (span : Span) : Stacks :=
  match state.collectors with
  | [] => state.report .strayElse span
  | collector :: collectors =>
      if collector.otherwise.isSome then state.report .secondElse span
      else if collector.opener.isSection then
        { state with collectors := { collector with otherwise := some [] } :: collectors }
      else state.report .strayElse span

def claim (state : Stacks) (claim : Claim) (index : Nat) (span : Span) : Stacks :=
  match claim with
  | .item item => state.add item
  | .opens tag => state.openBlock (.custom tag) ⟨tag.name, index, span⟩
  | .closes name => state.close name span
  | .skips => state

def addBuiltin (escaping : Bool) (state : Stacks) (index : Nat) (token : Token) : Stacks :=
  match token.kind with
  | .text | .comment | .expression _ | .reference =>
      (token.singleItems escaping).foldl add (state.reportAll token.ownErrors)
  | .opening block name =>
      (state.reportAll token.ownErrors).openBlock (Builder.opened block token)
        ⟨name, index, token.span⟩
  | .closing => state.close token.value token.span
  | .otherwise => state.otherwise token.span
  | .custom provider => state.report (.unclaimed provider token.value) token.span

/-- Handles a token. A provider is shown the stack of the open blocks, outermost first. -/
def addToken (escaping : Bool) (providers : List Provider) (state : Stacks) (index : Nat)
    (token : Token) : Stacks :=
  match providers.find? (·.claimsToken token) with
  | some provider =>
      match provider.parse token state.scopes.reverse with
      | .ok claim => state.claim claim index token.span
      | .error error => state.reportAll [error]
  | none => state.addBuiltin escaping index token

def addTokens (escaping : Bool) (providers : List Provider) (state : Stacks) (index : Nat) :
    List Token → Stacks
  | [] => state
  | token :: tokens =>
      addTokens escaping providers (state.addToken escaping providers index token)
        (index + 1) tokens

/-- Reports what is left on the stack of open blocks and makes items of what is collected,
as long as there is something on both. -/
def closeAll (state : Stacks) : List OpenBlock → List Item × List ParseError
  | [] => (state.items, state.errors)
  | block :: scopes =>
      match state.collectors with
      | [] => (state.items, state.errors)
      | collector :: collectors =>
          closeAll (({ state with collectors, scopes }.add (collector.close block.span)).report
            (.unclosedBlock block.name) block.span) scopes

def finish (state : Stacks) : List Item × List ParseError :=
  state.closeAll state.scopes

end Stacks

/-- What is collected in a frame, without the block. -/
def Frame.collector (frame : Frame) : Collector :=
  ⟨frame.opener, frame.body, frame.otherwise⟩

theorem Frame.collector_add (frame : Frame) (item : Item) :
    (frame.add item).collector = frame.collector.add item := by
  obtain ⟨block, opener, body, otherwise⟩ := frame
  cases otherwise <;> rfl

namespace Builder

/-- The builder with its frames taken apart. -/
def split (builder : Builder) : Stacks :=
  ⟨builder.items, builder.frames.map Frame.collector, builder.blocks, builder.errors⟩

variable (builder : Builder)

theorem split_add (item : Item) : (builder.add item).split = builder.split.add item := by
  obtain ⟨items, frames, errors⟩ := builder
  cases frames with
  | nil => rfl
  | cons frame frames =>
      simp only [add, split, blocks, Stacks.add, List.map_cons, frame.collector_add item]
      rw [frame.add_eq_addAll, frame.block_addAll]

theorem split_close (name : String) (span : Span) :
    (builder.close name span).split = builder.split.close name span := by
  obtain ⟨items, frames, errors⟩ := builder
  cases frames with
  | nil => rfl
  | cons frame frames =>
      simp only [close, Stacks.close, split, blocks, List.map_cons]
      split
      · exact split_add ⟨items, frames, errors⟩ _
      · rfl

theorem split_otherwise (span : Span) :
    (builder.otherwise span).split = builder.split.otherwise span := by
  obtain ⟨items, frames, errors⟩ := builder
  cases frames with
  | nil => rfl
  | cons frame frames =>
      simp only [otherwise, Stacks.otherwise, split, List.map_cons, Frame.collector]
      split
      · rfl
      · split <;> rfl

theorem split_claim (claim : Claim) (index : Nat) (span : Span) :
    (builder.claim claim index span).split = builder.split.claim claim index span := by
  cases claim with
  | item item => exact builder.split_add item
  | opens tag => rfl
  | closes name => exact builder.split_close name span
  | skips => rfl

theorem foldl_add (items : List Item) : items.foldl add builder = builder.grow items [] := by
  induction items generalizing builder with
  | nil => exact builder.grow_nil.symm
  | cons item items ih => rw [List.foldl_cons, ih, add_eq_grow, grow_grow, List.nil_append]; rfl

theorem split_grow (items : List Item) (errors : List ParseError) :
    (builder.grow items errors).split =
      items.foldl Stacks.add (builder.split.reportAll errors) := by
  have hadds : items.foldl add (builder.reportAll errors) = builder.grow items errors := by
    rw [foldl_add, reportAll_eq_grow, grow_grow, List.nil_append, List.append_nil]
  have hsplit : builder.split.reportAll errors = (builder.reportAll errors).split := rfl
  rw [hsplit, ← hadds]
  exact (List.foldl_hom split fun builder item => (builder.split_add item).symm).symm

theorem split_addBuiltin (escaping : Bool) (index : Nat) (token : Token) :
    (builder.addBuiltin escaping index token).split =
      builder.split.addBuiltin escaping index token := by
  cases hkind : token.kind with
  | text | comment | expression | reference =>
      have isSingle : token.kind.isSingle = true := by rw [hkind]; rfl
      rw [builder.addBuiltin_single _ _ _ isSingle, split_grow]
      simp only [Stacks.addBuiltin, hkind]
  | opening block name =>
      rw [builder.addBuiltin_opening _ _ hkind]
      simp only [Stacks.addBuiltin, hkind]
      rfl
  | closing =>
      rw [builder.addBuiltin_closing _ _ hkind, split_close]
      simp only [Stacks.addBuiltin, hkind]
  | otherwise =>
      rw [builder.addBuiltin_else _ _ hkind, split_otherwise]
      simp only [Stacks.addBuiltin, hkind]
  | custom provider =>
      simp only [addBuiltin, Stacks.addBuiltin, hkind]
      rfl

theorem split_addToken (escaping : Bool) (providers : List Provider) (index : Nat)
    (token : Token) :
    (builder.addToken escaping providers index token).split =
      builder.split.addToken escaping providers index token := by
  have hblocks : builder.split.scopes.reverse = builder.openBlocks := rfl
  cases hfind : providers.find? (·.claimsToken token) with
  | none =>
      simp only [addToken, Stacks.addToken, hfind]
      exact builder.split_addBuiltin escaping index token
  | some provider =>
      cases hparse : provider.parse token builder.openBlocks with
      | error error =>
          simp only [addToken, Stacks.addToken, hfind, hblocks, hparse]
          rfl
      | ok claim =>
          simp only [addToken, Stacks.addToken, hfind, hblocks, hparse]
          exact builder.split_claim claim index token.span

/-- The builder takes the same steps with one stack as with two. -/
theorem split_addTokens (escaping : Bool) (providers : List Provider) (index : Nat)
    (tokens : List Token) :
    (builder.addTokens escaping providers index tokens).split =
      builder.split.addTokens escaping providers index tokens := by
  induction tokens generalizing builder index with
  | nil => rfl
  | cons token tokens ih =>
      rw [addTokens, Stacks.addTokens, ih, split_addToken]

/-- At the end, too, the two stacks do what the frames do. -/
theorem finish_split : builder.split.finish = builder.finish := by
  obtain ⟨items, frames, errors⟩ := builder
  simp only [Stacks.finish, finish]
  fun_induction closeAll items errors frames with
  | case1 => rfl
  | case2 errors frame span => rfl
  | case3 errors frame outer frames span ih =>
      have hadd := split_add ⟨items, outer :: frames,
        errors ++ [⟨.unclosedBlock frame.block.name, span⟩]⟩ (frame.close span)
      simp only [add] at hadd
      rw [← ih, hadd]
      rfl

/-- Only sections have another branch, whatever providers make of tokens. -/
theorem IsProper.addToken {builder : Builder} (h : builder.IsProper) (escaping : Bool)
    (providers : List Provider) (index : Nat) (token : Token) :
    (builder.addToken escaping providers index token).IsProper := by
  cases hfind : providers.find? (·.claimsToken token) with
  | none =>
      simp only [Builder.addToken, hfind]
      exact h.step (builder.step_addBuiltin escaping index token)
  | some provider =>
      cases hparse : provider.parse token builder.openBlocks with
      | error error =>
          simp only [Builder.addToken, hfind, hparse]
          exact h
      | ok claim =>
          simp only [Builder.addToken, hfind, hparse]
          cases claim with
          | item item =>
              rw [claim, add_eq_grow]
              exact h.grow _ _
          | opens tag =>
              refine List.forall_mem_cons.mpr ⟨?_, h⟩
              intro hbranch
              cases hbranch
          | closes name =>
              rw [claim]
              rcases builder.close_cases name token.span with
                ⟨fault, -, hreport⟩ | ⟨frame, frames, hframes, -, hclose⟩
              · rw [hreport]
                exact h
              · rw [IsProper, hframes, List.forall_mem_cons] at h
                have hrest : IsProper ⟨builder.items, frames, builder.errors⟩ := h.2
                rw [hclose]
                exact hrest.grow _ _
          | skips => exact h

theorem IsProper.addAllTokens {builder : Builder} (h : builder.IsProper) (escaping : Bool)
    (providers : List Provider) (index : Nat) (tokens : List Token) :
    (builder.addTokens escaping providers index tokens).IsProper := by
  induction tokens generalizing builder index with
  | nil => exact h
  | cons token tokens ih => exact ih (h.addToken escaping providers index token) (index + 1)

end Builder

end Stencil
