import Mathlib.Data.List.Forall2
import Stencil.Proofs.Document.Handling

/-!
How the builder recovers from errors in the block structure. A token that it
reports as unexpected might as well not be there, and a block that is never
closed is read as if it were closed at the end.
-/

namespace Stencil

/-- The tokens that are not reported as unexpected. -/
def Handling.accepted (handlings : List Handling) : List Token :=
  (handlings.filter (·.refusals.isEmpty)).map Handling.token

/-- A frame without the position of its opening tag. -/
def Frame.unnumbered (frame : Frame) : Frame :=
  { frame with block := { frame.block with tokenIndex := 0 } }

theorem Frame.unnumbered_addAll (frame : Frame) (items : List Item) :
    (frame.addAll items).unnumbered = frame.unnumbered.addAll items := by
  obtain ⟨block, opener, body, otherwise⟩ := frame
  cases otherwise <;> rfl

namespace Builder

/-- The open blocks and the items of a builder, without errors and positions. -/
def bare (builder : Builder) : Builder :=
  ⟨builder.items, builder.frames.map Frame.unnumbered, []⟩

theorem bare_grow (builder : Builder) (items : List Item) (errors : List ParseError) :
    (builder.grow items errors).bare = builder.bare.grow items [] := by
  obtain ⟨built, frames, reported⟩ := builder
  cases frames with
  | nil => rfl
  | cons frame frames => simp [bare, grow, Frame.unnumbered_addAll]

variable {builder other : Builder}

/-- Builders that differ in errors and positions either are both without open blocks, or
their innermost frames differ in their positions and so do the builders outside. -/
theorem frames_of_bare_eq (h : builder.bare = other.bare) :
    builder.items = other.items ∧
    ((builder.frames = [] ∧ other.frames = []) ∨
      ∃ frame frames frame' frames', builder.frames = frame :: frames ∧
        other.frames = frame' :: frames' ∧ frame.unnumbered = frame'.unnumbered ∧
        frames.map Frame.unnumbered = frames'.map Frame.unnumbered) := by
  obtain ⟨hitems, hframes, -⟩ := Builder.mk.inj h
  refine ⟨hitems, ?_⟩
  cases hfirst : builder.frames with
  | nil =>
      rw [hfirst] at hframes
      exact Or.inl ⟨rfl, List.map_eq_nil_iff.mp hframes.symm⟩
  | cons frame frames =>
      rw [hfirst, List.map_cons] at hframes
      obtain ⟨frame', frames', hsecond, hframe, hrest⟩ := List.map_eq_cons_iff.mp hframes.symm
      exact Or.inr ⟨frame, frames, frame', frames', rfl, hsecond, hframe.symm, hrest.symm⟩

/-- The first builder comes to the second as the third comes to the fourth: the same is
reported, and open blocks and items differ in positions at most. -/
def StepsAlike (before after before' after' : Builder) : Prop :=
  after.bare = after'.bare ∧ ∃ errors,
    after.errors = before.errors ++ errors ∧ after'.errors = before'.errors ++ errors

theorem stepsAlike_report (h : builder.bare = other.bare) (fault : Fault) (span : Span) :
    StepsAlike builder (builder.report fault span) other (other.report fault span) :=
  ⟨h, [⟨fault, span⟩], rfl, rfl⟩

theorem stepsAlike_close (h : builder.bare = other.bare) (name : String) (span : Span) :
    StepsAlike builder (builder.close name span) other (other.close name span) := by
  obtain ⟨hitems, ⟨hnone, hnone'⟩ |
    ⟨frame, frames, frame', frames', hsome, hsome', hframe, hframes⟩⟩ := frames_of_bare_eq h
  · simp only [close, hnone, hnone']
    exact stepsAlike_report h _ _
  · have hname : frame.block.name = frame'.block.name :=
      congrArg (·.block.name) hframe
    have hspan : frame.block.span = frame'.block.span :=
      congrArg (·.block.span) hframe
    have hclose (span : Span) : frame.close span = frame'.close span :=
      congrArg (·.close span) hframe
    simp only [close, hsome, hsome', hname, hspan, hclose]
    split
    · have hbare : (⟨builder.items, frames, builder.errors⟩ : Builder).bare =
          (⟨other.items, frames', other.errors⟩ : Builder).bare := by
        simp only [bare, hitems, hframes]
      simp only [add_eq_grow]
      refine ⟨by rw [bare_grow, bare_grow, hbare], [], ?_, ?_⟩ <;> rw [errors_grow]
    · exact stepsAlike_report h _ _

theorem stepsAlike_otherwise (h : builder.bare = other.bare) (span : Span) :
    StepsAlike builder (builder.otherwise span) other (other.otherwise span) := by
  obtain ⟨hitems, ⟨hnone, hnone'⟩ |
    ⟨frame, frames, frame', frames', hsome, hsome', hframe, hframes⟩⟩ := frames_of_bare_eq h
  · simp only [otherwise, hnone, hnone']
    exact stepsAlike_report h _ _
  · have hbranch : frame.otherwise = frame'.otherwise := congrArg (·.otherwise) hframe
    have hopener : frame.opener = frame'.opener := congrArg (·.opener) hframe
    simp only [otherwise, hsome, hsome', hbranch, hopener]
    split
    · exact stepsAlike_report h _ _
    · split
      · refine ⟨?_, [], (List.append_nil _).symm, (List.append_nil _).symm⟩
        have hparted : ({ frame with otherwise := some [] } : Frame).unnumbered =
            ({ frame' with otherwise := some [] } : Frame).unnumbered :=
          congrArg (fun f : Frame => { f with otherwise := some [] }) hframe
        simp only [bare, hitems, List.map_cons, hframes, hopener] at hparted ⊢
        rw [hparted]
      · exact stepsAlike_report h _ _

/-- Builders that differ in errors and positions handle a token alike. -/
theorem stepsAlike_addBuiltin (escaping : Bool) (h : builder.bare = other.bare)
    (index index' : Nat) (token : Token) :
    StepsAlike builder (builder.addBuiltin escaping index token) other
      (other.addBuiltin escaping index' token) := by
  cases hkind : token.kind with
  | text | comment | expression | reference =>
      have isSingle : token.kind.isSingle = true := by rw [hkind]; rfl
      simp only [addBuiltin_single _ _ _ _ isSingle]
      exact ⟨by rw [bare_grow, bare_grow, h], _, errors_grow .., errors_grow ..⟩
  | opening block name =>
      obtain ⟨hitems, hframes, -⟩ := Builder.mk.inj h
      simp only [addBuiltin_opening _ _ _ hkind]
      refine ⟨?_, _, rfl, rfl⟩
      simp [bare, within, hitems, hframes, Frame.unnumbered]
  | closing =>
      simp only [addBuiltin_closing _ _ _ hkind]
      exact stepsAlike_close h _ _
  | otherwise =>
      simp only [addBuiltin_else _ _ _ hkind]
      exact stepsAlike_otherwise h _
  | custom provider =>
      simp only [addBuiltin, hkind]
      exact stepsAlike_report h _ _

/-- Leaving out the tokens that are reported as unexpected makes a difference to errors
and positions only. -/
theorem addTokens_accepted (escaping : Bool) (h : builder.bare = other.bare)
    (herrors : other.errors = builder.errors.filter (·.kind ≠ .unexpectedToken))
    (index index' : Nat) (tokens : List Token) :
    let after := builder.addTokens escaping [] index tokens
    let after' := other.addTokens escaping [] index'
      (Handling.accepted (builder.handlings escaping index tokens))
    after.bare = after'.bare ∧
      after'.errors = after.errors.filter (·.kind ≠ .unexpectedToken) := by
  induction tokens generalizing builder other index index' with
  | nil => exact ⟨h, herrors⟩
  | cons token tokens ih =>
      let first : Handling := ⟨index, token, builder, builder.addBuiltin escaping index token⟩
      have hstep : first.IsStep escaping := rfl
      obtain ⟨hbare, errors, hnew, hnew'⟩ :=
        stepsAlike_addBuiltin escaping h index index' token
      have hreported : first.reported = errors := Handling.reported_eq hnew
      simp only [addTokens_cons, handlings_cons]
      cases hrefusals : first.refusals with
      | nil =>
          have hkept : errors.filter (·.kind ≠ .unexpectedToken) = errors := by
            rw [List.filter_eq_self]
            intro error herror
            rw [Handling.refusals, hreported, List.filter_eq_nil_iff] at hrefusals
            simpa using hrefusals error herror
          have haccepted : Handling.accepted
              (first :: (builder.addBuiltin escaping index token).handlings escaping (index + 1)
                tokens) = token :: Handling.accepted
              ((builder.addBuiltin escaping index token).handlings escaping (index + 1)
                tokens) := by
            simp [Handling.accepted, hrefusals, first]
          rw [haccepted, addTokens_cons]
          exact ih hbare (by rw [hnew', herrors, hnew, List.filter_append, hkept]) _ _
      | cons refusal refusals =>
          have haccepted : Handling.accepted
              (first :: (builder.addBuiltin escaping index token).handlings escaping (index + 1)
                tokens) = Handling.accepted
              ((builder.addBuiltin escaping index token).handlings escaping (index + 1)
                tokens) := by
            simp [Handling.accepted, hrefusals]
          have hrefused : first.refusals ≠ [] := by
            rw [hrefusals]
            exact List.cons_ne_nil _ _
          obtain ⟨fault, hfault, hunchanged⟩ := hstep.outcome.unchanged hrefused
          have hsame : builder.addBuiltin escaping index token = builder.report fault token.span :=
            hunchanged
          rw [haccepted]
          refine ih (by rw [hsame]; exact h) ?_ _ _
          rw [hsame, herrors]
          simp [report, ParseError.kind, hfault]

theorem closeAll_unnumbered (items : List Item) (errors : List ParseError)
    (frames : List Frame) :
    closeAll items errors (frames.map Frame.unnumbered) = closeAll items errors frames := by
  fun_induction closeAll items errors frames with
  | case1 => rw [List.map_nil, closeAll]
  | case2 errors frame span =>
      rw [List.map_singleton, closeAll]
      rfl
  | case3 errors frame outer frames span ih =>
      rw [List.map_cons, Frame.add_eq_addAll, Frame.unnumbered_addAll] at ih
      rw [List.map_cons, List.map_cons, closeAll, Frame.add_eq_addAll]
      exact ih

/-- At the end positions do not matter, and earlier errors come first. -/
theorem finish_eq (builder : Builder) :
    builder.finish =
      (builder.bare.finish.1, builder.errors ++ builder.blocks.map OpenBlock.unclosed) := by
  have hbare : builder.bare.finish = closeAll builder.items [] builder.frames :=
    closeAll_unnumbered _ _ _
  rw [hbare, finish, closeAll_eq]
  rfl

theorem unclosed_blocks_eq (h : builder.bare = other.bare) :
    builder.blocks.map OpenBlock.unclosed = other.blocks.map OpenBlock.unclosed := by
  have hframes : builder.frames.map Frame.unnumbered = other.frames.map Frame.unnumbered :=
    congrArg Builder.frames h
  have hunclosed := congrArg (List.map fun frame : Frame => frame.block.unclosed) hframes
  rw [List.map_map, List.map_map] at hunclosed
  rw [blocks, blocks, List.map_map, List.map_map]
  exact hunclosed

end Builder

/-- Without the tokens that are reported as unexpected the items are the same, and so are
all other errors. -/
theorem Item.ofTokens_accepted (escaping : Bool) (tokens : List Token) :
    ofTokens escaping [] (Handling.accepted (Builder.empty.handlings escaping 0 tokens)) =
      ((ofTokens escaping [] tokens).1,
        (ofTokens escaping [] tokens).2.filter (·.kind ≠ .unexpectedToken)) := by
  have hsame : Builder.empty.bare = Builder.empty.bare := rfl
  obtain ⟨hbare, herrors⟩ := Builder.addTokens_accepted escaping hsame rfl 0 0 tokens
  have hunclosed (blocks : List OpenBlock) :
      (blocks.map OpenBlock.unclosed).filter (·.kind ≠ .unexpectedToken) =
        blocks.map OpenBlock.unclosed := by
    rw [List.filter_eq_self, List.forall_mem_map]
    intro block hblock
    rfl
  rw [ofTokens, ofTokens, Builder.finish_eq, Builder.finish_eq (.addTokens ..), herrors, ← hbare,
    ← Builder.unclosed_blocks_eq hbare, List.filter_append, hunclosed]

/-- Forests that differ in where some blocks end. The blocks are at these places, the
outermost first; each is the last item of the forest that it is in, and the next is in
its body or, if it has another branch, in that. -/
inductive Item.EndsElsewhere : List Span → List Item → List Item → Prop where
  | same (items : List Item) : EndsElsewhere [] items items
  | body {spans : List Span} {items items' : List Item} (before : List Item)
      (kind : SectionKind) (expression : Expression) (span : Span) (stop : Nat)
      (inside : EndsElsewhere spans items items') :
      EndsElsewhere (span :: spans) (before ++ [.block kind expression items [] span])
        (before ++ [.block kind expression items' [] { span with stop }])
  | otherwise {spans : List Span} {items items' : List Item} (before : List Item)
      (kind : SectionKind) (expression : Expression) (body : List Item) (span : Span)
      (stop : Nat) (inside : EndsElsewhere spans items items') :
      EndsElsewhere (span :: spans) (before ++ [.block kind expression body items span])
        (before ++ [.block kind expression body items' { span with stop }])
  | declaration {spans : List Span} {items items' : List Item} (before : List Item)
      (name : String) (span : Span) (stop : Nat) (inside : EndsElsewhere spans items items') :
      EndsElsewhere (span :: spans) (before ++ [.declaration name items span])
        (before ++ [.declaration name items' { span with stop }])
  | custom {spans : List Span} {items items' : List Item} (before : List Item)
      (tag : CustomTag) (stop : Nat) (inside : EndsElsewhere spans items items') :
      EndsElsewhere (tag.span :: spans) (before ++ [.custom tag items])
        (before ++ [.custom { tag with span := { tag.span with stop } } items'])

/-- A closing tag that comes after the start of a block ends it and leaves its start. -/
theorem Span.merge_of_le {first second : Span} (h : first.start ≤ second.start) :
    first.merge second = { first with stop := max first.stop second.stop } := by
  simp [merge, if_pos h, Nat.min_eq_left h]

namespace Frame

/-- The branch that is being collected. -/
def current (frame : Frame) : List Item :=
  frame.otherwise.getD frame.body

/-- A frame with these items in the branch that is being collected. -/
def withCurrent (frame : Frame) (items : List Item) : Frame :=
  match frame.otherwise with
  | some _ => { frame with otherwise := some items }
  | none => { frame with body := items }

variable (frame : Frame) (items items' : List Item)

theorem withCurrent_current : frame.withCurrent frame.current = frame := by
  obtain ⟨block, opener, body, otherwise⟩ := frame
  cases otherwise <;> rfl

theorem block_withCurrent : (frame.withCurrent items).block = frame.block := by
  obtain ⟨block, opener, body, otherwise⟩ := frame
  cases otherwise <;> rfl

theorem current_addAll : (frame.addAll items).current = frame.current ++ items := by
  obtain ⟨block, opener, body, otherwise⟩ := frame
  cases otherwise <;> rfl

theorem addAll_eq_withCurrent :
    frame.addAll items' = (frame.addAll items).withCurrent (frame.current ++ items') := by
  obtain ⟨block, opener, body, otherwise⟩ := frame
  cases otherwise <;> rfl

/-- A frame ended elsewhere, with a forest in it that differs in where blocks end. -/
theorem endsElsewhere_close {frame : Frame} {items : List Item} {spans : List Span}
    (h : frame.IsProper) (inside : Item.EndsElsewhere spans frame.current items)
    (before : List Item) (span : Span) (stop : Nat) :
    Item.EndsElsewhere (span :: spans) (before ++ [frame.close span])
      (before ++ [(frame.withCurrent items).close { span with stop }]) := by
  obtain ⟨block, opener, body, otherwise⟩ := frame
  cases otherwise with
  | none =>
      cases opener with
      | block kind expression => exact .body before kind expression span stop inside
      | declaration name => exact .declaration before name span stop inside
      | custom tag => exact .custom before { tag with span } stop inside
  | some others =>
      cases opener with
      | block kind expression => exact .otherwise before kind expression body span stop inside
      | declaration name | custom tag => cases h rfl

end Frame

/-- The token closes a block that starts before it. -/
structure OpenBlock.ClosedBy (block : OpenBlock) (closer : Token) : Prop where
  isCloser : closer.kind = .closing
  named : closer.value = block.name
  starts : block.span.start ≤ closer.span.start

namespace Builder

variable (escaping : Bool)

theorem addBuiltin_closer (items : List Item) (errors : List ParseError) {frame : Frame}
    (frames : List Frame) {closer : Token} (h : frame.block.ClosedBy closer) (index : Nat) :
    (⟨items, frame :: frames, errors⟩ : Builder).addBuiltin escaping index closer =
      (⟨items, frames, errors⟩ : Builder).grow [frame.close { frame.block.span with
        stop := max frame.block.span.stop closer.span.stop }] [] := by
  simp only [addBuiltin_closing _ _ _ h.isCloser, close, if_pos h.named.symm, add_eq_grow,
    Span.merge_of_le h.starts]

/-- Closing the open blocks, innermost first, makes the items that folding them into each
other makes, but for where they end. -/
theorem addTokens_closers (items : List Item) (errors : List ParseError) (frames : List Frame)
    {frame : Frame} {inner : List Item} {spans : List Span} {closers : List Token} (index : Nat)
    (hproper : ∀ f ∈ frame :: frames, f.IsProper)
    (inside : Item.EndsElsewhere spans frame.current inner)
    (hclosers : List.Forall₂ OpenBlock.ClosedBy ((frame :: frames).map Frame.block) closers) :
    ∃ items',
      (⟨items, frame.withCurrent inner :: frames, errors⟩ : Builder).addTokens escaping [] index
        closers = ⟨items', [], errors⟩ ∧
      Item.EndsElsewhere (((frame :: frames).map (·.block.span)).reverse ++ spans)
        (closeAll items [] (frame :: frames)).1 items' := by
  induction frames generalizing frame inner spans closers index with
  | nil =>
      obtain ⟨closer, closers, hcloser, hrest, rfl⟩ := List.forall₂_cons_left_iff.mp hclosers
      cases hrest
      have hends := Frame.endsElsewhere_close (hproper frame (List.mem_cons_self ..)) inside
        items frame.block.span (max frame.block.span.stop closer.span.stop)
      rw [closeAll]
      refine ⟨_, ?_, hends⟩
      rw [← frame.block_withCurrent inner] at hcloser
      rw [addTokens_cons, addBuiltin_closer _ _ _ _ hcloser, frame.block_withCurrent]
      simp [grow, addTokens]
  | cons outer frames ih =>
      obtain ⟨closer, closers, hcloser, hrest, rfl⟩ := List.forall₂_cons_left_iff.mp hclosers
      rw [List.forall_mem_cons, List.forall_mem_cons] at hproper
      obtain ⟨hframe, houter, hframes⟩ := hproper
      have hends := Frame.endsElsewhere_close hframe inside outer.current frame.block.span
        (max frame.block.span.stop closer.span.stop)
      rw [← outer.current_addAll [frame.close frame.block.span]] at hends
      obtain ⟨items', hrun, hitems⟩ := ih (index + 1)
        (List.forall_mem_cons.mpr ⟨houter.addAll _, hframes⟩) hends
        (by rw [List.map_cons, outer.block_addAll]; exact hrest)
      refine ⟨items', ?_, ?_⟩
      · rw [← frame.block_withCurrent inner] at hcloser
        rw [addTokens_cons, addBuiltin_closer _ _ _ _ hcloser, frame.block_withCurrent]
        rw [← outer.addAll_eq_withCurrent] at hrun
        simpa [grow] using hrun
      · rw [closeAll_eq, closeAll, Frame.add_eq_addAll, closeAll_eq]
        simpa using hitems

end Builder

/-- The error is that of a block that was never closed, and the token closes such a
block. -/
def ParseError.ClosedBy (error : ParseError) (closer : Token) : Prop :=
  closer.kind = .closing ∧ error.fault = .unclosedBlock closer.value

/-- A block that is open after some tokens starts where one of them does. -/
theorem Builder.span_of_mem_blocks (escaping : Bool) (tokens : List Token) {block : OpenBlock}
    (hblock : block ∈ (empty.addTokens escaping [] 0 tokens).blocks) :
    ∃ token ∈ tokens, block.span = token.span := by
  have hopened := (accounted escaping tokens).blocks.subset (List.mem_append_right _ hblock)
  obtain ⟨h, hmem, hblock⟩ := List.mem_flatMap.mp hopened
  have htoken := List.mem_map_of_mem (f := Handling.token) hmem
  rw [map_token_handlings] at htoken
  refine ⟨h.token, htoken, ?_⟩
  unfold Handling.opened at hblock
  split at hblock
  · rw [List.mem_singleton.mp hblock]
  · cases hblock

/-- With closing tags at the end for the blocks that are never closed the items are the
same but for where these blocks end, and so are all other errors. -/
theorem Item.ofTokens_closed (escaping : Bool) (tokens closers : List Token)
    (hclosers : List.Forall₂ ParseError.ClosedBy
      ((ofTokens escaping [] tokens).2.filter (·.kind = .unclosedBlock)) closers)
    (hafter : ∀ closer ∈ closers, ∀ token ∈ tokens, token.span.start ≤ closer.span.start) :
    ∃ items, ofTokens escaping [] (tokens ++ closers) =
        (items, (ofTokens escaping [] tokens).2.filter (·.kind ≠ .unclosedBlock)) ∧
      EndsElsewhere
        (((ofTokens escaping [] tokens).2.filter (·.kind = .unclosedBlock)).reverse.map (·.span))
        (ofTokens escaping [] tokens).1 items := by
  rw [Builder.filter_ne_unclosed]
  rw [(Builder.accounted escaping tokens).unclosed] at hclosers ⊢
  have hproper := Builder.isProper_empty.addTokens escaping 0 tokens
  have hblocks : List.Forall₂ OpenBlock.ClosedBy
      (Builder.empty.addTokens escaping [] 0 tokens).blocks closers := by
    rw [List.forall₂_map_left_iff, List.forall₂_iff_zip] at hclosers
    obtain ⟨hlength, hclosed⟩ := hclosers
    refine List.forall₂_iff_zip.mpr ⟨hlength, ?_⟩
    intro block closer hzip
    obtain ⟨hblock, hcloser⟩ := List.of_mem_zip hzip
    obtain ⟨token, htoken, hspan⟩ := Builder.span_of_mem_blocks escaping tokens hblock
    obtain ⟨isCloser, hfault⟩ := hclosed hzip
    refine ⟨isCloser, (Fault.unclosedBlock.inj hfault).symm, ?_⟩
    rw [hspan]
    exact hafter closer hcloser token htoken
  rw [ofTokens, ofTokens, Builder.addTokens_append]
  generalize Builder.empty.addTokens escaping [] 0 tokens = builder at hproper hblocks ⊢
  have hfinish (items : List Item) (errors : List ParseError) :
      (⟨items, [], errors⟩ : Builder).finish = (items, errors) := by
    rw [Builder.finish, Builder.closeAll]
  obtain ⟨items, frames, errors⟩ := builder
  cases frames with
  | nil =>
      cases hblocks
      rw [Builder.addTokens, hfinish]
      exact ⟨items, rfl, .same items⟩
  | cons frame frames =>
      obtain ⟨items', hrun, hitems⟩ := Builder.addTokens_closers escaping items errors
        frames (0 + tokens.length) hproper (.same frame.current) hblocks
      rw [frame.withCurrent_current] at hrun
      rw [hrun, hfinish]
      refine ⟨items', rfl, ?_⟩
      rw [Builder.finish, Builder.closeAll_eq]
      simpa [Builder.blocks, OpenBlock.unclosed, Function.comp_def] using hitems

/-- Recovery from errors in the block structure is exact. The tokens that are reported as
unexpected can be left out, and closing tags can be added for the blocks that are never
closed, innermost first: neither changes the items, but for where the blocks end that are
closed now, and of the errors only those go away. And each block that is opened is closed
once or reported once, as each closing tag closes one block or is reported once. -/
theorem Item.recovery_exact (escaping : Bool) (tokens : List Token) :
    let (items, errors) := ofTokens escaping [] tokens
    let handlings := Builder.empty.handlings escaping 0 tokens
    let unclosed := errors.filter (·.kind = .unclosedBlock)
    ofTokens escaping [] (Handling.accepted handlings) =
      (items, errors.filter (·.kind ≠ .unexpectedToken)) ∧
    (∀ closers, List.Forall₂ ParseError.ClosedBy unclosed closers →
      (∀ closer ∈ closers, ∀ token ∈ tokens, token.span.start ≤ closer.span.start) →
      ∃ items', ofTokens escaping [] (tokens ++ closers) =
          (items', errors.filter (·.kind ≠ .unclosedBlock)) ∧
        EndsElsewhere (unclosed.reverse.map (·.span)) items items') ∧
    Accounted handlings (Builder.empty.addTokens escaping [] 0 tokens).blocks errors :=
  ⟨ofTokens_accepted escaping tokens, ofTokens_closed escaping tokens,
    Builder.accounted escaping tokens⟩

/-- A declaration that is never closed, after a closing tag that closes nothing. -/
def Token.unbalanced : List Token :=
  [⟨.closing, "if", ⟨0, 7, 1, 1⟩⟩, ⟨.opening .declaration "declare", "p", ⟨7, 22, 1, 8⟩⟩,
    ⟨.text, "a", ⟨22, 23, 1, 23⟩⟩]

theorem Item.unbalanced_recovered :
    let closer : Token := ⟨.closing, "declare", ⟨23, 35, 1, 24⟩⟩
    let items := [declaration "p" [.literal "a"] ⟨7, 22, 1, 8⟩]
    let stray : ParseError := ⟨.closesNothing "if", ⟨0, 7, 1, 1⟩⟩
    let unclosed : ParseError := ⟨.unclosedBlock "declare", ⟨7, 22, 1, 8⟩⟩
    ofTokens true [] Token.unbalanced = (items, [stray, unclosed]) ∧
    ofTokens true [] Token.unbalanced.tail = (items, [unclosed]) ∧
    unclosed.ClosedBy closer ∧
    (∀ token ∈ Token.unbalanced, token.span.start ≤ closer.span.start) ∧
    ∃ items', ofTokens true [] (Token.unbalanced ++ [closer]) = (items', [stray]) ∧
      EndsElsewhere [⟨7, 22, 1, 8⟩] items items' := by
  intro closer items stray unclosed
  have hread : ofTokens true [] Token.unbalanced = (items, [stray, unclosed]) := by
    have hrun : Builder.empty.addTokens true [] 0 Token.unbalanced =
        ⟨[], [⟨⟨"declare", 1, ⟨7, 22, 1, 8⟩⟩, .declaration "p", [.literal "a"], none⟩],
          [stray]⟩ := rfl
    rw [ofTokens, hrun, Builder.finish, Builder.closeAll]
    rfl
  have hclosed : unclosed.ClosedBy closer := ⟨rfl, rfl⟩
  have hafter : ∀ token ∈ Token.unbalanced, token.span.start ≤ closer.span.start := by
    decide
  have h := recovery_exact true Token.unbalanced
  rw [hread] at h
  obtain ⟨haccepted, hclosers, -⟩ := h
  refine ⟨hread, haccepted, hclosed, hafter, ?_⟩
  exact hclosers [closer] (.cons hclosed .nil) (List.forall_mem_singleton.mpr hafter)

end Stencil
