import Stencil.Proofs.Document.Growth

/-!
The steps of the builder, for tokens that no provider takes. Handling a token
adds to the innermost block, enters a block, leaves it, starts its other branch,
or reports the token and does nothing else. What holds of runs is shown for
these five steps.
-/

namespace Stencil

namespace Frame

/-- Only sections have another branch. -/
def IsProper (frame : Frame) : Prop :=
  frame.otherwise.isSome = true → frame.opener.isSection = true

theorem add_eq_addAll (frame : Frame) (item : Item) : frame.add item = frame.addAll [item] := by
  obtain ⟨block, opener, body, otherwise⟩ := frame
  cases otherwise <;> rfl

@[simp] theorem block_addAll (frame : Frame) (items : List Item) :
    (frame.addAll items).block = frame.block := by
  obtain ⟨block, opener, body, otherwise⟩ := frame
  cases otherwise <;> rfl

theorem IsProper.addAll {frame : Frame} (h : frame.IsProper) (items : List Item) :
    (frame.addAll items).IsProper := by
  obtain ⟨block, opener, body, otherwise⟩ := frame
  cases otherwise with
  | none => exact h
  | some others => exact fun _ => h rfl

end Frame

namespace Builder

/-- What handling a token makes of a builder. -/
inductive Step (escaping : Bool) (index : Nat) (token : Token) (before after : Builder) :
    Prop where
  | grows (isSingle : token.kind.isSingle = true)
      (result : after = before.grow (token.singleItems escaping) token.ownErrors)
  | opens {block : BlockKind} {name : String} (opens : token.kind = .opening block name)
      (result : after = before.within
        ⟨⟨name, index, token.span⟩, opened block token, [], none⟩ token.ownErrors)
  | closes {frame : Frame} {frames : List Frame} (closes : token.kind = .closing)
      (inside : before.frames = frame :: frames) (named : frame.block.name = token.value)
      (result : after = (⟨before.items, frames, before.errors⟩ : Builder).grow
        [frame.close (frame.block.span.merge token.span)] [])
  | branches {frame : Frame} {frames : List Frame} (isElse : token.kind = .otherwise)
      (inside : before.frames = frame :: frames) (isSection : frame.opener.isSection = true)
      (isWhole : frame.otherwise = none)
      (result : after =
        ⟨before.items, { frame with otherwise := some [] } :: frames, before.errors⟩)
  | refuses (fault : Fault) (unexpected : fault.kind = .unexpectedToken)
      (refused : token.kind = .closing ∨ token.kind = .otherwise ∨
        ∃ provider, token.kind = .custom provider)
      (result : after = before.report fault token.span)

variable (builder : Builder)

theorem errors_grow (items : List Item) (errors : List ParseError) :
    (builder.grow items errors).errors = builder.errors ++ errors := by
  obtain ⟨built, frames, reported⟩ := builder
  cases frames <;> rfl

/-- A closing tag is reported or finishes the innermost block. -/
theorem close_cases (name : String) (span : Span) :
    (∃ fault, fault.kind = .unexpectedToken ∧
      builder.close name span = builder.report fault span) ∨
    ∃ frame frames, builder.frames = frame :: frames ∧ frame.block.name = name ∧
      builder.close name span = (⟨builder.items, frames, builder.errors⟩ : Builder).grow
        [frame.close (frame.block.span.merge span)] [] := by
  obtain ⟨items, frames, errors⟩ := builder
  cases frames with
  | nil => exact Or.inl ⟨.closesNothing name, rfl, rfl⟩
  | cons frame frames =>
      by_cases hname : frame.block.name = name
      · refine Or.inr ⟨frame, frames, rfl, hname, ?_⟩
        simp only [close, if_pos hname, add_eq_grow]
      · refine Or.inl ⟨.closesOther name frame.block.name frame.block.span.line, rfl, ?_⟩
        simp only [close, if_neg hname]

/-- An `else` is reported or starts the other branch of the innermost section. -/
theorem otherwise_cases (span : Span) :
    (∃ fault, fault.kind = .unexpectedToken ∧
      builder.otherwise span = builder.report fault span) ∨
    ∃ frame frames, builder.frames = frame :: frames ∧ frame.opener.isSection = true ∧
      frame.otherwise = none ∧ builder.otherwise span =
        ⟨builder.items, { frame with otherwise := some [] } :: frames, builder.errors⟩ := by
  obtain ⟨items, frames, errors⟩ := builder
  cases frames with
  | nil => exact Or.inl ⟨.strayElse, rfl, rfl⟩
  | cons frame frames =>
      obtain ⟨block, opener, body, other⟩ := frame
      cases other with
      | some items => exact Or.inl ⟨.secondElse, rfl, rfl⟩
      | none =>
          cases opener with
          | block kind expression => exact Or.inr ⟨_, frames, rfl, rfl, rfl, rfl⟩
          | declaration name => exact Or.inl ⟨.strayElse, rfl, rfl⟩
          | custom tag => exact Or.inl ⟨.strayElse, rfl, rfl⟩

/-- Every token makes one of the steps. -/
theorem step_addBuiltin (escaping : Bool) (index : Nat) (token : Token) :
    Step escaping index token builder (builder.addBuiltin escaping index token) := by
  cases hkind : token.kind with
  | text | comment | expression | reference =>
      have isSingle : token.kind.isSingle = true := by rw [hkind]; rfl
      exact .grows isSingle (builder.addBuiltin_single _ _ _ isSingle)
  | opening block name => exact .opens hkind (builder.addBuiltin_opening _ _ hkind)
  | closing =>
      rw [builder.addBuiltin_closing _ _ hkind]
      rcases builder.close_cases token.value token.span with
        ⟨fault, hfault, hreport⟩ | ⟨frame, frames, hframes, hname, hclose⟩
      · exact .refuses fault hfault (Or.inl hkind) hreport
      · exact .closes hkind hframes hname hclose
  | otherwise =>
      rw [builder.addBuiltin_else _ _ hkind]
      rcases builder.otherwise_cases token.span with
        ⟨fault, hfault, hreport⟩ | ⟨frame, frames, hframes, hsection, hwhole, hopen⟩
      · exact .refuses fault hfault (Or.inr (Or.inl hkind)) hreport
      · exact .branches hkind hframes hsection hwhole hopen
  | custom provider =>
      apply Step.refuses (.unclaimed provider token.value) rfl (Or.inr (Or.inr ⟨provider, hkind⟩))
      simp only [addBuiltin, hkind]

/-- Tokens one after another are handled in two runs as in one. -/
theorem addTokens_append (escaping : Bool) (index : Nat) (first second : List Token) :
    builder.addTokens escaping [] index (first ++ second) =
      (builder.addTokens escaping [] index first).addTokens escaping [] (index + first.length)
        second := by
  induction first generalizing builder index with
  | nil => rfl
  | cons token first ih =>
      rw [List.cons_append, addTokens_cons, addTokens_cons, ih, List.length_cons]
      congr 1
      omega

/-- The places and names of the open blocks, innermost first. -/
def blocks : List OpenBlock :=
  builder.frames.map Frame.block

@[simp] theorem blocks_grow (items : List Item) (errors : List ParseError) :
    (builder.grow items errors).blocks = builder.blocks := by
  obtain ⟨built, frames, reported⟩ := builder
  cases frames with
  | nil => rfl
  | cons frame frames => simp [blocks, grow]

def IsProper : Prop :=
  ∀ frame ∈ builder.frames, frame.IsProper

variable {builder}

theorem isProper_empty : empty.IsProper := by
  intro frame hframe
  cases hframe

theorem IsProper.grow (h : builder.IsProper) (items : List Item) (errors : List ParseError) :
    (builder.grow items errors).IsProper := by
  obtain ⟨built, frames, reported⟩ := builder
  cases frames with
  | nil => exact h
  | cons frame frames =>
      obtain ⟨hframe, hframes⟩ := List.forall_mem_cons.mp h
      exact List.forall_mem_cons.mpr ⟨hframe.addAll items, hframes⟩

theorem IsProper.step {escaping : Bool} {index : Nat} {token : Token} {after : Builder}
    (h : builder.IsProper) (hstep : Step escaping index token builder after) :
    after.IsProper := by
  cases hstep with
  | grows isSingle result =>
      subst result
      exact h.grow _ _
  | opens _ result =>
      subst result
      refine List.forall_mem_cons.mpr ⟨?_, h⟩
      intro hbranch
      cases hbranch
  | @closes frame frames _ inside _ result =>
      rw [IsProper, inside, List.forall_mem_cons] at h
      have hframes : IsProper ⟨builder.items, frames, builder.errors⟩ := h.2
      subst result
      exact hframes.grow _ _
  | branches _ inside isSection _ result =>
      rw [IsProper, inside, List.forall_mem_cons] at h
      subst result
      exact List.forall_mem_cons.mpr ⟨fun _ => isSection, h.2⟩
  | refuses _ _ _ result =>
      subst result
      exact h

theorem IsProper.addTokens (h : builder.IsProper) (escaping : Bool) (index : Nat)
    (tokens : List Token) : (builder.addTokens escaping [] index tokens).IsProper := by
  induction tokens generalizing builder index with
  | nil => exact h
  | cons token tokens ih =>
      rw [addTokens_cons]
      exact ih (h.step (builder.step_addBuiltin escaping index token)) (index + 1)

end Builder

/-- The error of a block that is never closed. -/
def OpenBlock.unclosed (block : OpenBlock) : ParseError :=
  ⟨.unclosedBlock block.name, block.span⟩

/-- At the end each block that is still open is reported, innermost first, and
the items do not depend on the errors. -/
theorem Builder.closeAll_eq (items : List Item) (errors : List ParseError)
    (frames : List Frame) :
    closeAll items errors frames = ((closeAll items [] frames).1,
      errors ++ (frames.map Frame.block).map OpenBlock.unclosed) := by
  induction hlength : frames.length generalizing errors frames with
  | zero =>
      obtain rfl := List.length_eq_zero_iff.mp hlength
      simp [closeAll]
  | succ n ih =>
      obtain _ | ⟨frame, _ | ⟨outer, frames⟩⟩ := frames
      · cases hlength
      · simp [closeAll, OpenBlock.unclosed]
      · have hrest (errors : List ParseError) := ih errors
          (outer.add (frame.close frame.block.span) :: frames)
          (Nat.succ.inj hlength)
        have hblock : (outer.add (frame.close frame.block.span)).block = outer.block := by
          rw [Frame.add_eq_addAll, Frame.block_addAll]
        rw [closeAll, closeAll, hrest, hrest (_ ++ _)]
        simp [hblock, OpenBlock.unclosed]

end Stencil
