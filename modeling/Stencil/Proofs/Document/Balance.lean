import Stencil.Proofs.Document.Steps
import Stencil.Proofs.Expression.Faults

/-!
The builder accepts exactly the balanced token sequences. The open frames of a
builder that has refused no token are the unfinished blocks of the tokens so
far, and what each has collected is a derivation. A builder without open frames
has read a derivation.
-/

namespace Stencil

/-- The errors of single tokens do not concern the block structure. -/
theorem Token.ownErrors_inExpression (token : Token) :
    ∀ error ∈ token.ownErrors, error.fault.InExpression := by
  intro error herror
  unfold Token.ownErrors at herror
  split at herror
  · exact Expression.read_ordinary _ _ error herror
  · exact Expression.read_ordinary _ _ error herror
  · split at herror
    · rw [List.mem_singleton.mp herror]
      exact Or.inl rfl
    · cases herror
  · split at herror
    · rw [List.mem_singleton.mp herror]
      exact Or.inl rfl
    · cases herror
  · cases herror

/-- An error about the block structure. -/
def ParseError.IsStructural (error : ParseError) : Prop :=
  error.kind = .unexpectedToken ∨ error.kind = .unclosedBlock

theorem not_isStructural_of_inExpression {error : ParseError}
    (h : error.fault.InExpression) : ¬error.IsStructural := by
  intro hstructural
  rcases h with hkind | hkind <;> rcases hstructural with hbad | hbad <;>
    cases hkind.symm.trans hbad

/-- What tells how a frame can be continued: its name, whether it is that of a
section, and whether it is in its other branch. -/
structure FrameShape where
  name : String
  isSection : Bool
  isBranched : Bool

def Frame.shape (frame : Frame) : FrameShape :=
  ⟨frame.block.name, frame.opener.isSection, frame.otherwise.isSome⟩

def BlockKind.isSection : BlockKind → Bool
  | .ofSection _ => true
  | .declaration => false

/-- Tokens in which all blocks are closed but those of these shapes, innermost
first. What a block has collected so far is a derivation. -/
inductive Unfinished : List FrameShape → List Token → Prop where
  | outside (d : Derivation) : Unfinished [] d.tokens
  | opened {shapes : List FrameShape} {tokens : List Token} (before : Unfinished shapes tokens)
      {opener : Token} {block : BlockKind} {name : String}
      (opens : opener.kind = .opening block name) (body : Derivation) :
      Unfinished (⟨name, block.isSection, false⟩ :: shapes) (tokens ++ opener :: body.tokens)
  | branched {shapes : List FrameShape} {tokens : List Token}
      (before : Unfinished shapes tokens) {opener : Token} {kind : SectionKind} {name : String}
      (opens : opener.kind = .opening (.ofSection kind) name) (body : Derivation)
      {middle : Token} (isElse : middle.kind = .otherwise) (alternative : Derivation) :
      Unfinished (⟨name, true, true⟩ :: shapes)
        (tokens ++ opener :: (body.tokens ++ middle :: alternative.tokens))

namespace Unfinished

variable {shape : FrameShape} {shapes : List FrameShape} {tokens : List Token}

theorem append (h : Unfinished shapes tokens) (d : Derivation) :
    Unfinished shapes (tokens ++ d.tokens) := by
  cases h with
  | outside first =>
      rw [← Derivation.tokens_append]
      exact .outside _
  | opened before opens body =>
      have h := Unfinished.opened before opens (body.append d)
      simpa using h
  | branched before opens body isElse alternative =>
      have h := Unfinished.branched before opens body isElse (alternative.append d)
      simpa using h

/-- A closing tag with the name of the innermost block finishes it. -/
theorem close (h : Unfinished (shape :: shapes) tokens) {closer : Token}
    (closes : closer.kind = .closing) (hname : closer.value = shape.name) :
    Unfinished shapes (tokens ++ [closer]) := by
  cases h with
  | @opened _ before hbefore opener block name opens body =>
      cases block with
      | ofSection kind =>
          have h := hbefore.append
            (.block kind ⟨opener, closer, hname ▸ opens, closes⟩ body .nil)
          simpa [Derivation.tokens] using h
      | declaration =>
          have h := hbefore.append
            (.declaration ⟨opener, closer, hname ▸ opens, closes⟩ body .nil)
          simpa [Derivation.tokens] using h
  | @branched _ before hbefore opener kind name opens body middle isElse alternative =>
      have h := hbefore.append (.branches kind ⟨opener, closer, hname ▸ opens, closes⟩ body
        middle isElse alternative .nil)
      simpa [Derivation.tokens] using h

theorem branch {name : String} (h : Unfinished (⟨name, true, false⟩ :: shapes) tokens)
    {middle : Token} (isElse : middle.kind = .otherwise) :
    Unfinished (⟨name, true, true⟩ :: shapes) (tokens ++ [middle]) := by
  generalize hshape : (⟨name, true, false⟩ : FrameShape) = shape at h
  cases h with
  | @opened _ before hbefore opener block name' opens body =>
      obtain ⟨rfl, hsection, -⟩ := FrameShape.mk.inj hshape
      cases block with
      | ofSection kind =>
          have h := Unfinished.branched hbefore opens body isElse .nil
          simpa [Derivation.tokens] using h
      | declaration => cases hsection
  | branched => cases hshape

end Unfinished

namespace Builder

variable (builder : Builder)

theorem shapes_grow (items : List Item) (errors : List ParseError) :
    (builder.grow items errors).frames.map Frame.shape = builder.frames.map Frame.shape := by
  obtain ⟨built, frames, reported⟩ := builder
  cases frames with
  | nil => rfl
  | cons frame frames =>
      obtain ⟨block, opener, body, otherwise⟩ := frame
      cases otherwise <;> rfl

theorem shape_opened (block : OpenBlock) (kind : BlockKind) (token : Token) :
    (⟨block, opened kind token, [], none⟩ : Frame).shape =
      ⟨block.name, kind.isSection, false⟩ := by
  cases kind <;> rfl

theorem errors_addBuiltin (escaping : Bool) (index : Nat) (token : Token) :
    builder.errors <+: (builder.addBuiltin escaping index token).errors := by
  cases builder.step_addBuiltin escaping index token with
  | grows _ result | closes _ _ _ result =>
      rw [result, errors_grow]
      exact List.prefix_append _ _
  | opens _ result | refuses _ _ _ result =>
      rw [result]
      exact List.prefix_append _ _
  | branches _ _ _ _ result =>
      have herrors : (builder.addBuiltin escaping index token).errors = builder.errors := by
        rw [result]
      exact herrors ▸ List.prefix_rfl

theorem errors_addTokens (escaping : Bool) (index : Nat) (tokens : List Token) :
    builder.errors <+: (builder.addTokens escaping [] index tokens).errors := by
  induction tokens generalizing builder index with
  | nil => exact List.prefix_rfl
  | cons token tokens ih =>
      rw [addTokens_cons]
      exact (builder.errors_addBuiltin escaping index token).trans (ih _ _)

theorem errors_closeAll (items : List Item) (errors : List ParseError) (frames : List Frame) :
    errors <+: (closeAll items errors frames).2 := by
  fun_induction closeAll items errors frames with
  | case1 => exact List.prefix_rfl
  | case2 => exact List.prefix_append _ _
  | case3 errors frame outer frames span ih => exact (List.prefix_append _ _).trans ih

theorem unclosedBlock_mem_closeAll (items : List Item) (errors : List ParseError)
    (frame : Frame) (frames : List Frame) :
    ⟨.unclosedBlock frame.block.name, frame.block.span⟩ ∈
      (closeAll items errors (frame :: frames)).2 := by
  cases frames with
  | nil =>
      rw [closeAll]
      exact List.mem_append_right _ (List.mem_singleton.mpr rfl)
  | cons outer frames =>
      rw [closeAll]
      apply (errors_closeAll _ _ _).subset
      exact List.mem_append_right _ (List.mem_singleton.mpr rfl)

end Builder

/-- A step of the builder that reports nothing about the block structure keeps
its frames in accord with the unfinished blocks. -/
theorem Unfinished.step {escaping : Bool} {builder : Builder} {index : Nat} {token : Token}
    {tokens : List Token} (hcustom : ∀ provider, token.kind ≠ .custom provider)
    (h : Unfinished (builder.frames.map Frame.shape) tokens)
    (hclean : ∀ error ∈ (builder.addBuiltin escaping index token).errors,
      ¬error.IsStructural) :
    Unfinished ((builder.addBuiltin escaping index token).frames.map Frame.shape)
      (tokens ++ [token]) := by
  have hreported {fault : Fault} (hkind : fault.kind = .unexpectedToken)
      (hreport : builder.addBuiltin escaping index token = builder.report fault token.span) :
      False := by
    rw [hreport, Builder.report_eq_grow, Builder.errors_grow] at hclean
    exact hclean _ (List.mem_append_right _ (List.mem_singleton.mpr rfl)) (Or.inl hkind)
  cases hkind : token.kind with
  | text | comment | expression | reference =>
      have isSingle : token.kind.isSingle = true := by rw [hkind]; rfl
      rw [builder.addBuiltin_single _ _ _ isSingle, Builder.shapes_grow]
      exact h.append (.single token isSingle .nil)
  | opening block name =>
      rw [builder.addBuiltin_opening _ _ hkind]
      simp only [Builder.within, List.map_cons, Builder.shape_opened]
      exact .opened h hkind .nil
  | closing =>
      rw [builder.addBuiltin_closing _ _ hkind] at hreported ⊢
      rcases builder.close_cases token.value token.span with
        ⟨fault, hfault, hreport⟩ | ⟨frame, frames, hframes, hname, hclose⟩
      · exact (hreported hfault hreport).elim
      · rw [hclose, Builder.shapes_grow]
        rw [hframes, List.map_cons] at h
        exact h.close hkind hname.symm
  | otherwise =>
      rw [builder.addBuiltin_else _ _ hkind] at hreported ⊢
      rcases builder.otherwise_cases token.span with
        ⟨fault, hfault, hreport⟩ | ⟨frame, frames, hframes, hsection, hwhole, hopen⟩
      · exact (hreported hfault hreport).elim
      · have hshape : frame.shape = ⟨frame.block.name, true, false⟩ := by
          simp only [Frame.shape, hsection, hwhole, Option.isSome_none]
        rw [hframes, List.map_cons, hshape] at h
        rw [hopen, List.map_cons]
        have hbranch : ({ frame with otherwise := some [] } : Frame).shape =
            ⟨frame.block.name, true, true⟩ := by
          simp only [Frame.shape, hsection, Option.isSome_some]
        rw [hbranch]
        exact h.branch hkind
  | custom provider => exact absurd hkind (hcustom provider)

theorem Unfinished.run {escaping : Bool} (more : List Token) {builder : Builder} {index : Nat}
    {tokens : List Token} (hcustom : ∀ token ∈ more, ∀ provider, token.kind ≠ .custom provider)
    (h : Unfinished (builder.frames.map Frame.shape) tokens)
    (hclean : ∀ error ∈ (builder.addTokens escaping [] index more).errors,
      ¬error.IsStructural) :
    Unfinished ((builder.addTokens escaping [] index more).frames.map Frame.shape)
      (tokens ++ more) := by
  induction more generalizing builder index tokens with
  | nil => simpa [Builder.addTokens] using h
  | cons token more ih =>
      rw [Builder.addTokens_cons] at hclean ⊢
      have hstep : Unfinished
          ((builder.addBuiltin escaping index token).frames.map Frame.shape)
          (tokens ++ [token]) := by
        refine h.step (hcustom token (List.mem_cons_self ..)) ?_
        intro error herror
        exact hclean error ((Builder.errors_addTokens _ _ _ _).subset herror)
      have hrun := ih (fun t ht => hcustom t (List.mem_cons_of_mem _ ht)) hstep hclean
      simpa using hrun

/-- The builder accepts exactly the balanced token sequences: it reports nothing
about the block structure if and only if they have a derivation. The items are
then those that the derivation denotes, and there is only one. -/
theorem ofTokens_accepts_iff_derivation (escaping : Bool) (tokens : List Token)
    (hcustom : ∀ token ∈ tokens, ∀ provider, token.kind ≠ .custom provider) :
    ((∀ error ∈ (Item.ofTokens escaping [] tokens).2,
        error.kind ≠ .unexpectedToken ∧ error.kind ≠ .unclosedBlock) ↔
      ∃ d : Derivation, d.tokens = tokens) ∧
    ∀ d : Derivation, d.tokens = tokens →
      (Item.ofTokens escaping [] tokens).1 = d.items escaping ∧
        ∀ d' : Derivation, d'.tokens = tokens → d' = d := by
  have hadds (d : Derivation) (hd : d.tokens = tokens) :
      Item.ofTokens escaping [] tokens = (d.items escaping, d.errors) := by
    obtain ⟨index', h⟩ := d.adds escaping .empty 0 []
    rw [List.append_nil, hd] at h
    simp only [Item.ofTokens, h, Builder.addTokens]
    simp [Builder.grow, Builder.empty, Builder.finish, Builder.closeAll]
  refine ⟨⟨?_, ?_⟩, ?_⟩
  · intro hclean
    have hrun : ∀ error ∈ (Builder.empty.addTokens escaping [] 0 tokens).errors,
        ¬error.IsStructural := by
      intro error herror hstructural
      have hmem := (Builder.errors_closeAll
        (Builder.empty.addTokens escaping [] 0 tokens).items _
        (Builder.empty.addTokens escaping [] 0 tokens).frames).subset herror
      rcases hstructural with hkind | hkind
      · exact (hclean error hmem).1 hkind
      · exact (hclean error hmem).2 hkind
    have hstart : Unfinished (Builder.empty.frames.map Frame.shape) [] := .outside .nil
    have hunfinished : Unfinished
        ((Builder.empty.addTokens escaping [] 0 tokens).frames.map Frame.shape) tokens :=
      Unfinished.run tokens hcustom hstart hrun
    cases hframes : (Builder.empty.addTokens escaping [] 0 tokens).frames with
    | nil =>
        rw [hframes] at hunfinished
        cases hunfinished with
        | outside d => exact ⟨d, rfl⟩
    | cons frame frames =>
        refine absurd rfl (hclean ⟨.unclosedBlock frame.block.name, frame.block.span⟩ ?_).2
        simp only [Item.ofTokens, Builder.finish, hframes]
        exact Builder.unclosedBlock_mem_closeAll _ _ _ _
  · rintro ⟨d, hd⟩ error herror
    rw [hadds d hd, d.errors_eq] at herror
    obtain ⟨token, -, htoken⟩ := List.mem_flatMap.mp herror
    have hordinary := not_isStructural_of_inExpression
      (token.ownErrors_inExpression error htoken)
    exact ⟨fun h => hordinary (Or.inl h), fun h => hordinary (Or.inr h)⟩
  · intro d hd
    refine ⟨by rw [hadds d hd], ?_⟩
    intro d' hd'
    exact Derivation.eq_of_tokens_eq (hd'.trans hd.symm)

/-- A section whose body declares a partial and whose other branch refers to it. -/
def Derivation.sample : Derivation :=
  .branches .truthy
    ⟨⟨.opening (.ofSection .truthy) "if", "a", ⟨0, 9, 1, 1⟩⟩, ⟨.closing, "if", ⟨54, 61, 1, 55⟩⟩,
      rfl, rfl⟩
    (.declaration
      ⟨⟨.opening .declaration "declare", "p", ⟨9, 23, 1, 10⟩⟩,
        ⟨.closing, "declare", ⟨27, 39, 1, 28⟩⟩, rfl, rfl⟩
      (.single ⟨.text, "body", ⟨23, 27, 1, 24⟩⟩ rfl .nil) .nil)
    ⟨.otherwise, "", ⟨39, 47, 1, 40⟩⟩ rfl
    (.single ⟨.reference, "p", ⟨47, 54, 1, 48⟩⟩ rfl .nil)
    .nil

theorem sample_accepted :
    (∀ token ∈ Derivation.sample.tokens, ∀ provider, token.kind ≠ .custom provider) ∧
    (∀ error ∈ (Item.ofTokens true [] Derivation.sample.tokens).2,
      error.kind ≠ .unexpectedToken ∧ error.kind ≠ .unclosedBlock) ∧
    (Item.ofTokens true [] Derivation.sample.tokens).1 = Derivation.sample.items true := by
  have hcustom : ∀ token ∈ Derivation.sample.tokens, ∀ provider,
      token.kind ≠ .custom provider := by
    simp [Derivation.sample, Derivation.tokens]
  have h := ofTokens_accepts_iff_derivation true Derivation.sample.tokens hcustom
  exact ⟨hcustom, h.1.mpr ⟨Derivation.sample, rfl⟩, (h.2 Derivation.sample rfl).1⟩

end Stencil
