import Stencil.Proofs.Document.Balance

/-!
The run of the builder, token by token, and what becomes of the blocks in it.
A block that a token opens is closed by one later token or is open at the end,
and a closing tag closes one block or is reported. The blocks of a run are
counted over a step as those before it and opened by it, which are those closed
by it and after it.
-/

namespace Stencil

/-- The handling of a token: its position, and the builder before it and after. -/
structure Handling where
  index : Nat
  token : Token
  before : Builder
  after : Builder

/-- The handling of each of these tokens, of which the first has an index. -/
def Builder.handlings (escaping : Bool) (builder : Builder) (index : Nat) :
    List Token → List Handling
  | [] => []
  | token :: tokens =>
      let after := builder.addToken escaping [] index token
      ⟨index, token, builder, after⟩ :: after.handlings escaping (index + 1) tokens

namespace Handling

/-- What is reported at the token. -/
def reported (h : Handling) : List ParseError :=
  h.after.errors.drop h.before.errors.length

/-- The errors that say that the token is unexpected. -/
def refusals (h : Handling) : List ParseError :=
  h.reported.filter (·.kind = .unexpectedToken)

/-- The block that the token opens, if it is an opening tag. -/
def opened (h : Handling) : List OpenBlock :=
  match h.token.kind with
  | .opening _ name => [⟨name, h.index, h.token.span⟩]
  | _ => []

/-- The blocks that the token closes: the innermost ones, open before it and not
after it. -/
def closed (h : Handling) : List OpenBlock :=
  h.before.blocks.take (h.before.blocks.length - h.after.blocks.length)

end Handling

/-- What becomes of the blocks of tokens: those left open at the end, and the
errors that are reported. -/
structure Accounted (handlings : List Handling) (left : List OpenBlock)
    (errors : List ParseError) : Prop where
  /-- The blocks that are opened are those that are closed and those left open. -/
  blocks : (handlings.flatMap Handling.closed ++ left).Perm (handlings.flatMap Handling.opened)
  /-- No block is opened twice. -/
  distinct : (handlings.flatMap Handling.opened).Nodup
  /-- A block is closed by a closing tag of its name. -/
  named : ∀ h ∈ handlings, ∀ block ∈ h.closed,
    h.token.kind = .closing ∧ h.token.value = block.name
  /-- A closing tag closes one block or is reported once. -/
  closers : ∀ h ∈ handlings, h.token.kind = .closing →
    h.closed.length + h.refusals.length = 1
  /-- Each block left open is reported once, and no other is. -/
  unclosed : errors.filter (·.kind = .unclosedBlock) = left.map OpenBlock.unclosed
  refusals : errors.filter (·.kind = .unexpectedToken) = handlings.flatMap Handling.refusals

namespace Handling

variable {escaping : Bool} {h : Handling}

/-- The token is handled by the built-in rules. -/
def IsStep (escaping : Bool) (h : Handling) : Prop :=
  h.after = h.before.addBuiltin escaping h.index h.token

theorem reported_eq {errors : List ParseError}
    (herrors : h.after.errors = h.before.errors ++ errors) : h.reported = errors := by
  rw [reported, herrors, List.drop_left]

theorem closed_eq_nil (hblocks : h.before.blocks.length ≤ h.after.blocks.length) :
    h.closed = [] := by
  rw [closed, Nat.sub_eq_zero_of_le hblocks, List.take_zero]

theorem closed_eq_singleton {block : OpenBlock}
    (hblocks : h.before.blocks = block :: h.after.blocks) : h.closed = [block] := by
  have hlength : h.before.blocks.length - h.after.blocks.length = 1 := by
    rw [hblocks, List.length_cons]
    omega
  rw [closed, hlength, hblocks, List.take_succ_cons, List.take_zero]

theorem opened_eq_nil (hkind : ∀ block name, h.token.kind ≠ .opening block name) :
    h.opened = [] := by
  unfold opened
  split
  · rename_i block name hopening
    exact absurd hopening (hkind block name)
  · rfl

theorem index_of_mem_opened (h : Handling) {block : OpenBlock} (hblock : block ∈ h.opened) :
    h.index = block.tokenIndex := by
  unfold opened at hblock
  split at hblock
  · rw [List.mem_singleton.mp hblock]
  · cases hblock

/-- What a token comes to: it closes the innermost block, which has its name, it is
reported as unexpected and does nothing else, or it does neither. -/
inductive Outcome (h : Handling) : Prop where
  | closes (block : OpenBlock) (isCloser : h.token.kind = .closing)
      (named : h.token.value = block.name) (blocks : h.before.blocks = block :: h.after.blocks)
      (opened : h.opened = []) (closed : h.closed = [block]) (reported : h.reported = [])
  | refuses (fault : Fault) (unexpected : fault.kind = .unexpectedToken)
      (unchanged : h.after = h.before.report fault h.token.span) (opened : h.opened = [])
      (closed : h.closed = []) (reported : h.reported = [⟨fault, h.token.span⟩])
  | proceeds (notCloser : h.token.kind ≠ .closing)
      (blocks : h.after.blocks = h.opened ++ h.before.blocks) (closed : h.closed = [])
      (reported : ∀ error ∈ h.reported, ¬error.IsStructural)

theorem IsStep.outcome (hstep : h.IsStep escaping) : h.Outcome := by
  have hown : ∀ error ∈ h.token.ownErrors, ¬error.IsStructural := by
    intro error herror
    exact not_isStructural_of_inExpression (h.token.ownErrors_inExpression error herror)
  have hcases := h.before.step_addBuiltin escaping h.index h.token
  rw [← hstep] at hcases
  cases hcases with
  | grows isSingle result =>
      have hblocks : h.after.blocks = h.before.blocks := by rw [result, Builder.blocks_grow]
      have hreported : h.reported = h.token.ownErrors := by
        apply reported_eq
        rw [result, Builder.errors_grow]
      have hopened : h.opened = [] := by
        apply opened_eq_nil
        intro block name hkind
        rw [hkind] at isSingle
        cases isSingle
      refine .proceeds ?_ ?_ (closed_eq_nil (Nat.le_of_eq (congrArg _ hblocks.symm))) ?_
      · intro hkind
        rw [hkind] at isSingle
        cases isSingle
      · rw [hblocks, hopened, List.nil_append]
      · rw [hreported]
        exact hown
  | @opens block name opens result =>
      have hopened : h.opened = [⟨name, h.index, h.token.span⟩] := by
        simp only [opened, opens]
      have hblocks : h.after.blocks = h.opened ++ h.before.blocks := by
        rw [result, hopened]
        rfl
      refine .proceeds ?_ hblocks (closed_eq_nil ?_) ?_
      · rw [opens]
        exact TokenKind.noConfusion
      · rw [hblocks, List.length_append]
        omega
      · have hreported : h.reported = h.token.ownErrors := reported_eq (by rw [result]; rfl)
        rw [hreported]
        exact hown
  | @closes frame frames closes inside named result =>
      have hblocks : h.before.blocks = frame.block :: h.after.blocks := by
        rw [result, Builder.blocks_grow, Builder.blocks, inside]
        rfl
      refine .closes frame.block closes named.symm hblocks ?_ (closed_eq_singleton hblocks) ?_
      · apply opened_eq_nil
        intro block name hkind
        cases closes.symm.trans hkind
      · apply reported_eq
        rw [result, Builder.errors_grow]
  | branches isElse inside isSection isWhole result =>
      have hblocks : h.after.blocks = h.before.blocks := by
        rw [result, Builder.blocks, Builder.blocks, inside]
        rfl
      have hopened : h.opened = [] := by
        apply opened_eq_nil
        intro block name hkind
        cases isElse.symm.trans hkind
      have hreported : h.reported = [] := by
        apply reported_eq
        rw [result, List.append_nil]
      refine .proceeds ?_ ?_ (closed_eq_nil (Nat.le_of_eq (congrArg _ hblocks.symm))) ?_
      · rw [isElse]
        exact TokenKind.noConfusion
      · rw [hblocks, hopened, List.nil_append]
      · rw [hreported]
        intro error herror
        cases herror
  | refuses fault unexpected refused result =>
      have hblocks : h.after.blocks = h.before.blocks := by
        rw [result]
        rfl
      refine .refuses fault unexpected result ?_
        (closed_eq_nil (Nat.le_of_eq (congrArg _ hblocks.symm))) (reported_eq (by rw [result]; rfl))
      apply opened_eq_nil
      intro block name hkind
      rcases refused with hrefused | hrefused | ⟨provider, hrefused⟩ <;>
        cases hrefused.symm.trans hkind

theorem IsStep.errors (hstep : h.IsStep escaping) :
    h.after.errors = h.before.errors ++ h.reported := by
  obtain ⟨errors, herrors⟩ := h.before.errors_addBuiltin escaping h.index h.token
  rw [← hstep] at herrors
  rw [reported_eq herrors.symm, herrors]

/-- The blocks before a token and those that it opens are the blocks that it closes
and those after it. -/
theorem Outcome.perm (houtcome : h.Outcome) :
    (h.before.blocks ++ h.opened).Perm (h.closed ++ h.after.blocks) := by
  cases houtcome with
  | closes block isCloser named blocks opened closed reported =>
      rw [blocks, opened, closed, List.append_nil, List.singleton_append]
  | refuses fault unexpected unchanged opened closed reported =>
      have hblocks : h.after.blocks = h.before.blocks := by
        rw [unchanged]
        rfl
      rw [hblocks, opened, closed, List.append_nil, List.nil_append]
  | proceeds notCloser blocks closed reported =>
      rw [blocks, closed, List.nil_append]
      exact List.perm_append_comm

theorem Outcome.named (houtcome : h.Outcome) :
    ∀ block ∈ h.closed, h.token.kind = .closing ∧ h.token.value = block.name := by
  intro block hblock
  cases houtcome with
  | closes innermost isCloser named blocks opened closed reported =>
      rw [closed] at hblock
      obtain rfl := List.mem_singleton.mp hblock
      exact ⟨isCloser, named⟩
  | refuses _ _ _ _ closed _ | proceeds _ _ closed _ =>
      rw [closed] at hblock
      cases hblock

/-- What is reported at a token is no error of a block that is never closed. -/
theorem Outcome.reported_unclosed (houtcome : h.Outcome) :
    h.reported.filter (·.kind = .unclosedBlock) = [] := by
  rw [List.filter_eq_nil_iff]
  intro error herror hkind
  have hunclosed : error.kind = .unclosedBlock := of_decide_eq_true hkind
  cases houtcome with
  | closes _ _ _ _ _ _ reported =>
      rw [reported] at herror
      cases herror
  | refuses fault unexpected _ _ _ reported =>
      rw [reported] at herror
      obtain rfl := List.mem_singleton.mp herror
      cases unexpected.symm.trans hunclosed
  | proceeds _ _ _ reported => exact reported error herror (Or.inr hunclosed)

/-- A token that is reported as unexpected does nothing else. -/
theorem Outcome.unchanged (houtcome : h.Outcome) (hrefused : h.refusals ≠ []) :
    ∃ fault, fault.kind = .unexpectedToken ∧ h.after = h.before.report fault h.token.span := by
  cases houtcome with
  | closes _ _ _ _ _ _ reported =>
      rw [refusals, reported] at hrefused
      exact absurd rfl hrefused
  | refuses fault unexpected unchanged _ _ _ => exact ⟨fault, unexpected, unchanged⟩
  | proceeds _ _ _ reported =>
      refine absurd ?_ hrefused
      rw [refusals, List.filter_eq_nil_iff]
      intro error herror hkind
      exact reported error herror (Or.inl (of_decide_eq_true hkind))

/-- A closing tag closes one block or is reported once. -/
theorem Outcome.closers (houtcome : h.Outcome) (isCloser : h.token.kind = .closing) :
    h.closed.length + h.refusals.length = 1 := by
  cases houtcome with
  | closes block isCloser named blocks opened closed reported =>
      rw [refusals, reported, closed]
      rfl
  | refuses fault unexpected unchanged opened closed reported =>
      simp [refusals, reported, closed, ParseError.kind, unexpected]
  | proceeds notCloser blocks closed reported => exact absurd isCloser notCloser

end Handling

namespace Builder

variable (escaping : Bool) (builder : Builder) (index : Nat) (tokens : List Token)

theorem handlings_cons (token : Token) :
    builder.handlings escaping index (token :: tokens) =
      ⟨index, token, builder, builder.addBuiltin escaping index token⟩ ::
        (builder.addBuiltin escaping index token).handlings escaping (index + 1) tokens := rfl

theorem isStep_of_mem_handlings :
    ∀ h ∈ builder.handlings escaping index tokens, h.IsStep escaping := by
  induction tokens generalizing builder index with
  | nil =>
      intro h hmem
      cases hmem
  | cons token tokens ih =>
      rw [handlings_cons]
      exact List.forall_mem_cons.mpr ⟨rfl, ih _ _⟩

/-- Every token is handled, in order. -/
theorem map_token_handlings :
    (builder.handlings escaping index tokens).map Handling.token = tokens := by
  induction tokens generalizing builder index with
  | nil => rfl
  | cons token tokens ih => rw [handlings_cons, List.map_cons, ih]

/-- Tokens are handled in the order of their positions. -/
theorem handlings_sorted :
    (builder.handlings escaping index tokens).Pairwise (·.index < ·.index) ∧
    ∀ h ∈ builder.handlings escaping index tokens, index ≤ h.index := by
  induction tokens generalizing builder index with
  | nil =>
      constructor
      · exact .nil
      · intro h hmem
        cases hmem
  | cons token tokens ih =>
      obtain ⟨hsorted, hbound⟩ := ih (builder.addBuiltin escaping index token) (index + 1)
      rw [handlings_cons]
      constructor
      · apply List.pairwise_cons.mpr
        exact ⟨hbound, hsorted⟩
      · refine List.forall_mem_cons.mpr ⟨Nat.le_refl _, ?_⟩
        intro h hmem
        exact Nat.le_of_succ_le (hbound h hmem)

theorem errors_run :
    (builder.addTokens escaping [] index tokens).errors =
      builder.errors ++ (builder.handlings escaping index tokens).flatMap Handling.reported := by
  induction tokens generalizing builder index with
  | nil => exact (List.append_nil _).symm
  | cons token tokens ih =>
      have hstep : (⟨index, token, builder, builder.addBuiltin escaping index token⟩ :
          Handling).IsStep escaping := rfl
      rw [addTokens_cons, ih, handlings_cons, List.flatMap_cons, ← List.append_assoc]
      exact congrArg (· ++ _) hstep.errors

/-- The blocks before a run and those that it opens are the blocks that it closes and
those after it. -/
theorem blocks_run :
    (builder.blocks ++ (builder.handlings escaping index tokens).flatMap Handling.opened).Perm
      ((builder.handlings escaping index tokens).flatMap Handling.closed ++
        (builder.addTokens escaping [] index tokens).blocks) := by
  induction tokens generalizing builder index with
  | nil => exact .of_eq (List.append_nil _)
  | cons token tokens ih =>
      let h : Handling := ⟨index, token, builder, builder.addBuiltin escaping index token⟩
      have hstep : h.IsStep escaping := rfl
      have hperm : (builder.blocks ++ h.opened).Perm (h.closed ++ h.after.blocks) :=
        hstep.outcome.perm
      rw [addTokens_cons, handlings_cons, List.flatMap_cons, List.flatMap_cons,
        ← List.append_assoc, List.append_assoc h.closed]
      refine (hperm.append_right _).trans ?_
      rw [List.append_assoc]
      exact (ih h.after (index + 1)).append_left _

/-- The errors of tokens are those reported at each, and then those of the blocks left
open. -/
theorem errors_ofTokens :
    (Item.ofTokens escaping [] tokens).2 =
      (empty.handlings escaping 0 tokens).flatMap Handling.reported ++
        (empty.addTokens escaping [] 0 tokens).blocks.map OpenBlock.unclosed := by
  rw [Item.ofTokens, finish, closeAll_eq, errors_run]
  rfl

/-- Blocks are reported as never closed at the end only. -/
theorem filter_reported_unclosed :
    ((builder.handlings escaping index tokens).flatMap Handling.reported).filter
      (·.kind = .unclosedBlock) = [] := by
  rw [List.filter_flatMap, List.flatMap_eq_nil_iff]
  intro h hmem
  exact (builder.isStep_of_mem_handlings escaping index tokens h hmem).outcome.reported_unclosed

theorem filter_unclosed (blocks : List OpenBlock) :
    (blocks.map OpenBlock.unclosed).filter (·.kind = .unclosedBlock) =
      blocks.map OpenBlock.unclosed := by
  rw [List.filter_eq_self, List.forall_mem_map]
  intro block hblock
  rfl

/-- All errors but those of the blocks left open are reported before the end. -/
theorem filter_ne_unclosed :
    (Item.ofTokens escaping [] tokens).2.filter (·.kind ≠ .unclosedBlock) =
      (empty.addTokens escaping [] 0 tokens).errors := by
  have hreported : ((empty.handlings escaping 0 tokens).flatMap Handling.reported).filter
      (·.kind ≠ .unclosedBlock) =
        (empty.handlings escaping 0 tokens).flatMap Handling.reported := by
    rw [List.filter_eq_self]
    intro error herror
    have hnone := List.filter_eq_nil_iff.mp (filter_reported_unclosed escaping empty 0 tokens)
    simpa using hnone error herror
  have hunclosed : ((empty.addTokens escaping [] 0 tokens).blocks.map OpenBlock.unclosed).filter
      (·.kind ≠ .unclosedBlock) = [] := by
    rw [List.filter_eq_nil_iff, List.forall_mem_map]
    intro block hblock
    exact Bool.false_ne_true
  rw [errors_ofTokens, errors_run, List.filter_append, hreported, hunclosed, List.append_nil]
  rfl

/-- What becomes of the blocks of tokens that no provider takes. -/
theorem accounted :
    Accounted (empty.handlings escaping 0 tokens)
      (empty.addTokens escaping [] 0 tokens).blocks (Item.ofTokens escaping [] tokens).2 := by
  have hstep := empty.isStep_of_mem_handlings escaping 0 tokens
  constructor
  · exact (empty.blocks_run escaping 0 tokens).symm
  · apply List.pairwise_flatMap.mpr
    constructor
    · intro h hmem
      unfold Handling.opened
      split
      · exact List.pairwise_singleton _ _
      · exact .nil
    · refine (empty.handlings_sorted escaping 0 tokens).1.imp ?_
      intro first second hlt block hfirst block' hsecond heq
      rw [first.index_of_mem_opened hfirst, second.index_of_mem_opened (heq ▸ hsecond)] at hlt
      exact Nat.lt_irrefl _ hlt
  · intro h hmem
    exact (hstep h hmem).outcome.named
  · intro h hmem
    exact (hstep h hmem).outcome.closers
  · rw [errors_ofTokens, List.filter_append, filter_reported_unclosed, filter_unclosed,
      List.nil_append]
  · have hunclosed : ((empty.addTokens escaping [] 0 tokens).blocks.map
        OpenBlock.unclosed).filter (·.kind = .unexpectedToken) = [] := by
      rw [List.filter_eq_nil_iff, List.forall_mem_map]
      intro block hblock
      exact Bool.false_ne_true
    rw [errors_ofTokens, List.filter_append, List.filter_flatMap, hunclosed, List.append_nil]
    rfl

end Builder

end Stencil
