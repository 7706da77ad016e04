import Mathlib.Data.List.Induction
import Stencil.Proofs.Document.Stacks

/-!
The blocks that are open when a token is handled. Each token opens a block, closes the
innermost one by its name, or does neither, as a provider or its class says. The stack of
open blocks that providers are shown holds the blocks that earlier tokens opened and that
none of them closed.
-/

namespace Stencil

/-- What handling a token does to the open blocks. A closer with another name than the
innermost block does nothing to them. -/
inductive Act where
  | opens (block : OpenBlock)
  | closes (name : String)
  | stays

/-- What a token does to the open blocks: what the first provider that takes it says,
given the blocks, or what its class says. -/
def Token.act (providers : List Provider) (index : Nat) (openBlocks : List OpenBlock)
    (token : Token) : Act :=
  match providers.find? (·.claimsToken token) with
  | some provider =>
      match provider.parse token openBlocks with
      | .ok (.opens tag) => .opens ⟨tag.name, index, token.span⟩
      | .ok (.closes name) => .closes name
      | .ok (.item _) | .ok .skips | .error _ => .stays
  | none =>
      match token.kind with
      | .opening _ name => .opens ⟨name, index, token.span⟩
      | .closing => .closes token.value
      | _ => .stays

/-- What tokens do to the open blocks, one after another. -/
def Stacks.acts (escaping : Bool) (providers : List Provider) (state : Stacks) (index : Nat) :
    List Token → List Act
  | [] => []
  | token :: tokens =>
      token.act providers index state.scopes.reverse ::
        acts escaping providers (state.addToken escaping providers index token) (index + 1) tokens

namespace Act

/-- Acts in which every block that is opened is closed by its name, and which do not close
the block around them, if there is one. -/
inductive Balanced : Option String → List Act → Prop where
  | nil {outer : Option String} : Balanced outer []
  | stays {outer : Option String} {acts : List Act} (rest : Balanced outer acts) :
      Balanced outer (.stays :: acts)
  | refused {outer : Option String} {name : String} {acts : List Act} (hname : outer ≠ some name)
      (rest : Balanced outer acts) : Balanced outer (.closes name :: acts)
  | block {outer : Option String} (block : OpenBlock) {inside acts : List Act}
      (hinside : Balanced (some block.name) inside) (rest : Balanced outer acts) :
      Balanced outer (.opens block :: (inside ++ .closes block.name :: acts))

/-- The block is opened and, after acts that do not close it, closed by its name. -/
def IsClosed (acts : List Act) (block : OpenBlock) : Prop :=
  ∃ before inside after, acts = before ++ .opens block :: (inside ++ .closes block.name :: after) ∧
    Balanced (some block.name) inside

/-- The open blocks after an act, innermost first. -/
def apply : Act → List OpenBlock → List OpenBlock
  | opens block, scopes => block :: scopes
  | closes _, [] => []
  | closes name, block :: scopes => if block.name = name then scopes else block :: scopes
  | stays, scopes => scopes

def run (acts : List Act) (scopes : List OpenBlock) : List OpenBlock :=
  acts.foldl (fun scopes act => act.apply scopes) scopes

theorem run_append (first second : List Act) (scopes : List OpenBlock) :
    run (first ++ second) scopes = run second (run first scopes) :=
  List.foldl_append

theorem apply_closes (block : OpenBlock) (scopes : List OpenBlock) :
    (closes block.name).apply (block :: scopes) = scopes := by
  simp [apply]

namespace Balanced

variable {outer : Option String} {acts more : List Act}

/-- Balanced acts leave the blocks around them as they are. -/
theorem run_eq (h : Balanced outer acts) {scopes : List OpenBlock}
    (houter : scopes.head?.map OpenBlock.name = outer) : run acts scopes = scopes := by
  induction h generalizing scopes with
  | nil => rfl
  | stays rest ih => exact ih houter
  | refused hname rest ih =>
      rename_i outer name acts
      cases scopes with
      | nil => exact ih houter
      | cons block scopes =>
          have hother : block.name ≠ name := by
            intro heq
            exact hname (houter.symm.trans (congrArg some heq))
          have hstays : (closes name).apply (block :: scopes) = block :: scopes := if_neg hother
          rw [run, List.foldl_cons, hstays]
          exact ih houter
  | block block hinside rest ihinside ihrest =>
      rename_i outer inside acts
      have hopened : run inside (block :: scopes) = block :: scopes := ihinside rfl
      have hcons : (.opens block :: (inside ++ .closes block.name :: acts) : List Act) =
          [.opens block] ++ inside ++ [.closes block.name] ++ acts := by simp
      rw [hcons, run_append, run_append, run_append]
      have hclosed : run [.closes block.name] (block :: scopes) = scopes :=
        apply_closes block scopes
      have hopens : run [.opens block] scopes = block :: scopes := rfl
      rw [hopens, hopened, hclosed]
      exact ihrest houter

theorem append (h : Balanced outer acts) (hmore : Balanced outer more) :
    Balanced outer (acts ++ more) := by
  induction h with
  | nil => exact hmore
  | stays rest ih => exact .stays (ih hmore)
  | refused hname rest ih => exact .refused hname (ih hmore)
  | block block hinside rest ihinside ihrest =>
      rw [List.cons_append, List.append_assoc, List.cons_append]
      exact .block block hinside (ihrest hmore)

/-- A block that is opened in balanced acts is closed in them. -/
theorem closed_of_opens (h : Balanced outer acts) {before after : List Act} {block : OpenBlock}
    (hacts : acts = before ++ .opens block :: after) :
    ∃ inside rest, after = inside ++ .closes block.name :: rest ∧
      Balanced (some block.name) inside := by
  induction h generalizing before after with
  | nil => simp at hacts
  | stays rest ih | refused hname rest ih =>
      cases before with
      | nil => cases hacts
      | cons act before => exact ih (List.cons.inj hacts).2
  | block opened hinside rest ihinside ihrest =>
      cases before with
      | nil =>
          obtain ⟨hopened, rfl⟩ := List.cons.inj hacts
          obtain rfl := Act.opens.inj hopened
          exact ⟨_, _, rfl, hinside⟩
      | cons act before =>
          have htail := (List.cons.inj hacts).2
          rcases List.append_eq_append_iff.mp htail with
            ⟨middle, rfl, hmiddle⟩ | ⟨middle, hbody, hmiddle⟩
          · -- the block is opened behind the closer
            cases middle with
            | nil => cases hmiddle
            | cons act middle => exact ihrest (List.cons.inj hmiddle).2
          · cases middle with
            | nil => cases hmiddle
            | cons act middle =>
                obtain ⟨rfl, rfl⟩ := List.cons.inj hmiddle
                obtain ⟨inside, behind, rfl, hbalanced⟩ := ihinside hbody
                exact ⟨inside, _, List.append_assoc .., hbalanced⟩

end Balanced

/-- Acts that leave these blocks open, innermost first. -/
inductive Leaves : List OpenBlock → List Act → Prop where
  | none {acts : List Act} (h : Balanced none acts) : Leaves [] acts
  | opened {blocks : List OpenBlock} {acts inside : List Act} (before : Leaves blocks acts)
      (block : OpenBlock) (hinside : Balanced (some block.name) inside) :
      Leaves (block :: blocks) (acts ++ .opens block :: inside)

namespace Leaves

variable {blocks : List OpenBlock} {acts more : List Act}

theorem append (h : Leaves blocks acts) (hmore : ∀ outer, Balanced outer more) :
    Leaves blocks (acts ++ more) := by
  cases h with
  | none h => exact .none (h.append (hmore _))
  | opened before block hinside =>
      rw [List.append_assoc, List.cons_append]
      exact .opened before block (hinside.append (hmore _))

/-- One act more leaves open what it makes of the blocks that are open. -/
theorem concat (h : Leaves blocks acts) (act : Act) :
    Leaves (act.apply blocks) (acts ++ [act]) := by
  cases act with
  | opens block => exact .opened h block .nil
  | stays => exact h.append fun outer => .stays .nil
  | closes name =>
      cases h with
      | none h => exact .none (h.append (.refused (by simp) .nil))
      | @opened blocks acts inside before block hinside =>
          by_cases hname : block.name = name
          · subst hname
            have hclosed := before.append fun outer => .block block hinside .nil
            rw [apply_closes, List.append_assoc]
            exact hclosed
          · have hrefused : Balanced (some block.name) [.closes name] :=
              .refused (fun heq => hname (Option.some.inj heq)) .nil
            rw [apply, if_neg hname, List.append_assoc]
            exact .opened before block (hinside.append hrefused)

theorem of_run (acts : List Act) : Leaves (run acts []) acts := by
  induction acts using List.reverseRecOn with
  | nil => exact .none .nil
  | append_singleton acts act ih =>
      rw [run_append]
      exact ih.concat act

/-- A block that is opened is left open or closed. -/
theorem closed_of_opens (h : Leaves blocks acts) {before after : List Act} {block : OpenBlock}
    (hacts : acts = before ++ .opens block :: after) (hopen : block ∉ blocks) :
    ∃ inside rest, after = inside ++ .closes block.name :: rest ∧
      Balanced (some block.name) inside := by
  induction h generalizing before after with
  | none h => exact h.closed_of_opens hacts
  | opened _ opened hinside ih =>
      obtain ⟨hother, hearlier⟩ := List.ne_and_not_mem_of_not_mem_cons hopen
      rcases List.append_eq_append_iff.mp hacts with
        ⟨middle, rfl, hmiddle⟩ | ⟨middle, rfl, hmiddle⟩
      · cases middle with
        | nil => exact absurd (Act.opens.inj (List.cons.inj hmiddle).1).symm hother
        | cons act middle => exact hinside.closed_of_opens (List.cons.inj hmiddle).2
      · cases middle with
        | nil => exact absurd (Act.opens.inj (List.cons.inj hmiddle).1) hother
        | cons act middle =>
            obtain ⟨rfl, rfl⟩ := List.cons.inj hmiddle
            obtain ⟨inside, rest, rfl, hbalanced⟩ := ih rfl hearlier
            exact ⟨inside, _, List.append_assoc .., hbalanced⟩

end Leaves

/-- Blocks have the positions of the acts that open them. -/
def AreNumbered (acts : List Act) : Prop :=
  ∀ (index : Nat) (block : OpenBlock), acts[index]? = some (.opens block) →
    block.tokenIndex = index

namespace AreNumbered

variable {acts before after : List Act} {block : OpenBlock}

theorem front (h : AreNumbered (before ++ after)) : AreNumbered before := by
  intro index block hopens
  have hlt := (List.getElem?_eq_some_iff.mp hopens).1
  exact h index block (by rw [List.getElem?_append_left hlt, hopens])

theorem index_eq (h : AreNumbered (before ++ .opens block :: after)) :
    block.tokenIndex = before.length :=
  h before.length block (by simp)

theorem lt_of_mem (h : AreNumbered acts) (hopens : .opens block ∈ acts) :
    block.tokenIndex < acts.length := by
  obtain ⟨before, after, rfl⟩ := List.append_of_mem hopens
  rw [h.index_eq, List.length_append, List.length_cons]
  omega

/-- The act that opens a block is the only one. -/
theorem not_mem (h : AreNumbered (before ++ .opens block :: after)) :
    .opens block ∉ before ∧ .opens block ∉ after := by
  have hindex := h.index_eq
  constructor
  · intro hbefore
    have hlt := h.front.lt_of_mem hbefore
    omega
  · intro hafter
    obtain ⟨middle, rest, rfl⟩ := List.append_of_mem hafter
    have hagain : before ++ .opens block :: (middle ++ .opens block :: rest) =
        (before ++ .opens block :: middle) ++ .opens block :: rest := by simp
    have hindex' := (hagain ▸ h).index_eq
    rw [List.length_append, List.length_cons] at hindex'
    omega

end AreNumbered

/-- An open block was open before or is opened by one of the acts. -/
theorem mem_run {acts : List Act} {scopes : List OpenBlock} {block : OpenBlock}
    (h : block ∈ run acts scopes) : block ∈ scopes ∨ .opens block ∈ acts := by
  induction acts generalizing scopes with
  | nil => exact Or.inl h
  | cons act acts ih =>
      rcases ih h with hmem | hmem
      · cases act with
        | opens opened =>
            rcases List.mem_cons.mp hmem with rfl | hscopes
            · exact Or.inr (List.mem_cons_self ..)
            · exact Or.inl hscopes
        | stays => exact Or.inl hmem
        | closes name =>
            cases scopes with
            | nil => exact Or.inl hmem
            | cons innermost scopes =>
                have hmem : block ∈ if innermost.name = name then scopes else innermost :: scopes :=
                  hmem
                split at hmem
                · exact Or.inl (List.mem_cons_of_mem _ hmem)
                · exact Or.inl hmem
      · exact Or.inr (List.mem_cons_of_mem _ hmem)

variable {acts : List Act}

/-- The blocks that are open are those that were opened and not closed. -/
theorem mem_run_iff (h : AreNumbered acts) (block : OpenBlock) :
    block ∈ run acts [] ↔ .opens block ∈ acts ∧ ¬IsClosed acts block := by
  constructor
  · intro hopen
    have hopens : .opens block ∈ acts := by
      rcases mem_run hopen with hnone | hopens
      · cases hnone
      · exact hopens
    refine ⟨hopens, ?_⟩
    rintro ⟨before, inside, after, rfl, hbalanced⟩
    obtain ⟨hbefore, hafter⟩ := h.not_mem
    -- behind its closer the block is neither left over nor opened again
    have hrun : run (before ++ .opens block :: (inside ++ .closes block.name :: after)) [] =
        run after (run before []) := by
      have hsplit : before ++ .opens block :: (inside ++ .closes block.name :: after) =
          before ++ (.opens block :: (inside ++ [.closes block.name])) ++ after := by simp
      rw [hsplit, run_append, run_append]
      congr 1
      have hopened : run (inside ++ [.closes block.name]) (block :: run before []) =
          run before [] := by
        rw [run_append, hbalanced.run_eq rfl]
        exact apply_closes block _
      exact hopened
    rw [hrun] at hopen
    rcases mem_run hopen with hmem | hmem
    · rcases mem_run hmem with hnone | hmem
      · cases hnone
      · exact hbefore hmem
    · exact hafter (List.mem_append_right _ (List.mem_cons_of_mem _ hmem))
  · rintro ⟨hopens, hclosed⟩
    obtain ⟨before, after, hacts⟩ := List.append_of_mem hopens
    by_contra hopen
    obtain ⟨inside, rest, rfl, hbalanced⟩ := (Leaves.of_run acts).closed_of_opens hacts hopen
    exact hclosed ⟨before, inside, rest, hacts, hbalanced⟩

/-- Inner blocks were opened later. -/
theorem run_increasing (h : AreNumbered acts) :
    (run acts []).Pairwise fun inner outer => outer.tokenIndex < inner.tokenIndex := by
  induction acts using List.reverseRecOn with
  | nil => exact .nil
  | append_singleton acts act ih =>
      have hearlier := ih h.front
      rw [run_append]
      cases act with
      | opens block =>
          refine .cons ?_ hearlier
          intro outer houter
          rw [h.index_eq]
          rcases mem_run houter with hnone | hopens
          · cases hnone
          · exact h.front.lt_of_mem hopens
      | stays => exact hearlier
      | closes name =>
          cases hscopes : run acts [] with
          | nil => exact .nil
          | cons innermost scopes =>
              rw [hscopes] at hearlier
              have hstep : run [closes name] (innermost :: scopes) =
                  if innermost.name = name then scopes else innermost :: scopes := rfl
              rw [hstep]
              split
              · exact hearlier.of_cons
              · exact hearlier

end Act

namespace Stacks

variable (escaping : Bool) (providers : List Provider) (state : Stacks) (index : Nat)

theorem scopes_add (item : Item) : (state.add item).scopes = state.scopes := by
  unfold add
  split <;> rfl

theorem scopes_close (name : String) (span : Span) :
    (state.close name span).scopes = (Act.closes name).apply state.scopes := by
  obtain ⟨items, collectors, scopes, errors⟩ := state
  cases scopes with
  | nil => rfl
  | cons block scopes =>
      simp only [close, Act.apply]
      split
      · cases collectors with
        | nil => rfl
        | cons collector collectors => exact scopes_add _ _
      · rfl

theorem scopes_otherwise (span : Span) : (state.otherwise span).scopes = state.scopes := by
  unfold otherwise
  split
  · rfl
  · split
    · rfl
    · split <;> rfl

theorem scopes_foldl_add (items : List Item) :
    (items.foldl add state).scopes = state.scopes := by
  induction items generalizing state with
  | nil => rfl
  | cons item items ih => rw [List.foldl_cons, ih, scopes_add]

/-- Handling a token does to the open blocks what the act of the token does. -/
theorem scopes_addToken (token : Token) :
    (state.addToken escaping providers index token).scopes =
      (token.act providers index state.scopes.reverse).apply state.scopes := by
  cases hfind : providers.find? (·.claimsToken token) with
  | none =>
      simp only [addToken, Token.act, hfind, addBuiltin]
      cases token.kind with
      | text | comment | expression | reference => exact scopes_foldl_add _ _
      | opening block name => rfl
      | closing => exact scopes_close _ _ _
      | otherwise => exact scopes_otherwise _ _
      | custom provider => rfl
  | some provider =>
      cases hparse : provider.parse token state.scopes.reverse with
      | error error =>
          simp only [addToken, Token.act, hfind, hparse]
          rfl
      | ok claim =>
          simp only [addToken, Token.act, hfind, hparse]
          cases claim with
          | item item => exact scopes_add _ _
          | opens tag => rfl
          | closes name => exact scopes_close _ _ _
          | skips => rfl

theorem scopes_addTokens (tokens : List Token) :
    (state.addTokens escaping providers index tokens).scopes =
      Act.run (state.acts escaping providers index tokens) state.scopes := by
  induction tokens generalizing state index with
  | nil => rfl
  | cons token tokens ih =>
      rw [addTokens, ih, scopes_addToken]
      rfl

theorem addTokens_append (first second : List Token) :
    state.addTokens escaping providers index (first ++ second) =
      (state.addTokens escaping providers index first).addTokens escaping providers
        (index + first.length) second := by
  induction first generalizing state index with
  | nil => rfl
  | cons token first ih =>
      rw [List.cons_append, addTokens, addTokens, ih, List.length_cons]
      congr 1
      omega

theorem length_acts (tokens : List Token) :
    (state.acts escaping providers index tokens).length = tokens.length := by
  induction tokens generalizing state index with
  | nil => rfl
  | cons token tokens ih => rw [acts, List.length_cons, ih, List.length_cons]

theorem index_of_act {token : Token} {openBlocks : List OpenBlock} {block : OpenBlock}
    (h : token.act providers index openBlocks = .opens block) : block.tokenIndex = index := by
  unfold Token.act at h
  grind

theorem numbered_acts (tokens : List Token) (position : Nat) (block : OpenBlock)
    (h : (state.acts escaping providers index tokens)[position]? = some (.opens block)) :
    block.tokenIndex = index + position := by
  induction tokens generalizing state index position with
  | nil => cases h
  | cons token tokens ih =>
      cases position with
      | zero => exact index_of_act providers index (Option.some.inj h)
      | succ position =>
          have hindex := ih _ (index + 1) position h
          omega

/-- The stacks are level, and on that of the open blocks are the blocks that the acts open
and do not close, each with the position of the act that opens it, the inner ones opened
later than the outer ones. -/
structure IsExact (acts : List Act) (state : Stacks) : Prop where
  level : state.collectors.length = state.scopes.length
  mem_iff : ∀ block, block ∈ state.scopes ↔ .opens block ∈ acts ∧ ¬Act.IsClosed acts block
  opener : ∀ block ∈ state.scopes, acts[block.tokenIndex]? = some (.opens block)
  increasing : state.scopes.reverse.Pairwise (·.tokenIndex < ·.tokenIndex)

theorem isExact_addTokens (tokens : List Token) :
    IsExact (empty.acts escaping providers 0 tokens)
      (empty.addTokens escaping providers 0 tokens) := by
  have hnumbered : Act.AreNumbered (empty.acts escaping providers 0 tokens) := by
    intro position block hopens
    have hindex := empty.numbered_acts escaping providers 0 tokens position block hopens
    omega
  have hsplit : empty.addTokens escaping providers 0 tokens =
      (Builder.empty.addTokens escaping providers 0 tokens).split :=
    (Builder.empty.split_addTokens escaping providers 0 tokens).symm
  have hscopes := empty.scopes_addTokens escaping providers 0 tokens
  refine ⟨?_, ?_, ?_, ?_⟩
  · rw [hsplit]
    simp only [Builder.split, Builder.blocks, List.length_map]
  · intro block
    rw [hscopes]
    exact Act.mem_run_iff hnumbered block
  · intro block hblock
    rw [hscopes] at hblock
    have hopens := ((Act.mem_run_iff hnumbered block).mp hblock).1
    obtain ⟨position, hposition⟩ := List.mem_iff_getElem?.mp hopens
    rwa [hnumbered position block hposition]
  · rw [hscopes]
    exact List.pairwise_reverse.mpr (Act.run_increasing hnumbered)

/-- A provider is shown the blocks that are open, exactly. Whatever providers make of
tokens, the two stacks are level when the next token is handled; the open blocks that it is
shown, outermost first, are those that an earlier token opened and none closed by their
name; and if there is no next token, each of them is reported as never closed and becomes
one item, with all that was collected for it. -/
theorem scopes_opened_not_closed (before after : List Token) :
    let state := empty.addTokens escaping providers 0 before
    empty.addTokens escaping providers 0 (before ++ after) =
      state.addTokens escaping providers before.length after ∧
    (Builder.empty.addTokens escaping providers 0 before).openBlocks = state.scopes.reverse ∧
    IsExact (empty.acts escaping providers 0 before) state ∧
    (∀ block ∈ state.scopes, block.tokenIndex < before.length) ∧
    state.finish = Item.ofTokens escaping providers before ∧
    state.finish.2 = state.errors ++ state.scopes.map OpenBlock.unclosed ∧
    Item.labels state.finish.1 =
      Item.labels state.items ++ state.collectors.reverse.flatMap Collector.labels := by
  intro state
  have hexact : IsExact (empty.acts escaping providers 0 before) state :=
    isExact_addTokens escaping providers before
  have hsplit : (Builder.empty.addTokens escaping providers 0 before).split = state :=
    Builder.empty.split_addTokens escaping providers 0 before
  have hfinish : state.finish = Item.ofTokens escaping providers before := by
    rw [← hsplit, Builder.finish_split]
    rfl
  have hproper : (Builder.empty.addTokens escaping providers 0 before).IsProper :=
    Builder.isProper_empty.addAllTokens escaping providers 0 before
  refine ⟨?_, ?_, hexact, ?_, hfinish, ?_, ?_⟩
  · rw [addTokens_append, Nat.zero_add]
  · rw [← hsplit]
    rfl
  · intro block hblock
    have hlt := (List.getElem?_eq_some_iff.mp (hexact.opener block hblock)).1
    rwa [length_acts] at hlt
  · rw [hfinish, Item.ofTokens, Builder.finish, Builder.closeAll_eq, ← hsplit]
    rfl
  · rw [hfinish, Item.ofTokens, Builder.finish, Builder.labels_closeAll _ _ _ hproper, ← hsplit]
    simp only [Builder.labels, Builder.split, ← List.map_reverse, List.flatMap_map]
    rfl

end Stacks

end Stencil
