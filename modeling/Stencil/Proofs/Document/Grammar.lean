import Stencil.Document.Builder

/-!
The grammar of balanced token sequences. A sequence of items is made of single
tokens and of blocks; a block is a sequence between an opening tag and the
closing tag that repeats its name, and a section may have a second sequence
after an `else`. A derivation is a tree of this grammar: it has the tokens it
is read from and denotes the items it stands for. No token sequence has two
derivations.
-/

namespace Stencil

/-- Tokens outside the block structure. -/
def TokenKind.isSingle : TokenKind → Bool
  | .text | .comment | .expression _ | .reference => true
  | _ => false

namespace Token

/-- The item of a token that is one by itself. Comments and references without
a name have none. -/
def singleItems (escaping : Bool) (token : Token) : List Item :=
  match token.kind with
  | .text => [.literal token.value]
  | .expression escape =>
      [.output (Expression.read token.value token.span).1 (escape && escaping) token.span]
  | .reference => if token.value.isEmpty then [] else [.reference token.value token.span]
  | _ => []

/-- What is wrong inside a token, wherever it stands. -/
def ownErrors (token : Token) : List ParseError :=
  match token.kind with
  | .expression _ | .opening (.ofSection _) _ => (Expression.read token.value token.span).2
  | .opening .declaration _ =>
      if token.value.isEmpty then [⟨.namelessDeclaration, token.span⟩] else []
  | .reference => if token.value.isEmpty then [⟨.namelessReference, token.span⟩] else []
  | _ => []

end Token

/-- An opening tag and the closing tag that repeats its name. -/
structure TagPair (block : BlockKind) where
  opener : Token
  closer : Token
  opens : opener.kind = .opening block closer.value
  closes : closer.kind = .closing

namespace TagPair

variable {block : BlockKind}

/-- The place of the block between the tags, which are part of it. -/
def span (tags : TagPair block) : Span :=
  tags.opener.span.merge tags.closer.span

def expression (tags : TagPair block) : Expression :=
  (Expression.read tags.opener.value tags.opener.span).1

end TagPair

/-- A derivation of a sequence of items. -/
inductive Derivation where
  | nil
  | single (token : Token) (isSingle : token.kind.isSingle = true) (rest : Derivation)
  | block (kind : SectionKind) (tags : TagPair (.ofSection kind)) (body rest : Derivation)
  | branches (kind : SectionKind) (tags : TagPair (.ofSection kind)) (body : Derivation)
      (middle : Token) (isElse : middle.kind = .otherwise) (alternative rest : Derivation)
  | declaration (tags : TagPair .declaration) (body rest : Derivation)

namespace Derivation

/-- The tokens that a derivation is read from. -/
def tokens : Derivation → List Token
  | nil => []
  | single token _ rest => token :: rest.tokens
  | block _ tags body rest => tags.opener :: (body.tokens ++ tags.closer :: rest.tokens)
  | branches _ tags body middle _ alternative rest =>
      tags.opener ::
        (body.tokens ++ middle :: (alternative.tokens ++ tags.closer :: rest.tokens))
  | declaration tags body rest => tags.opener :: (body.tokens ++ tags.closer :: rest.tokens)

/-- The items that a derivation denotes. -/
def items (escaping : Bool) : Derivation → List Item
  | nil => []
  | single token _ rest => token.singleItems escaping ++ rest.items escaping
  | block kind tags body rest =>
      .block kind tags.expression (body.items escaping) [] tags.span :: rest.items escaping
  | branches kind tags body _ _ alternative rest =>
      .block kind tags.expression (body.items escaping) (alternative.items escaping) tags.span ::
        rest.items escaping
  | declaration tags body rest =>
      .declaration tags.opener.value (body.items escaping) tags.span :: rest.items escaping

/-- What is wrong inside the tokens of a derivation. -/
def errors : Derivation → List ParseError
  | nil => []
  | single token _ rest => token.ownErrors ++ rest.errors
  | block _ tags body rest => tags.opener.ownErrors ++ body.errors ++ rest.errors
  | branches _ tags body _ _ alternative rest =>
      tags.opener.ownErrors ++ body.errors ++ alternative.errors ++ rest.errors
  | declaration tags body rest => tags.opener.ownErrors ++ body.errors ++ rest.errors

/-- One sequence of items after another. -/
def append : Derivation → Derivation → Derivation
  | nil, second => second
  | single token isSingle rest, second => single token isSingle (rest.append second)
  | block kind tags body rest, second => block kind tags body (rest.append second)
  | branches kind tags body middle isElse alternative rest, second =>
      branches kind tags body middle isElse alternative (rest.append second)
  | declaration tags body rest, second => declaration tags body (rest.append second)

@[simp] theorem tokens_append (first second : Derivation) :
    (first.append second).tokens = first.tokens ++ second.tokens := by
  induction first with
  | nil => rfl
  | single token isSingle rest ih => simp [append, tokens, ih]
  | block kind tags body rest _ ih => simp [append, tokens, ih]
  | branches kind tags body middle isElse alternative rest _ _ ih => simp [append, tokens, ih]
  | declaration tags body rest _ ih => simp [append, tokens, ih]

/-- The errors of a derivation are those of its tokens, in their order. -/
theorem errors_eq (d : Derivation) : d.errors = d.tokens.flatMap Token.ownErrors := by
  have hclose {block : BlockKind} (tags : TagPair block) : tags.closer.ownErrors = [] := by
    simp only [Token.ownErrors, tags.closes]
  induction d with
  | nil => rfl
  | single token isSingle rest ih => simp [errors, tokens, ih]
  | block kind tags body rest ihbody ih => simp [errors, tokens, ihbody, ih, hclose]
  | branches kind tags body middle isElse alternative rest ihbody ihalternative ih =>
      have helse : middle.ownErrors = [] := by simp only [Token.ownErrors, isElse]
      simp [errors, tokens, ihbody, ihalternative, ih, hclose, helse]
  | declaration tags body rest ihbody ih => simp [errors, tokens, ihbody, ih, hclose]

end Derivation

/-- What can follow a sequence of items: the end, an `else` or a closing tag. -/
def EndsItems (tokens : List Token) : Prop :=
  ∀ token ∈ tokens.head?, token.kind = .otherwise ∨ token.kind = .closing

theorem endsItems_closer {block : BlockKind} (tags : TagPair block) (tokens : List Token) :
    EndsItems (tags.closer :: tokens) := by
  intro token htoken
  obtain rfl : tags.closer = token := by simpa using htoken
  exact Or.inr tags.closes

theorem endsItems_else {middle : Token} (isElse : middle.kind = .otherwise)
    (tokens : List Token) : EndsItems (middle :: tokens) := by
  intro token htoken
  obtain rfl : middle = token := by simpa using htoken
  exact Or.inl isElse

theorem not_endsItems_single {token : Token} (isSingle : token.kind.isSingle = true)
    (tokens : List Token) : ¬EndsItems (token :: tokens) := by
  intro h
  rcases h token rfl with hkind | hkind <;> rw [hkind] at isSingle <;> cases isSingle

theorem not_endsItems_opener {block : BlockKind} (tags : TagPair block)
    (tokens : List Token) : ¬EndsItems (tags.opener :: tokens) := by
  intro h
  rcases h tags.opener rfl with hkind | hkind <;> cases tags.opens.symm.trans hkind

namespace TagPair

variable {block block' : BlockKind}

theorem opener_not_single (tags : TagPair block) : tags.opener.kind.isSingle = false := by
  rw [tags.opens]
  rfl

theorem block_eq {tags : TagPair block} {tags' : TagPair block'}
    (h : tags.opener = tags'.opener) : block = block' := by
  have hkind := tags.opens.symm.trans ((congrArg Token.kind h).trans tags'.opens)
  exact (TokenKind.opening.inj hkind).1

theorem eq_of_tags {tags tags' : TagPair block} (hopener : tags.opener = tags'.opener)
    (hcloser : tags.closer = tags'.closer) : tags = tags' := by
  cases tags
  cases tags'
  cases hopener
  cases hcloser
  rfl

theorem closer_ne_else (tags : TagPair block) {middle : Token}
    (isElse : middle.kind = .otherwise) : tags.closer ≠ middle := by
  intro h
  cases tags.closes.symm.trans ((congrArg Token.kind h).trans isElse)

end TagPair

namespace Derivation

/-- Two derivations that read the same tokens up to a place where items end are
the same, and they end at the same place. -/
theorem eq_of_tokens_append (first second : Derivation) (after after' : List Token)
    (h : first.tokens ++ after = second.tokens ++ after') (hafter : EndsItems after)
    (hafter' : EndsItems after') : first = second ∧ after = after' := by
  induction first generalizing second after after' with
  | nil =>
      cases second with
      | nil => exact ⟨rfl, h⟩
      | single token isSingle rest =>
          obtain rfl : after = token :: (rest.tokens ++ after') := h
          exact absurd hafter (not_endsItems_single isSingle _)
      | block _ tags _ _ | branches _ tags _ _ _ _ _ | declaration tags _ _ =>
          obtain rfl : after = tags.opener :: _ := h
          exact absurd hafter (not_endsItems_opener tags _)
  | single token isSingle rest ih =>
      cases second with
      | nil =>
          obtain rfl : token :: (rest.tokens ++ after) = after' := h
          exact absurd hafter' (not_endsItems_single isSingle _)
      | single token' isSingle' rest' =>
          obtain ⟨rfl, htail⟩ := List.cons.inj h
          obtain ⟨rfl, hsame⟩ := ih rest' after after' htail hafter hafter'
          exact ⟨rfl, hsame⟩
      | block _ tags _ _ | branches _ tags _ _ _ _ _ | declaration tags _ _ =>
          exact absurd ((List.cons.inj h).1 ▸ isSingle) (by simp [tags.opener_not_single])
  | block kind tags body rest ihbody ih =>
      cases second with
      | nil =>
          obtain rfl : tags.opener :: _ = after' := h
          exact absurd hafter' (not_endsItems_opener tags _)
      | single token isSingle rest' =>
          exact absurd ((List.cons.inj h).1.symm ▸ isSingle) (by simp [tags.opener_not_single])
      | block kind' tags' body' rest' =>
          simp only [tokens, List.cons_append, List.append_assoc, List.cons.injEq] at h
          obtain ⟨hbody, hclosed⟩ := ihbody body' _ _ h.2 (endsItems_closer tags _)
            (endsItems_closer tags' _)
          obtain ⟨hcloser, htail⟩ := List.cons.inj hclosed
          obtain ⟨hrest, hsame⟩ := ih rest' after after' htail hafter hafter'
          cases TagPair.block_eq h.1
          cases TagPair.eq_of_tags h.1 hcloser
          rw [hbody, hrest]
          exact ⟨rfl, hsame⟩
      | branches kind' tags' body' middle isElse alternative rest' =>
          simp only [tokens, List.cons_append, List.append_assoc, List.cons.injEq] at h
          obtain ⟨-, hclosed⟩ := ihbody body' _ _ h.2 (endsItems_closer tags _)
            (endsItems_else isElse _)
          exact absurd (List.cons.inj hclosed).1 (tags.closer_ne_else isElse)
      | declaration tags' body' rest' =>
          cases TagPair.block_eq (List.cons.inj h).1
  | branches kind tags body middle isElse alternative rest ihbody ihalternative ih =>
      cases second with
      | nil =>
          obtain rfl : tags.opener :: _ = after' := h
          exact absurd hafter' (not_endsItems_opener tags _)
      | single token isSingle rest' =>
          exact absurd ((List.cons.inj h).1.symm ▸ isSingle) (by simp [tags.opener_not_single])
      | block kind' tags' body' rest' =>
          simp only [tokens, List.cons_append, List.append_assoc, List.cons.injEq] at h
          obtain ⟨-, hclosed⟩ := ihbody body' _ _ h.2 (endsItems_else isElse _)
            (endsItems_closer tags' _)
          exact absurd (List.cons.inj hclosed).1.symm (tags'.closer_ne_else isElse)
      | branches kind' tags' body' middle' isElse' alternative' rest' =>
          simp only [tokens, List.cons_append, List.append_assoc, List.cons.injEq] at h
          obtain ⟨hbody, hparted⟩ := ihbody body' _ _ h.2 (endsItems_else isElse _)
            (endsItems_else isElse' _)
          obtain ⟨rfl, hother⟩ := List.cons.inj hparted
          obtain ⟨halternative, hclosed⟩ := ihalternative alternative' _ _ hother
            (endsItems_closer tags _) (endsItems_closer tags' _)
          obtain ⟨hcloser, htail⟩ := List.cons.inj hclosed
          obtain ⟨hrest, hsame⟩ := ih rest' after after' htail hafter hafter'
          cases TagPair.block_eq h.1
          cases TagPair.eq_of_tags h.1 hcloser
          subst hbody halternative hrest
          exact ⟨rfl, hsame⟩
      | declaration tags' body' rest' =>
          cases TagPair.block_eq (List.cons.inj h).1
  | declaration tags body rest ihbody ih =>
      cases second with
      | nil =>
          obtain rfl : tags.opener :: _ = after' := h
          exact absurd hafter' (not_endsItems_opener tags _)
      | single token isSingle rest' =>
          exact absurd ((List.cons.inj h).1.symm ▸ isSingle) (by simp [tags.opener_not_single])
      | block _ tags' _ _ | branches _ tags' _ _ _ _ _ =>
          cases TagPair.block_eq (List.cons.inj h).1
      | declaration tags' body' rest' =>
          simp only [tokens, List.cons_append, List.append_assoc, List.cons.injEq] at h
          obtain ⟨hbody, hclosed⟩ := ihbody body' _ _ h.2 (endsItems_closer tags _)
            (endsItems_closer tags' _)
          obtain ⟨hcloser, htail⟩ := List.cons.inj hclosed
          obtain ⟨hrest, hsame⟩ := ih rest' after after' htail hafter hafter'
          cases TagPair.eq_of_tags h.1 hcloser
          rw [hbody, hrest]
          exact ⟨rfl, hsame⟩

theorem eq_of_tokens_eq {first second : Derivation} (h : first.tokens = second.tokens) :
    first = second := by
  have hend : EndsItems [] := by
    intro token htoken
    cases htoken
  exact (eq_of_tokens_append first second [] [] (congrArg (· ++ []) h) hend hend).1

end Derivation

end Stencil
