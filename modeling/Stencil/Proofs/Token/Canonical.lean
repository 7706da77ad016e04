import Stencil.Proofs.Token.Faultless
import Stencil.Proofs.Token.Printed

/-!
The canonical spelling of tokens. Every token of a source with which nothing is wrong
is spelled as one piece, with a space on either side of its value. Scanned again, the
pieces give tokens of the same classes with the same values.
-/

namespace Stencil

open Text

/-- The keyword of a block, if it has one. -/
def BlockKind.keyword : BlockKind → List Char
  | ofSection .truthy | ofSection .falsy => ['i', 'f']
  | ofSection .each => ['e', 'a', 'c', 'h']
  | ofSection .within => ['w', 'i', 't', 'h']
  | ofSection .plain => []
  | declaration => ['d', 'e', 'c', 'l', 'a', 'r', 'e']

/-- What stands before the value in the canonical tag of a block. An inverted section has
its keyword only if it is named by it. -/
def BlockKind.sign (name : String) : BlockKind → List Char
  | ofSection .falsy => '^' :: if name = "if" then ['i', 'f'] else []
  | block => '#' :: block.keyword

namespace TokenKind

def sign : TokenKind → List Char
  | comment => ['!']
  | opening block name => block.sign name
  | closing => ['/']
  | reference => ['>']
  | text | expression _ | otherwise | custom _ => []

/-- The piece that a token with this value is spelled as. -/
def canonical (value : List Char) : TokenKind → Piece
  | text => .text value
  | otherwise => .tag false ['e', 'l', 's', 'e']
  | kind => .tag (kind = expression false) (kind.sign ++ padded value)

/-- What the value of a tag of a class is like, and the name if there is one. -/
def Holds (value : List Char) : TokenKind → Prop
  | text | custom _ => False
  | comment | closing | reference | expression false => True
  | expression true =>
      value ≠ ['e', 'l', 's', 'e'] ∧ value ≠ [] ∧
        ∀ c ∈ value.head?, c ∉ ['!', '#', '^', '/', '>', '&']
  | otherwise => value = []
  | opening (.ofSection .plain) name =>
      name = String.ofList value ∧ Token.blockOf? (Token.splitKeyword value).1 = none
  | opening (.ofSection .falsy) name =>
      name = "if" ∨ name = String.ofList value ∧ (Token.splitKeyword value).1 ≠ ['i', 'f']
  | opening block name => name = String.ofList block.keyword

end TokenKind

namespace Token

variable {value s : List Char}

/-- A keyword in front of a value is separated from it. -/
theorem splitKeyword_padded (word : List Char) (hsome : word ≠ [])
    (hword : ∀ c ∈ word, isBlank c = false) (h : trim value = value) :
    splitKeyword (trim (word ++ padded value)) = (word, value) := by
  have hfirst {t : List Char} : ∀ c ∈ (word ++ t).head?, isBlank c = false := by
    obtain ⟨d, rest, rfl⟩ := List.exists_cons_of_ne_nil hsome
    simpa using hword d (List.mem_cons_self ..)
  by_cases hvalue : value = []
  · have htrim : trim (word ++ padded value) = word := by
      refine trim_append_blanks (by simpa using hfirst (t := []))
        (fun c hc => hword c (List.mem_of_mem_getLast? hc)) ?_
      rw [hvalue]
      exact allBlank_space.append allBlank_space
    rw [htrim, splitKeyword_word hword, hvalue]
  · have htrim : trim (word ++ padded value) = word ++ ' ' :: value := by
      have hsame := trim_append_blanks (s := word ++ ' ' :: value) hfirst
        (by
          rw [List.getLast?_append_of_ne_nil _ (by simp), List.getLast?_cons_of_ne_nil hvalue]
          exact (edges_of_trim h).2) allBlank_space
      simpa [padded] using hsame
    rw [htrim, splitKeyword_space hword, h]

theorem class?_keyword {block : BlockKind} (hblock : blockOf? block.keyword = some block)
    (hword : ∀ c ∈ block.keyword, isBlank c = false) (h : trim value = value) :
    (Piece.tag false ('#' :: (block.keyword ++ padded value))).class? =
      some (.opening block (String.ofList block.keyword), value) := by
  have hsome : block.keyword ≠ [] := by
    intro hnone
    rw [hnone] at hblock
    cases hblock
  obtain ⟨rest, htrim, hrest⟩ := trim_cons (c := '#') rfl (block.keyword ++ padded value)
  simp [Piece.class?, classify?, htrim, hrest, classifyOpening,
    splitKeyword_padded _ hsome hword h, hblock]

theorem class?_inverted_if (h : trim value = value) :
    (Piece.tag false ('^' :: 'i' :: 'f' :: padded value)).class? =
      some (.opening (.ofSection .falsy) "if", value) := by
  obtain ⟨rest, htrim, hrest⟩ := trim_cons (c := '^') rfl ('i' :: 'f' :: padded value)
  have hsplit : splitKeyword (trim ('i' :: 'f' :: padded value)) = (['i', 'f'], value) :=
    splitKeyword_padded ['i', 'f'] (by simp) (forall_of_any_eq_false rfl) h
  simp [Piece.class?, classify?, htrim, hrest, classifyInverted, hsplit]

open TokenKind in
/-- The canonical tag of a class and a value is read as a tag of this class with this
value. -/
theorem class?_canonical {kind : TokenKind} (h : kind.Holds value)
    (htrim : trim value = value) : (kind.canonical value).class? = some (kind, value) := by
  have hpadded := trim_padded htrim
  -- behind a sign the value is trimmed again
  have hsigned (sign : Char) (hsign : isBlank sign = false) :
      ∃ rest, trim (sign :: padded value) = sign :: rest ∧ trim rest = value := by
    obtain ⟨rest, hcons, hrest⟩ := trim_cons hsign (padded value)
    exact ⟨rest, hcons, hrest.trans hpadded⟩
  cases kind with
  | text | custom => exact h.elim
  | comment =>
      obtain ⟨rest, hcons, hrest⟩ := hsigned '!' rfl
      simp [canonical, sign, Piece.class?, classify?, hcons, hrest]
  | closing =>
      obtain ⟨rest, hcons, hrest⟩ := hsigned '/' rfl
      simp [canonical, sign, Piece.class?, classify?, hcons, hrest]
  | reference =>
      obtain ⟨rest, hcons, hrest⟩ := hsigned '>' rfl
      simp [canonical, sign, Piece.class?, classify?, hcons, hrest]
  | expression escape =>
      cases escape with
      | false => simp [canonical, sign, Piece.class?, classify?, hpadded]
      | true =>
          obtain ⟨helse, hsome, hfirst⟩ := h
          obtain ⟨c, t, rfl⟩ := List.exists_cons_of_ne_nil hsome
          have hc := hfirst c rfl
          simp only [List.mem_cons, List.not_mem_nil, or_false, not_or] at hc
          simp only [canonical, sign, Piece.class?, List.nil_append, hpadded]
          unfold classify?
          grind
  | otherwise =>
      obtain rfl : value = [] := h
      rfl
  | opening block name =>
      cases block with
      | declaration =>
          obtain rfl : name = _ := h
          exact class?_keyword rfl (forall_of_any_eq_false rfl) htrim
      | ofSection kind =>
          cases kind with
          | truthy | each | within =>
              obtain rfl : name = _ := h
              exact class?_keyword rfl (forall_of_any_eq_false rfl) htrim
          | plain =>
              obtain ⟨hname, hblock⟩ := h
              obtain ⟨rest, hcons, hrest⟩ := hsigned '#' rfl
              simp [canonical, sign, BlockKind.sign, BlockKind.keyword, Piece.class?,
                classify?, hcons, hrest, classifyOpening, hblock, hname]
          | falsy =>
              by_cases hif : name = "if"
              · subst hif
                exact class?_inverted_if htrim
              · obtain ⟨hname, hsplit⟩ := h.resolve_left hif
                obtain ⟨rest, hcons, hrest⟩ := hsigned '^' rfl
                simp only [canonical, sign, BlockKind.sign, if_neg hif]
                simp [Piece.class?, classify?, hcons, hrest, classifyInverted, hsplit,
                  hname]

theorem suffix_of_cutAtFirst? {isCut : Char → Bool} {before after : List Char}
    (h : cutAtFirst? isCut s = some (before, after)) : after <:+ s := by
  induction s generalizing before with
  | nil => cases h
  | cons c s ih =>
      rw [cutAtFirst?] at h
      split at h
      · cases h
        exact List.suffix_cons c after
      · obtain ⟨⟨front, rest⟩, hcut, hparts⟩ := Option.map_eq_some_iff.mp h
        obtain ⟨-, rfl⟩ := Prod.mk.inj hparts
        exact (ih hcut).trans (List.suffix_cons c s)

/-- What follows a keyword is a trimmed part of the text. -/
theorem splitKeyword_snd (s : List Char) :
    trim (splitKeyword s).2 = (splitKeyword s).2 ∧ (splitKeyword s).2 <:+: s := by
  unfold splitKeyword
  split
  · rename_i keyword argument hcut
    exact ⟨trim_trim argument, (isInfix_trim argument).trans (suffix_of_cutAtFirst? hcut).isInfix⟩
  · exact ⟨rfl, List.nil_infix⟩

/-- A keyword that was found is that of its block. -/
theorem holds_of_blockOf? {word : List Char} {block : BlockKind}
    (h : blockOf? word = some block) (value : List Char) :
    (TokenKind.opening block (String.ofList word)).Holds value := by
  unfold blockOf? at h
  split_ifs at h with hword hword hword hword <;> cases h <;> exact congrArg String.ofList hword

theorem classifyOpening_holds (htrim : trim s = s) :
    (classifyOpening s).1.Holds (classifyOpening s).2 ∧
      trim (classifyOpening s).2 = (classifyOpening s).2 ∧ (classifyOpening s).2 <:+: s := by
  have hargument := splitKeyword_snd s
  unfold classifyOpening
  split
  rename_i keyword argument hsplit
  rw [hsplit] at hargument
  split
  · rename_i block hblock
    exact ⟨holds_of_blockOf? hblock argument, hargument⟩
  · rename_i hblock
    exact ⟨⟨rfl, by rw [hsplit]; exact hblock⟩, htrim, List.infix_refl _⟩

theorem classifyInverted_holds (htrim : trim s = s) :
    (classifyInverted s).1.Holds (classifyInverted s).2 ∧
      trim (classifyInverted s).2 = (classifyInverted s).2 ∧ (classifyInverted s).2 <:+: s := by
  have hargument := splitKeyword_snd s
  unfold classifyInverted
  split
  rename_i keyword argument hsplit
  rw [hsplit] at hargument
  split
  · rename_i hif
    subst hif
    exact ⟨Or.inl rfl, hargument⟩
  · rename_i hif
    exact ⟨Or.inr ⟨rfl, by rw [hsplit]; exact hif⟩, htrim, List.infix_refl _⟩

theorem holds_of_classify? {braced : Bool} {content : List Char} {kind : TokenKind}
    (h : classify? braced content = some (kind, value)) (htrim : trim content = content) :
    kind.Holds value ∧ trim value = value ∧ value <:+: content := by
  unfold classify? at h
  split at h
  · cases h
    exact ⟨trivial, htrim, List.infix_refl _⟩
  · split at h
    · cases h
    · rename_i sign s
      have hrest : trim (trim s) = trim s ∧ trim s <:+: sign :: s :=
        ⟨trim_trim s, (isInfix_trim s).trans (List.suffix_cons sign s).isInfix⟩
      have hpart {t : List Char} (ht : t <:+: trim s) : t <:+: sign :: s := ht.trans hrest.2
      simp only at h
      split at h
      · cases h
        exact ⟨trivial, hrest⟩
      · obtain ⟨hholds, hvalue, hinfix⟩ := classifyOpening_holds (trim_trim s)
        rw [Option.some.inj h] at hholds hvalue hinfix
        exact ⟨hholds, hvalue, hpart hinfix⟩
      · obtain ⟨hholds, hvalue, hinfix⟩ := classifyInverted_holds (trim_trim s)
        rw [Option.some.inj h] at hholds hvalue hinfix
        exact ⟨hholds, hvalue, hpart hinfix⟩
      · cases h
        exact ⟨trivial, hrest⟩
      · cases h
        exact ⟨trivial, hrest⟩
      · cases h
        exact ⟨trivial, hrest⟩
      · split at h
        · cases h
          exact ⟨rfl, rfl, List.nil_infix⟩
        · rename_i hcomment hopening hinverted hclosing hreference hraw helse
          cases h
          refine ⟨⟨helse, by simp, ?_⟩, htrim, List.infix_refl _⟩
          rintro c ⟨⟩
          simpa using ⟨hcomment, hopening, hinverted, hclosing, hreference, hraw⟩

/-- Only a tag with braces of its own or with a sign for it is not escaped. -/
theorem kind_of_braced {content : List Char} {kind : TokenKind}
    (h : classify? true content = some (kind, value)) : kind = .expression false := by
  cases h
  rfl

/-- The piece that a token is spelled as. -/
def canonical (token : Token) : Piece :=
  token.kind.canonical token.value.toList

/-- The canonical spelling of tokens, put together. -/
def canonicalText (tokens : List Token) : String :=
  String.ofList ((tokens.map canonical).flatMap (Piece.source .braces))

end Token

namespace Piece

/-- A mark without spaces begins in no padded value in which it is nowhere. -/
theorem noneBegins_padded {c : Char} {mark before value : List Char} (hbefore : c ∉ before)
    (hspace : ' ' ∉ c :: mark) (hno : ¬(c :: mark) <:+: value) (after : List Char) :
    NoneBegins (c :: mark) (before ++ padded value) after := by
  have hc : c ∉ [' '] := by
    rintro hc
    rw [List.mem_singleton.mp hc] at hspace
    simp at hspace
  have hpadded : padded value = [' '] ++ (value ++ [' ']) := rfl
  rw [hpadded, noneBegins_append, noneBegins_append, noneBegins_append]
  refine ⟨noneBegins_of_not_mem hbefore _ _, noneBegins_of_not_mem hc _ _,
    noneBegins_of_not_isInfix hno ?_, noneBegins_of_not_mem hc _ _⟩
  rintro d ⟨⟩
  exact hspace

theorem isClosed_padded {braced : Bool} {before value : List Char} (hopening : '\x7b' ∉ before)
    (hclosing : '\x7d' ∉ before) (hno : ¬Delimiters.braces.opening <:+: value)
    (hno' : ¬closer .braces braced <:+: value) : IsClosed braced (before ++ padded value) := by
  refine ⟨noneBegins_padded hopening (by decide) hno _, ?_, ?_⟩
  · cases braced with
    | true => exact noneBegins_padded hclosing (by decide) hno' _
    | false => exact noneBegins_padded hclosing (by decide) hno' _
  · intro _ h
    cases before with
    | nil => cases h
    | cons c rest =>
        cases h
        exact hopening (List.mem_cons_self ..)

end Piece

theorem BlockKind.not_mem_sign (name : String) (block : BlockKind) :
    '\x7b' ∉ block.sign name ∧ '\x7d' ∉ block.sign name := by
  cases block with
  | declaration => simp [sign, keyword]
  | ofSection kind =>
      cases kind with
      | truthy | each | within | plain => simp [sign, keyword]
      | falsy => by_cases hif : name = "if" <;> simp [sign, hif]

theorem TokenKind.not_mem_sign (kind : TokenKind) : '\x7b' ∉ kind.sign ∧ '\x7d' ∉ kind.sign := by
  cases kind with
  | opening block name => exact block.not_mem_sign name
  | text | comment | expression | closing | otherwise | reference | custom =>
      exact ⟨by simp [sign], by simp [sign]⟩

/-- The value of a closed tag can stand in the canonical one, which is closed, too. -/
theorem Piece.IsClosed.canonical {braced : Bool} {content value : List Char} {kind : TokenKind}
    (h : IsClosed braced content)
    (hclass : (Piece.tag braced content).class? = some (kind, value)) :
    ∃ braced' content', kind.canonical value = .tag braced' content' ∧
      IsClosed braced' content' := by
  obtain ⟨hholds, -, hinfix⟩ := Token.holds_of_classify? hclass (trim_trim content)
  have hpart : value <:+: content := hinfix.trans (isInfix_trim content)
  have hno : ¬Delimiters.braces.opening <:+: value := fun hmark =>
    h.noOpening.not_isInfix (by simp [Delimiters.braces]) (hmark.trans hpart)
  have hno' : ¬closer .braces (kind = .expression false) <:+: value := by
    intro hmark
    refine h.noClosing.not_isInfix (by simp [closer, Delimiters.braces]) (.trans ?_ hpart)
    cases braced with
    | true => rwa [decide_eq_true (Token.kind_of_braced hclass)] at hmark
    | false =>
        refine .trans ?_ hmark
        cases decide (kind = .expression false) with
        | true => exact ⟨['\x7d'], [], rfl⟩
        | false => exact List.infix_refl _
  have hpadded := isClosed_padded kind.not_mem_sign.1 kind.not_mem_sign.2 hno hno'
  cases kind with
  | text | custom => exact hholds.elim
  | otherwise =>
      exact ⟨_, _, rfl, (isContent_word ['e', 'l', 's', 'e'] (by decide) (by decide)).isClosed⟩
  | comment | expression | opening | closing | reference => exact ⟨_, _, rfl, hpadded⟩

namespace Token

variable {token : Token} {tokens : List Token} {piece : Piece} {pieces : List Piece}

/-- A token of any piece is one of its canonical piece. -/
theorem Tells.canonical (h : token.Tells piece) : token.Tells token.canonical := by
  cases piece with
  | text source =>
      obtain ⟨hkind, hvalue⟩ := Prod.mk.inj (Option.some.inj h)
      rw [Tells, Token.canonical, ← hkind]
      rfl
  | unclosed braced rest => cases h
  | tag braced content =>
      obtain ⟨hholds, htrim, -⟩ := holds_of_classify? h (trim_trim content)
      exact class?_canonical hholds htrim

theorem Tells.canonical_text {source : List Char} (h : token.Tells (.text source)) :
    token.canonical = .text source := by
  obtain ⟨hkind, hvalue⟩ := Prod.mk.inj (Option.some.inj h)
  rw [Token.canonical, ← hkind, ← hvalue]
  rfl

/-- The canonical pieces of texts and closed tags are such again. -/
theorem tagged_canonical (h : Tagged pieces) (htells : List.Forall₂ Tells tokens pieces) :
    Tagged (tokens.map canonical) := by
  induction h generalizing tokens with
  | nil =>
      cases htells
      exact .nil
  | last hsome hnone =>
      cases htells with
      | cons htext hrest =>
          cases hrest
          rw [List.map_singleton, htext.canonical_text]
          exact .last hsome hnone
  | tag hclosed rest ih =>
      cases htells with
      | cons htag hrest =>
          obtain ⟨braced, content, htoken, hclosed'⟩ := hclosed.canonical htag
          rw [List.map_cons, canonical, htoken]
          exact .tag hclosed' (ih hrest)
  | textTag hsome hnone hclosed rest ih =>
      cases htells with
      | cons htext hmore =>
          cases hmore with
          | cons htag hrest =>
              obtain ⟨braced, content, htoken, hclosed'⟩ := hclosed.canonical htag
              rw [List.map_cons, List.map_cons, htext.canonical_text, canonical, htoken]
              exact .textTag hsome hnone hclosed' (ih hrest)

/-- The class and the value of a token. -/
def told (token : Token) : TokenKind × String :=
  (token.kind, token.value)

theorem map_told_eq {tokens' : List Token} (h : List.Forall₂ Tells tokens pieces)
    (h' : List.Forall₂ Tells tokens' pieces) : tokens.map told = tokens'.map told := by
  induction h generalizing tokens' with
  | nil =>
      cases h'
      rfl
  | cons hfirst hrest ih =>
      cases h' with
      | cons hfirst' hrest' =>
          obtain ⟨hkind, hvalue⟩ := Prod.mk.inj (Option.some.inj (hfirst.symm.trans hfirst'))
          rw [List.map_cons, List.map_cons, ih hrest', told, told, hkind,
            String.toList_inj.mp hvalue]

/-- The canonical spelling depends on the classes and the values only. -/
theorem canonicalText_congr {tokens' : List Token} (h : tokens.map told = tokens'.map told) :
    canonicalText tokens = canonicalText tokens' := by
  have hpiece : canonical = (fun told => told.1.canonical told.2.toList) ∘ told := rfl
  rw [canonicalText, canonicalText, hpiece, ← List.map_map, h, List.map_map]

theorem tells_map_canonical (h : List.Forall₂ Tells tokens pieces) :
    List.Forall₂ Tells tokens (tokens.map canonical) := by
  induction h with
  | nil => exact .nil
  | cons hfirst hrest ih => exact .cons hfirst.canonical ih

theorem class?_of_tells (h : List.Forall₂ Tells tokens pieces) :
    ∀ piece ∈ pieces, piece.class?.isSome = true := by
  induction h with
  | nil => exact List.forall_mem_nil _
  | cons hfirst hrest ih => exact List.forall_mem_cons.mpr ⟨by rw [hfirst]; rfl, ih⟩

/-- What is spelled canonically is scanned without errors, as tokens of the same classes
with the same values. -/
theorem scanWith_canonicalText {source : String} (h : (scanWith .braces [] source).2 = []) :
    ∃ tokens, scanWith .braces [] (canonicalText (scanWith .braces [] source).1) = (tokens, []) ∧
      tokens.map told = (scanWith .braces [] source).1.map told := by
  obtain ⟨htagged, htells⟩ := tagged_of_faultless h
  have hcanonical := tells_map_canonical htells
  obtain ⟨tokens, hscan, htells'⟩ :=
    scanWith_tagged (tagged_canonical htagged htells) (class?_of_tells hcanonical)
  exact ⟨tokens, hscan, map_told_eq htells' hcanonical⟩

end Token

end Stencil
