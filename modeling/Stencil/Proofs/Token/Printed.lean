import Mathlib.Data.List.Basic
import Stencil.Proofs.Path.Characters
import Stencil.Proofs.Token.Classes

/-!
The printed forms of tags, and what the scanner makes of each: the text inside
a tag ends where its delimiter starts, and the tag is classified by its sign and
its keyword as the one that was printed.
-/

namespace Stencil

open Text

/-- A text that can stand in a tag: not empty, trimmed and without pairs of
braces. -/
structure IsTagText (s : List Char) : Prop where
  nonempty : s ≠ []
  trimmed : trim s = s
  noOpening : ¬HasPair '\x7b' s
  noClosing : ¬HasPair '\x7d' s

/-- A tag text that starts like a path. -/
structure IsPathTag (s : List Char) : Prop extends IsTagText s where
  first : ∀ c ∈ s.head?, isPathChar c = true ∧ c ≠ '/'
  last : s.getLast? ≠ some '\x7d'

def padded (s : List Char) : List Char :=
  ' ' :: (s ++ [' '])

theorem trim_padded {s : List Char} (h : trim s = s) : trim (padded s) = s :=
  trim_append (edges_of_trim h).1 (edges_of_trim h).2 allBlank_space allBlank_space

/-- The name in the tags of a section; a plain one is named by its expression. -/
def SectionKind.tagName (kind : SectionKind) (s : List Char) : List Char :=
  match kind with
  | truthy | falsy => ['i', 'f']
  | each => ['e', 'a', 'c', 'h']
  | within => ['w', 'i', 't', 'h']
  | plain => s

/-- What opens a section on an expression. -/
def SectionKind.openerContent (kind : SectionKind) (s : List Char) : List Char :=
  match kind with
  | falsy => '^' :: (kind.tagName s ++ ' ' :: s)
  | plain => '#' :: padded s
  | truthy | each | within => '#' :: (kind.tagName s ++ ' ' :: s)

def SectionKind.closerContent (kind : SectionKind) (s : List Char) : List Char :=
  match kind with
  | plain => '/' :: padded s
  | truthy | falsy | each | within => '/' :: kind.tagName s

/-- What opens and closes the definition of a partial. -/
def declarationOpener (name : List Char) : List Char :=
  '#' :: 'd' :: 'e' :: 'c' :: 'l' :: 'a' :: 'r' :: 'e' :: padded name

def declarationCloser : List Char :=
  ['/', 'd', 'e', 'c', 'l', 'a', 'r', 'e']

namespace Piece

/-- A text has no pair of a character that it does not hold. -/
theorem not_hasPair_of_not_mem {c : Char} {s : List Char} (h : c ∉ s) : ¬HasPair c s := by
  intro hpair
  exact h (hpair.subset (List.mem_cons_self ..))

/-- Signs, keywords and spaces around a text do not make the tag end earlier. -/
theorem isContent_around (braced : Bool) (before after : List Char) {s : List Char}
    (hbefore : before ≠ [])
    (hopening : '\x7b' ∉ before ++ after) (hclosing : '\x7d' ∉ before ++ after)
    (hs : ¬HasPair '\x7b' s) (hs' : ¬HasPair '\x7d' s)
    (hlast : after = [] → s.getLast? ≠ some '\x7d') :
    IsContent braced (before ++ (s ++ after)) := by
  have hnone {c : Char} (hc : c ∉ before ++ after) (hpair : ¬HasPair c s) :
      ¬HasPair c (before ++ (s ++ after)) := by
    rw [List.mem_append, not_or] at hc
    rw [hasPair_append, hasPair_append]
    rintro (h | (h | h | ⟨-, h⟩) | ⟨h, -⟩)
    · exact not_hasPair_of_not_mem hc.1 h
    · exact hpair h
    · exact not_hasPair_of_not_mem hc.2 h
    · exact hc.2 (List.mem_of_mem_head? h)
    · exact hc.1 (List.mem_of_mem_getLast? h)
  refine ⟨hnone hopening hs, ⟨hnone hclosing hs', ?_⟩, ?_⟩
  · rw [List.mem_append, not_or] at hclosing
    intro h
    by_cases hafter : after = []
    · rw [hafter, List.append_nil] at h
      by_cases hsome : s = []
      · rw [hsome, List.append_nil] at h
        exact hclosing.1 (List.mem_of_mem_getLast? h)
      · rw [List.getLast?_append_of_ne_nil _ hsome] at h
        exact hlast hafter h
    · rw [← List.append_assoc, List.getLast?_append_of_ne_nil _ hafter] at h
      exact hclosing.2 (List.mem_of_mem_getLast? h)
  · intro _ h
    obtain ⟨c, t, rfl⟩ := List.exists_cons_of_ne_nil hbefore
    obtain rfl : c = '\x7b' := by simpa using h
    exact hopening (by simp)

end Piece

variable {s : List Char}

theorem isContent_padded (braced : Bool) (h : IsTagText s) :
    Piece.IsContent braced (padded s) :=
  Piece.isContent_around braced [' '] [' '] (by simp) (by decide) (by decide)
    h.noOpening h.noClosing (by simp)

theorem isContent_signed (sign : List Char) (hsign : '\x7b' ∉ sign) (hsign' : '\x7d' ∉ sign)
    (h : IsTagText s) : Piece.IsContent false (sign ++ padded s) := by
  have hcontent := Piece.isContent_around false (sign ++ [' ']) [' '] (by simp)
    (by simpa using hsign) (by simpa using hsign') h.noOpening
    h.noClosing (by simp)
  simpa [padded] using hcontent

theorem isContent_keyword (sign : List Char) (hsign : '\x7b' ∉ sign) (hsign' : '\x7d' ∉ sign)
    (h : IsPathTag s) : Piece.IsContent false (sign ++ ' ' :: s) := by
  have hcontent := Piece.isContent_around false (sign ++ [' ']) [] (by simp)
    (by simpa using hsign) (by simpa using hsign') h.noOpening
    h.noClosing (fun _ => h.last)
  simpa using hcontent

theorem isContent_word (word : List Char) (hword : '\x7b' ∉ word) (hword' : '\x7d' ∉ word) :
    Piece.IsContent false word := by
  refine ⟨Piece.not_hasPair_of_not_mem hword, ⟨Piece.not_hasPair_of_not_mem hword', ?_⟩, ?_⟩
  · intro h
    exact hword' (List.mem_of_mem_getLast? h)
  · intro _ h
    exact hword (List.mem_of_mem_head? h)

theorem isContent_opener (kind : SectionKind) (h : IsPathTag s) :
    Piece.IsContent false (kind.openerContent s) := by
  cases kind with
  | truthy => exact isContent_keyword ['#', 'i', 'f'] (by decide) (by decide) h
  | falsy => exact isContent_keyword ['^', 'i', 'f'] (by decide) (by decide) h
  | each =>
      exact isContent_keyword ['#', 'e', 'a', 'c', 'h'] (by decide) (by decide) h
  | within =>
      exact isContent_keyword ['#', 'w', 'i', 't', 'h'] (by decide) (by decide) h
  | plain => exact isContent_signed ['#'] (by decide) (by decide) h.toIsTagText

theorem isContent_closer (kind : SectionKind) (h : IsPathTag s) :
    Piece.IsContent false (kind.closerContent s) := by
  cases kind with
  | plain => exact isContent_signed ['/'] (by decide) (by decide) h.toIsTagText
  | truthy | falsy | each | within =>
      refine isContent_word _ ?_ ?_ <;> simp [SectionKind.closerContent, SectionKind.tagName]

theorem isContent_declaration (h : IsTagText s) :
    Piece.IsContent false (declarationOpener s) :=
  isContent_signed ['#', 'd', 'e', 'c', 'l', 'a', 'r', 'e'] (by decide) (by decide) h

namespace IsTagText

theorem first_not_blank (h : IsTagText s) : ∀ c ∈ s.head?, isBlank c = false :=
  (edges_of_trim h.trimmed).1

theorem last_not_blank (h : IsTagText s) : ∀ c ∈ s.getLast?, isBlank c = false :=
  (edges_of_trim h.trimmed).2

theorem trim_space (h : IsTagText s) : trim (' ' :: s) = s := by
  have htrim := trim_append h.first_not_blank h.last_not_blank allBlank_space allBlank_nil
  rwa [List.append_nil] at htrim

/-- A sign or a keyword in front keeps its text, without the space behind. -/
theorem trim_keyword (sign : List Char) (h : IsTagText s) (hsign : sign ≠ [])
    (hfirst : ∀ c ∈ sign.head?, isBlank c = false) :
    trim (sign ++ ' ' :: s) = sign ++ ' ' :: s := by
  apply trim_eq_self
  · obtain ⟨c, t, rfl⟩ := List.exists_cons_of_ne_nil hsign
    exact hfirst
  · rw [List.getLast?_append_of_ne_nil _ (by simp), List.getLast?_cons_of_ne_nil h.nonempty]
    exact h.last_not_blank

theorem trim_signed (sign : List Char) (h : IsTagText s) (hsign : sign ≠ [])
    (hfirst : ∀ c ∈ sign.head?, isBlank c = false) :
    trim (sign ++ padded s) = sign ++ ' ' :: s := by
  have hedges := edges_of_trim (h.trim_keyword sign hsign hfirst)
  have htrim := trim_append hedges.1 hedges.2 allBlank_nil allBlank_space
  simpa [padded] using htrim

end IsTagText

/-- A tag with a content other than white space has a class. -/
theorem class?_isSome {braced : Bool} {content : List Char} (h : ¬AllBlank content) :
    (Piece.tag braced content).class?.isSome = true := by
  have hsome : trim content ≠ [] := fun hnil => h (allBlank_of_trim hnil)
  obtain ⟨c, t, hcons⟩ := List.exists_cons_of_ne_nil hsome
  rw [Piece.class?, hcons]
  unfold Token.classify?
  grind

theorem not_allBlank_cons {c : Char} (hc : isBlank c = false) : ¬AllBlank (c :: s) := by
  intro h
  rw [h c (List.mem_cons_self ..)] at hc
  cases hc

theorem IsTagText.not_allBlank (h : IsTagText s) : ¬AllBlank (padded s) := by
  intro hblank
  obtain ⟨c, t, rfl⟩ := List.exists_cons_of_ne_nil h.nonempty
  have hc := h.first_not_blank c rfl
  rw [hblank c (by simp [padded])] at hc
  cases hc

theorem SectionKind.not_allBlank (kind : SectionKind) :
    ¬AllBlank (kind.openerContent s) ∧ ¬AllBlank (kind.closerContent s) := by
  cases kind <;> exact ⟨not_allBlank_cons rfl, not_allBlank_cons rfl⟩

namespace Token

theorem splitKeyword_space {word : List Char} (hword : ∀ c ∈ word, isBlank c = false) :
    splitKeyword (word ++ ' ' :: s) = (word, trim s) := by
  have hcut : cutAtFirst? isBlank (word ++ ' ' :: s) = some (word, s) := by
    induction word with
    | nil => rfl
    | cons c word ih =>
        have hmore := ih (fun d hd => hword d (List.mem_cons_of_mem _ hd))
        simp [cutAtFirst?, hword c (List.mem_cons_self ..), hmore]
  rw [splitKeyword, hcut]

theorem splitKeyword_word {word : List Char} (hword : ∀ c ∈ word, isBlank c = false) :
    splitKeyword word = (word, []) := by
  have hcut : cutAtFirst? isBlank word = none := by
    induction word with
    | nil => rfl
    | cons c word ih =>
        have hmore := ih (fun d hd => hword d (List.mem_cons_of_mem _ hd))
        simp [cutAtFirst?, hword c (List.mem_cons_self ..), hmore]
  rw [splitKeyword, hcut]

theorem classify?_opening (word : List Char) {block : BlockKind} (h : IsTagText s)
    (hsome : word ≠ []) (hword : ∀ c ∈ word, isBlank c = false)
    (hblock : blockOf? word = some block) :
    classify? false (trim ('#' :: (word ++ ' ' :: s))) =
      some (.opening block (String.ofList word), s) := by
  have hfirst : ∀ c ∈ word.head?, isBlank c = false :=
    fun c hc => hword c (List.mem_of_mem_head? hc)
  have hsigned : trim ('#' :: (word ++ ' ' :: s)) = '#' :: (word ++ ' ' :: s) :=
    h.trim_keyword ('#' :: word) (by simp) (by simp; rfl)
  rw [hsigned]
  simp only [classify?, Bool.false_eq_true, if_false, h.trim_keyword word hsome hfirst,
    classifyOpening, splitKeyword_space hword, hblock, h.trimmed]

theorem classify?_inverted (h : IsTagText s) :
    classify? false (trim ('^' :: 'i' :: 'f' :: ' ' :: s)) =
      some (.opening (.ofSection .falsy) (String.ofList ['i', 'f']), s) := by
  have hword : ∀ c ∈ ['i', 'f'], isBlank c = false := forall_of_any_eq_false rfl
  have hsigned : trim ('^' :: 'i' :: 'f' :: ' ' :: s) = '^' :: 'i' :: 'f' :: ' ' :: s :=
    h.trim_keyword ['^', 'i', 'f'] (by simp) (by simp; rfl)
  have hunsigned : trim ('i' :: 'f' :: ' ' :: s) = 'i' :: 'f' :: ' ' :: s :=
    h.trim_keyword ['i', 'f'] (by simp) (by simp; rfl)
  have hsplit : splitKeyword ('i' :: 'f' :: ' ' :: s) = (['i', 'f'], trim s) :=
    splitKeyword_space hword
  rw [hsigned]
  simp only [classify?, Bool.false_eq_true, if_false, hunsigned, classifyInverted, hsplit,
    if_true, h.trimmed]

/-- Without a keyword the tag opens a section named by its expression. -/
theorem classify?_plain (h : IsTagText s) (hblock : blockOf? (splitKeyword s).1 = none) :
    classify? false (trim ('#' :: padded s)) =
      some (.opening (.ofSection .plain) (String.ofList s), s) := by
  have hsigned : trim ('#' :: padded s) = '#' :: ' ' :: s :=
    h.trim_signed ['#'] (by simp) (by simp; rfl)
  rw [hsigned]
  simp only [classify?, Bool.false_eq_true, if_false, h.trim_space, classifyOpening, hblock]

theorem classify?_closing (h : IsTagText s) :
    classify? false (trim ('/' :: padded s)) = some (.closing, s) := by
  have hsigned : trim ('/' :: padded s) = '/' :: ' ' :: s :=
    h.trim_signed ['/'] (by simp) (by simp; rfl)
  rw [hsigned]
  simp only [classify?, Bool.false_eq_true, if_false, h.trim_space]

theorem classify?_reference (h : IsTagText s) :
    classify? false (trim ('>' :: padded s)) = some (.reference, s) := by
  have hsigned : trim ('>' :: padded s) = '>' :: ' ' :: s :=
    h.trim_signed ['>'] (by simp) (by simp; rfl)
  rw [hsigned]
  simp only [classify?, Bool.false_eq_true, if_false, h.trim_space]

theorem classify?_expression {escape : Bool} (h : IsPathTag s)
    (helse : escape = true → s ≠ ['e', 'l', 's', 'e']) :
    classify? (!escape) (trim (padded s)) = some (.expression escape, s) := by
  rw [trim_padded h.trimmed]
  cases escape with
  | false => rfl
  | true =>
      obtain ⟨c, t, rfl⟩ := List.exists_cons_of_ne_nil h.nonempty
      obtain ⟨hpath, hslash⟩ := h.first c rfl
      have hsign : c ≠ '!' ∧ c ≠ '#' ∧ c ≠ '^' ∧ c ≠ '>' ∧ c ≠ '&' := by
        refine ⟨?_, ?_, ?_, ?_, ?_⟩ <;> (rintro rfl; cases hpath)
      simp only [classify?, Bool.not_true, Bool.false_eq_true, if_false, helse rfl]
      grind

end Token

namespace SectionKind

/-- The opening tag of a section is classified as one, with its name. -/
theorem opener_class (kind : SectionKind) (h : IsPathTag s)
    (hplain : kind = .plain → Token.blockOf? (Token.splitKeyword s).1 = none) :
    (Piece.tag false (kind.openerContent s)).class? =
      some (.opening (.ofSection kind) (String.ofList (kind.tagName s)), s) := by
  cases kind with
  | truthy =>
      exact Token.classify?_opening ['i', 'f'] h.toIsTagText (by simp)
        (forall_of_any_eq_false rfl) rfl
  | falsy => exact Token.classify?_inverted h.toIsTagText
  | each =>
      exact Token.classify?_opening ['e', 'a', 'c', 'h'] h.toIsTagText (by simp)
        (forall_of_any_eq_false rfl) rfl
  | within =>
      exact Token.classify?_opening ['w', 'i', 't', 'h'] h.toIsTagText (by simp)
        (forall_of_any_eq_false rfl) rfl
  | plain => exact Token.classify?_plain h.toIsTagText (hplain rfl)

theorem closer_class (kind : SectionKind) (h : IsPathTag s) :
    (Piece.tag false (kind.closerContent s)).class? = some (.closing, kind.tagName s) := by
  cases kind with
  | plain => exact Token.classify?_closing h.toIsTagText
  | truthy | falsy | each | within => rfl

end SectionKind

theorem declarationOpener_class (h : IsTagText s) :
    (Piece.tag false (declarationOpener s)).class? =
      some (.opening .declaration "declare", s) := by
  have hsigned : trim (declarationOpener s) =
      trim ('#' :: (['d', 'e', 'c', 'l', 'a', 'r', 'e'] ++ ' ' :: s)) := by
    have hpadded := h.trim_signed ['#', 'd', 'e', 'c', 'l', 'a', 'r', 'e'] (by simp)
      (by simp; rfl)
    have hspaced := h.trim_keyword ['#', 'd', 'e', 'c', 'l', 'a', 'r', 'e'] (by simp)
      (by simp; rfl)
    exact hpadded.trans hspaced.symm
  rw [Piece.class?, hsigned, Token.classify?_opening _ h (by simp) (forall_of_any_eq_false rfl)
    rfl]

theorem declarationCloser_class :
    (Piece.tag false declarationCloser).class? =
      some (.closing, ['d', 'e', 'c', 'l', 'a', 'r', 'e']) := rfl

theorem else_class :
    (Piece.tag false ['e', 'l', 's', 'e']).class? = some (.otherwise, []) := rfl

end Stencil
