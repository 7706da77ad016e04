import Stencil.Document.Parser
import Stencil.Proofs.Expression.Printing
import Stencil.Proofs.Token.Printed

/-!
Printing documents. A document is printed as a sequence of pieces, a text or a
tag each, whose sources make up the template. Parsing the template gives the
document back, its places apart, unless the document holds an expression that
is spelled like a tag of its own: `else` alone, or a plain section on a path
that is the keyword of another section.
-/

namespace Stencil

open Text

namespace Item

/-- The text of an expression in a tag. -/
abbrev tagText (expression : Expression) : List Char :=
  expression.source .plain

mutual

/-- The pieces that an item is printed as. -/
def pieces : Item → List Piece
  | literal text => [.text text.toList]
  | output expression escape _ => [.tag (!escape) (padded (tagText expression))]
  | block kind expression body otherwise _ =>
      let branch := if otherwise.isEmpty then []
        else .tag false ['e', 'l', 's', 'e'] :: allPieces otherwise
      .tag false (kind.openerContent (tagText expression)) ::
        (allPieces body ++ (branch ++ [.tag false (kind.closerContent (tagText expression))]))
  | reference name _ => [.tag false ('>' :: padded name.toList)]
  | declaration name body _ =>
      .tag false (declarationOpener name.toList) ::
        (allPieces body ++ [.tag false declarationCloser])
  | custom .. => []

def allPieces : List Item → List Piece
  | [] => []
  | item :: items => item.pieces ++ allPieces items

end

/-- The template that a forest is printed as. -/
def template (items : List Item) : String :=
  String.ofList ((allPieces items).flatMap (Piece.source .braces))

mutual

def unplaced : Item → Item
  | literal text => literal text
  | output expression escape _ => output (expression.placed ⟨0, 0, 0, 0⟩) escape ⟨0, 0, 0, 0⟩
  | block kind expression body otherwise _ =>
      block kind (expression.placed ⟨0, 0, 0, 0⟩) (allUnplaced body) (allUnplaced otherwise)
        ⟨0, 0, 0, 0⟩
  | reference name _ => reference name ⟨0, 0, 0, 0⟩
  | declaration name body _ => declaration name (allUnplaced body) ⟨0, 0, 0, 0⟩
  | custom tag children =>
      custom { tag with
        expression := tag.expression.map (·.placed ⟨0, 0, 0, 0⟩), span := ⟨0, 0, 0, 0⟩ }
        (allUnplaced children)

def allUnplaced : List Item → List Item
  | [] => []
  | item :: items => item.unplaced :: allUnplaced items

end

def isLiteral : Item → Bool
  | literal _ => true
  | _ => false

/-- The item is printed as a tag that means something else. -/
def ReadsAsKeyword : Item → Prop
  | output expression escape _ =>
      escape = true ∧ expression.path.text = "else" ∧ expression.calls = []
  | block kind expression _ _ _ =>
      kind = .plain ∧ expression.path.text ∈ ["each", "with", "if", "declare"]
  | _ => False

end Item

/-- An expression that can be written in a tag. -/
structure Expression.FitsTag (expression : Expression) : Prop where
  printable : expression.IsPrintable .plain
  noOpening : ¬HasPair '\x7b' (Item.tagText expression)
  noClosing : ¬HasPair '\x7d' (Item.tagText expression)

/-- The items can be printed, within tags or not. A literal is neither followed
by another nor runs into the tag behind it. -/
inductive ArePrintable : Bool → List Item → Prop where
  | nil (enclosed : Bool) : ArePrintable enclosed []
  | literal {enclosed : Bool} {text : String} {rest : List Item} (hsome : text ≠ "")
      (hpair : ¬HasPair '\x7b' text.toList) (hapart : ∀ item ∈ rest.head?, item.isLiteral = false)
      (hlast : rest ≠ [] ∨ enclosed = true → text.toList.getLast? ≠ some '\x7b')
      (more : ArePrintable enclosed rest) : ArePrintable enclosed (.literal text :: rest)
  | output {enclosed : Bool} {expression : Expression} {rest : List Item} (escape : Bool)
      (span : Span) (hfits : expression.FitsTag) (more : ArePrintable enclosed rest) :
      ArePrintable enclosed (.output expression escape span :: rest)
  | block {enclosed : Bool} {expression : Expression} {body otherwise rest : List Item}
      (kind : SectionKind) (span : Span) (hfits : expression.FitsTag)
      (inner : ArePrintable true body) (other : ArePrintable true otherwise)
      (more : ArePrintable enclosed rest) :
      ArePrintable enclosed (.block kind expression body otherwise span :: rest)
  | reference {enclosed : Bool} {name : String} {rest : List Item} (span : Span)
      (hname : IsTagText name.toList) (more : ArePrintable enclosed rest) :
      ArePrintable enclosed (.reference name span :: rest)
  | declaration {enclosed : Bool} {name : String} {body rest : List Item} (span : Span)
      (hname : IsTagText name.toList) (inner : ArePrintable true body)
      (more : ArePrintable enclosed rest) :
      ArePrintable enclosed (.declaration name body span :: rest)

namespace Expression.FitsTag

variable {expression : Expression}

/-- The text of an expression starts like a path and ends in a name or a
parenthesis, so that it stands in any tag. -/
theorem isPathTag (h : expression.FitsTag) : IsPathTag (Item.tagText expression) := by
  have hchain := chainText_source .plain ⟨0, 0, 0, 0⟩ expression h.printable
  have hlast := hchain.last
  have hfirst : ∀ c ∈ (Item.tagText expression).head?, isPathChar c = true ∧ c ≠ '/' := by
    obtain ⟨path, calls, span⟩ := expression
    obtain ⟨-, htext⟩ := Path.isPathText_of_parse h.printable.1
    intro c hc
    have hhead : c ∈ path.text.toList.head? := by
      obtain ⟨d, t, hpath⟩ := List.exists_cons_of_ne_nil htext.nonempty
      rw [Item.tagText, source, hpath] at hc
      rw [hpath]
      exact hc
    exact ⟨htext.chars c (List.mem_of_mem_head? hhead), htext.first c hhead⟩
  refine ⟨⟨?_, ?_, h.noOpening, h.noClosing⟩, hfirst, ?_⟩
  · obtain ⟨c, t, hcons, -⟩ := hchain.head
    rw [Item.tagText, hcons]
    simp
  · refine trim_eq_self ?_ ?_
    · intro c hc
      exact not_isBlank_of_isPathChar (hfirst c hc).1
    · intro c hc
      rcases hlast c hc with hpath | rfl
      · exact not_isBlank_of_isPathChar hpath
      · rfl
  · intro hbrace
    rcases hlast _ hbrace with hpath | hparen
    · cases hpath
    · cases hparen

theorem splitKeyword_tagText (h : expression.FitsTag) :
    (Token.splitKeyword (Item.tagText expression)).1 = expression.path.text.toList := by
  obtain ⟨path, calls, span⟩ := expression
  obtain ⟨-, htext⟩ := Path.isPathText_of_parse h.printable.1
  have hword : ∀ c ∈ path.text.toList, isBlank c = false :=
    fun c hc => not_isBlank_of_isPathChar (htext.chars c hc)
  rw [Item.tagText, source]
  cases calls with
  | nil => rw [callsSource, List.append_nil, Token.splitKeyword_word hword]
  | cons call calls =>
      obtain ⟨name, arguments⟩ := call
      rw [callsSource, Token.splitKeyword_space hword]

/-- An expression that is spelled `else` is that path alone. -/
theorem eq_else (h : expression.FitsTag)
    (helse : Item.tagText expression = ['e', 'l', 's', 'e']) :
    expression.path.text = "else" ∧ expression.calls = [] := by
  have hword := h.splitKeyword_tagText
  have hsplit : (Token.splitKeyword ['e', 'l', 's', 'e']).1 = ['e', 'l', 's', 'e'] := by decide
  rw [helse, hsplit] at hword
  refine ⟨by rw [← String.toList_inj, ← hword]; rfl, ?_⟩
  obtain ⟨path, calls, span⟩ := expression
  cases calls with
  | nil => rfl
  | cons call calls =>
      obtain ⟨name, arguments⟩ := call
      rw [Item.tagText, source, ← hword, callsSource] at helse
      simp at helse

end Expression.FitsTag

def StartsWithTag (pieces : List Piece) : Prop :=
  ∃ braced content rest, pieces = .tag braced content :: rest

/-- A text that does not run into the tag behind it can be cut off. -/
theorem WellCut.consText {text : List Char} {pieces : List Piece} (hsome : text ≠ [])
    (hpair : ¬HasPair '\x7b' text) (h : WellCut pieces)
    (hnext : pieces = [] ∨ StartsWithTag pieces ∧ text.getLast? ≠ some '\x7b') :
    WellCut (.text text :: pieces) := by
  rcases hnext with rfl | ⟨⟨braced, content, rest, rfl⟩, hlast⟩
  · exact .last hsome hpair
  · cases h with
    | tag hcontent hrest => exact .textTag ⟨hsome, hpair, hlast⟩ hcontent hrest

namespace ArePrintable

variable {enclosed : Bool} {items : List Item}

theorem startsWithTag (h : ArePrintable enclosed items) (hsome : items ≠ [])
    (hfirst : ∀ item ∈ items.head?, item.isLiteral = false) :
    StartsWithTag (Item.allPieces items) := by
  cases h with
  | nil => exact absurd rfl hsome
  | literal => cases hfirst _ rfl
  | output | block | reference | declaration => exact ⟨_, _, _, rfl⟩

/-- The pieces of printable items are well cut in front of a tag if they are
enclosed, and in front of the end otherwise. -/
theorem wellCut (h : ArePrintable enclosed items) {rest : List Piece} (hrest : WellCut rest)
    (hnext : enclosed = true ∧ StartsWithTag rest ∨ enclosed = false ∧ rest = []) :
    WellCut (Item.allPieces items ++ rest) := by
  induction h generalizing rest with
  | nil => exact hrest
  | literal hsome hpair hapart hlast more ih =>
      rename_i enclosed text items
      have hchars : text.toList ≠ [] := by
        intro hnil
        exact hsome (by rw [← String.toList_inj, hnil]; rfl)
      refine (ih hrest hnext).consText hchars hpair ?_
      by_cases hitems : items = []
      · subst hitems
        change rest = [] ∨ StartsWithTag rest ∧ _
        rcases hnext with ⟨hinside, htag⟩ | ⟨-, hend⟩
        · exact Or.inr ⟨htag, hlast (Or.inr hinside)⟩
        · exact Or.inl hend
      · obtain ⟨braced, content, pieces, hpieces⟩ := more.startsWithTag hitems hapart
        right
        refine ⟨⟨braced, content, pieces ++ rest, by rw [hpieces]; rfl⟩, ?_⟩
        exact hlast (Or.inl hitems)
  | output escape span hfits more ih =>
      exact .tag (isContent_padded _ hfits.isPathTag.toIsTagText) (ih hrest hnext)
  | block kind span hfits inner other more ihinner ihother ih =>
      rename_i enclosed expression body otherwise items
      have hclosed : WellCut (.tag false (kind.closerContent (Item.tagText expression)) ::
          (Item.allPieces items ++ rest)) :=
        .tag (isContent_closer kind hfits.isPathTag) (ih hrest hnext)
      have hopener := isContent_opener kind hfits.isPathTag
      by_cases hother : otherwise = []
      · have hopened := WellCut.tag hopener (ihinner hclosed (Or.inl ⟨rfl, _, _, _, rfl⟩))
        simpa [Item.allPieces, Item.pieces, hother] using hopened
      · have hbranch := WellCut.tag
          (isContent_word ['e', 'l', 's', 'e'] (by decide) (by decide))
          (ihother hclosed (Or.inl ⟨rfl, _, _, _, rfl⟩))
        have hopened := WellCut.tag hopener (ihinner hbranch (Or.inl ⟨rfl, _, _, _, rfl⟩))
        simpa [Item.allPieces, Item.pieces, hother] using hopened
  | reference span hname more ih =>
      exact .tag (isContent_signed ['>'] (by decide) (by decide) hname)
        (ih hrest hnext)
  | declaration span hname inner more ihinner ih =>
      rename_i enclosed name body items
      have hclosed : WellCut (.tag false declarationCloser :: (Item.allPieces items ++ rest)) :=
        .tag (isContent_word _ (by decide) (by decide)) (ih hrest hnext)
      have hopened := WellCut.tag (isContent_declaration hname)
        (ihinner hclosed (Or.inl ⟨rfl, _, _, _, rfl⟩))
      simpa [Item.allPieces, Item.pieces] using hopened

end ArePrintable

end Stencil
