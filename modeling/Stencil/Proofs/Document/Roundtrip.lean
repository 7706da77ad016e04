import Stencil.Proofs.Document.Balance
import Stencil.Proofs.Document.Rebuilding

/-!
Parsing undoes printing: the template of printable items is scanned into the
tokens of their pieces, and these build the items again.
-/

namespace Stencil

open Text

theorem ArePrintable.classes {enclosed : Bool} {items : List Item}
    (h : ArePrintable enclosed items) :
    ∀ piece ∈ Item.allPieces items, piece.class?.isSome = true := by
  induction h with
  | nil => simp [Item.allPieces]
  | literal hsome hpair hapart hlast more ih =>
      simp only [Item.allPieces, Item.pieces, List.forall_mem_append, List.forall_mem_singleton]
      exact ⟨rfl, ih⟩
  | output escape span hfits more ih =>
      simp only [Item.allPieces, Item.pieces, List.forall_mem_append, List.forall_mem_singleton]
      exact ⟨class?_isSome hfits.isPathTag.not_allBlank, ih⟩
  | block kind span hfits inner other more ihinner ihother ih =>
      rename_i enclosed expression body otherwise items
      have htags := kind.not_allBlank (s := Item.tagText expression)
      simp only [Item.allPieces, Item.pieces, List.forall_mem_append, List.forall_mem_cons]
      refine ⟨⟨class?_isSome htags.1, ihinner, ?_, class?_isSome htags.2,
        List.forall_mem_nil _⟩, ih⟩
      split
      · simp
      · exact List.forall_mem_cons.mpr ⟨class?_isSome (not_allBlank_cons rfl), ihother⟩
  | reference span hname more ih =>
      simp only [Item.allPieces, Item.pieces, List.forall_mem_append, List.forall_mem_singleton]
      exact ⟨class?_isSome (not_allBlank_cons rfl), ih⟩
  | declaration span hname inner more ihinner ih =>
      simp only [Item.allPieces, Item.pieces, List.forall_mem_append, List.forall_mem_cons]
      exact ⟨⟨class?_isSome (not_allBlank_cons rfl), ihinner,
        class?_isSome (not_allBlank_cons rfl), List.forall_mem_nil _⟩, ih⟩

/-- The settings keep double braces as delimiters and the escaping of
expressions. -/
structure Settings.ReadsPrinted (settings : Settings) : Prop where
  opening : settings.opening = Settings.default.opening
  closing : settings.closing = Settings.default.closing
  escaping : settings.disablesEscaping = false

theorem Settings.ReadsPrinted.delimiters {settings : Settings} (h : settings.ReadsPrinted) :
    settings.delimiters? = some .braces := by
  rw [Settings.delimiters?, h.opening, h.closing]
  rfl

/-- A template of printed items is built from the tokens of their pieces. -/
theorem Document.parse_pieces {settings : Settings} (hsettings : settings.ReadsPrinted)
    {items : List Item} (h : ArePrintable false items) :
    ∃ tokens, List.Forall₂ Token.Tells tokens (Item.allPieces items) ∧
      (Document.parse settings [] (Item.template items)).items =
        (Item.ofTokens true [] tokens).1 ∧
      (Document.parse settings [] (Item.template items)).errors =
        (Item.ofTokens true [] tokens).2.mergeSort fun a b => a.span.start ≤ b.span.start := by
  have hcut := h.wellCut WellCut.nil (Or.inr ⟨rfl, rfl⟩)
  rw [List.append_nil] at hcut
  obtain ⟨tokens, hscan, htells⟩ := Token.scanWith_wellCut hcut h.classes
  refine ⟨tokens, htells, ?_, ?_⟩
  · simp only [Document.parse, Token.scan, hsettings.delimiters, Item.template, hscan,
      hsettings.escaping, Bool.not_false]
  · simp only [Document.parse, Token.scan, hsettings.delimiters, Item.template, hscan,
      hsettings.escaping, Bool.not_false, List.nil_append]

/-- Parsing undoes printing: the template of printable items, none of which is
spelled like another tag, is parsed without errors as these items, their places
apart. -/
theorem Document.parse_template (settings : Settings) (hsettings : settings.ReadsPrinted)
    (items : List Item) (hprintable : ArePrintable false items)
    (hkeywords : ∀ item ∈ Item.walkAll items, ¬item.ReadsAsKeyword) :
    let document := Document.parse settings [] (Item.template items)
    document.errors = [] ∧ Item.allUnplaced document.items = Item.allUnplaced items := by
  obtain ⟨tokens, htells, hitems, herrors⟩ :=
    Document.parse_pieces hsettings hprintable
  obtain ⟨items', hadds, hsame⟩ := hprintable.rebuilds hkeywords htells
  rw [hadds.ofTokens] at hitems herrors
  constructor
  · rw [herrors]
    exact List.mergeSort_nil
  · rw [hitems, hsame]

/-- The output of a path that is spelled like an `else`. -/
def Item.spelledElse : List Item :=
  [.output ⟨⟨[.name "else"], "else"⟩, [], ⟨0, 0, 0, 0⟩⟩ true ⟨0, 0, 0, 0⟩]

/-- A plain section on a path of one name. -/
def Item.plainSection (name : String) : List Item :=
  [.block .plain ⟨⟨[.name name], name⟩, [], ⟨0, 0, 0, 0⟩⟩ [] [] ⟨0, 0, 0, 0⟩]

theorem Document.parse_spelledElse (hprintable : ArePrintable false Item.spelledElse) :
    (Document.parse .default [] (Item.template Item.spelledElse)).errors ≠ [] := by
  have hsettings : Settings.default.ReadsPrinted := ⟨rfl, rfl, rfl⟩
  obtain ⟨tokens, htells, hitems, herrors⟩ := Document.parse_pieces hsettings hprintable
  obtain ⟨token, nothing, htoken, hnothing, rfl⟩ := List.forall₂_cons_right_iff.mp htells
  cases hnothing
  have hclass : (Piece.tag false (padded ['e', 'l', 's', 'e'])).class? = some (.otherwise, []) := by
    decide
  obtain ⟨hkind, -⟩ := htoken.eq hclass
  have hresult : Item.ofTokens true [] [token] = ([], [⟨.strayElse, token.span⟩]) := by
    simp only [Item.ofTokens, Builder.addTokens_cons, Builder.addBuiltin, hkind]
    simp [Builder.addTokens, Builder.otherwise, Builder.report, Builder.empty, Builder.finish,
      Builder.closeAll]
  rw [herrors, hresult, List.mergeSort_singleton]
  simp

theorem Token.ownErrors_ne_nil {token : Token} {block : BlockKind} {name : String}
    (hkind : token.kind = .opening block name) (hvalue : token.value = "") :
    token.ownErrors ≠ [] := by
  have hread (span : Span) : (Expression.read "" span).2 ≠ [] := by
    have hchain : (Expression.readChain "" span "".toList).faults ≠ [] := by
      have hstep : (Expression.readChain "" span []).outcome = _ := Expression.readChain_step
      obtain ⟨-, hfaults, -⟩ := Expression.Reading.outcome_iff.mp hstep
      intro hnone
      cases hfaults.symm.trans hnone
    intro hnone
    rw [Expression.read, List.map_eq_nil_iff] at hnone
    exact hchain (List.append_eq_nil_iff.mp hnone).1
  rw [ownErrors, hkind, hvalue]
  cases block with
  | ofSection kind => exact hread token.span
  | declaration => simp

theorem Item.errors_ofTokens_opening {token : Token} {block : BlockKind} {name : String}
    (hkind : token.kind = .opening block name) (hvalue : token.value = "")
    (tokens : List Token) : (Item.ofTokens true [] (token :: tokens)).2 ≠ [] := by
  have hbegins : token.ownErrors <+: (Item.ofTokens true [] (token :: tokens)).2 := by
    rw [ofTokens, Builder.addTokens_cons, Builder.addBuiltin_opening _ _ _ hkind]
    have hkept := (Builder.empty.within ⟨⟨name, 0, token.span⟩, Builder.opened block token, [],
      none⟩ token.ownErrors).errors_addTokens true 1 tokens
    exact hkept.trans (Builder.errors_closeAll _ _ _)
  intro hnone
  rw [hnone] at hbegins
  exact Token.ownErrors_ne_nil hkind hvalue (List.prefix_nil.mp hbegins)

theorem Document.parse_plainSection {name : String}
    (hprintable : ArePrintable false (Item.plainSection name)) {block : BlockKind}
    {opened : String} (hclass : (Piece.tag false ('#' :: padded name.toList)).class? =
      some (.opening block opened, [])) :
    (Document.parse .default [] (Item.template (Item.plainSection name))).errors ≠ [] := by
  have hsettings : Settings.default.ReadsPrinted := ⟨rfl, rfl, rfl⟩
  obtain ⟨tokens, htells, -, herrors⟩ := Document.parse_pieces hsettings hprintable
  have hpieces : Item.allPieces (Item.plainSection name) =
      [.tag false ('#' :: padded name.toList), .tag false ('/' :: padded name.toList)] := by
    simp [Item.plainSection, Item.allPieces, Item.pieces, Item.tagText, Expression.source,
      Expression.callsSource, SectionKind.openerContent, SectionKind.closerContent]
  rw [hpieces] at htells
  obtain ⟨token, rest, htoken, -, rfl⟩ := List.forall₂_cons_right_iff.mp htells
  obtain ⟨hkind, hvalue⟩ := htoken.eq hclass
  have hreported := Item.errors_ofTokens_opening hkind hvalue rest
  rw [herrors]
  intro hnone
  rw [← List.length_eq_zero_iff, List.length_mergeSort, List.length_eq_zero_iff] at hnone
  exact hreported hnone

/-- Without the conditions on keywords printing is not undone. These forests can
be printed, and their templates have errors. -/
theorem Document.parse_keywords :
    (Item.template Item.spelledElse = "\x7b\x7b else \x7d\x7d" ∧
      ArePrintable false Item.spelledElse ∧
      (Document.parse .default [] (Item.template Item.spelledElse)).errors ≠ []) ∧
    ∀ name ∈ ["each", "with", "if", "declare"],
      ArePrintable false (Item.plainSection name) ∧
        (Document.parse .default [] (Item.template (Item.plainSection name))).errors ≠ [] := by
  have helse : ArePrintable false Item.spelledElse :=
    .output true _ ⟨⟨rfl, trivial⟩, by decide, by decide⟩ (.nil false)
  refine ⟨⟨by decide, helse, Document.parse_spelledElse helse⟩, ?_⟩
  have hkeyword (name : String) (hpath : Path.parse name = .ok ⟨[.name name], name⟩)
      (hopening : '\x7b' ∉ name.toList) (hclosing : '\x7d' ∉ name.toList)
      {block : BlockKind} {opened : String}
      (hclass : (Piece.tag false ('#' :: padded name.toList)).class? =
        some (.opening block opened, [])) :
      ArePrintable false (Item.plainSection name) ∧
        (Document.parse .default [] (Item.template (Item.plainSection name))).errors ≠ [] := by
    have hprintable : ArePrintable false (Item.plainSection name) := by
      refine .block .plain _ ⟨⟨hpath, trivial⟩, ?_, ?_⟩ (.nil true) (.nil true) (.nil false)
      · apply Piece.not_hasPair_of_not_mem
        simpa [Item.tagText, Expression.source, Expression.callsSource] using hopening
      · apply Piece.not_hasPair_of_not_mem
        simpa [Item.tagText, Expression.source, Expression.callsSource] using hclosing
    exact ⟨hprintable, Document.parse_plainSection hprintable hclass⟩
  intro name hname
  simp only [List.mem_cons, List.not_mem_nil, or_false] at hname
  rcases hname with rfl | rfl | rfl | rfl
  · exact hkeyword "each" rfl (by decide) (by decide) rfl
  · exact hkeyword "with" rfl (by decide) (by decide) rfl
  · exact hkeyword "if" rfl (by decide) (by decide) rfl
  · exact hkeyword "declare" rfl (by decide) (by decide) rfl

/-- A forest with every kind of item. -/
def Item.sampleForest : List Item :=
  let expression (name : String) (calls : List FormatterCall) : Expression :=
    ⟨⟨[.name name], name⟩, calls, ⟨0, 0, 0, 0⟩⟩
  [.literal "Dear ",
    .output (expression "user" [⟨"clip", [.literal (.string "a\"b"),
      .nested (expression "limit" [])]⟩]) true ⟨0, 0, 0, 0⟩,
    .block .truthy (expression "open" []) [.literal "now"] [.reference "later" ⟨0, 0, 0, 0⟩]
      ⟨0, 0, 0, 0⟩,
    .declaration "later" [.literal "soon"] ⟨0, 0, 0, 0⟩]

theorem Document.parse_template_sampleForest :
    Settings.default.ReadsPrinted ∧ ArePrintable false Item.sampleForest ∧
    (∀ item ∈ Item.walkAll Item.sampleForest, ¬item.ReadsAsKeyword) ∧
    (Document.parse .default [] (Item.template Item.sampleForest)).errors = [] := by
  have hsettings : Settings.default.ReadsPrinted := ⟨rfl, rfl, rfl⟩
  have hprintable : ArePrintable false Item.sampleForest := by
    refine .literal (by decide) (by decide) (by simp [Item.isLiteral]) (fun _ => by decide) ?_
    refine .output true _ ⟨⟨rfl, ⟨by decide, List.all_eq_true.mp rfl⟩, ?_, trivial⟩, by decide,
      by decide⟩ ?_
    · exact ⟨trivial, ⟨rfl, trivial⟩, ⟨by decide, by decide⟩, trivial⟩
    refine .block .truthy _ ⟨⟨rfl, trivial⟩, by decide, by decide⟩ ?_ ?_ ?_
    · exact .literal (by decide) (by decide) (by simp) (fun _ => by decide) (.nil true)
    · exact .reference _ ⟨by decide, by decide, by decide, by decide⟩ (.nil true)
    refine .declaration _ ⟨by decide, by decide, by decide, by decide⟩ ?_ (.nil false)
    exact .literal (by decide) (by decide) (by simp) (fun _ => by decide) (.nil true)
  have hkeywords : ∀ item ∈ Item.walkAll Item.sampleForest, ¬item.ReadsAsKeyword := by
    simp [Item.sampleForest, Item.walkAll, Item.walk, Item.ReadsAsKeyword]
  exact ⟨hsettings, hprintable, hkeywords,
    (Document.parse_template .default hsettings Item.sampleForest hprintable hkeywords).1⟩

end Stencil
