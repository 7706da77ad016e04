import Stencil.Proofs.Document.Places
import Stencil.Proofs.Token.Canonical
import Stencil.Proofs.Token.Tiling

/-!
What is kept when the tokens of a template are spelled canonically. The new template has
tokens of the same classes with the same values, and its document is the same but for the
places: the items, the faults in their order, and the model of the data.
-/

namespace Stencil

open Text

/-- The document without the places in it. -/
def Document.unplaced (document : Document) : Document :=
  { document with
    items := Item.allUnplaced document.items
    errors := document.errors.map ParseError.unplaced }

namespace Model

open Expression

mutual

theorem readsOf_placed (places : Places) (span : Span) : (expression : Expression) →
    readsOf places (expression.placed span) = readsOf places expression
  | ⟨path, calls, _⟩ => by rw [placed, readsOf, readsOf, readsOfCalls_placed places span calls]

theorem readsOfCalls_placed (places : Places) (span : Span) : (calls : List FormatterCall) →
    readsOfCalls places (callsPlaced span calls) = readsOfCalls places calls
  | [] => rfl
  | ⟨name, arguments⟩ :: calls => by
      rw [callsPlaced, readsOfCalls, readsOfCalls, readsOfArguments_placed places span arguments,
        readsOfCalls_placed places span calls]

theorem readsOfArguments_placed (places : Places) (span : Span) : (arguments : List Argument) →
    readsOfArguments places (argumentsPlaced span arguments) = readsOfArguments places arguments
  | [] => rfl
  | .literal value :: arguments => by
      rw [argumentsPlaced, readsOfArguments, readsOfArguments,
        readsOfArguments_placed places span arguments]
  | .nested expression :: arguments => by
      rw [argumentsPlaced, readsOfArguments, readsOfArguments,
        readsOf_placed places span expression, readsOfArguments_placed places span arguments]

end

mutual

/-- What an item reads does not depend on its place. -/
theorem readsOfItem_unplaced (places : Places) : (item : Item) →
    readsOfItem places item.unplaced = readsOfItem places item
  | .literal text => rfl
  | .output expression escape span => readsOf_placed places _ expression
  | .block kind expression body otherwise span => by
      have hpath : (expression.placed ⟨0, 0, 0, 0⟩).path = expression.path := by
        obtain ⟨path, calls, place⟩ := expression
        rfl
      simp only [Item.unplaced, readsOfItem, readsOf_placed, hpath,
        readsOfItems_unplaced _ body, readsOfItems_unplaced _ otherwise]
  | .reference name span => rfl
  | .declaration name body span => readsOfItems_unplaced places body
  | .custom tag children => by
      simp only [Item.unplaced, readsOfItem, readsOfItems_unplaced places children]
      cases tag.expression with
      | none => rfl
      | some expression => simp only [Option.map_some, readsOf_placed]

theorem readsOfItems_unplaced (places : Places) : (items : List Item) →
    readsOfItems places (Item.allUnplaced items) = readsOfItems places items
  | [] => rfl
  | item :: items => by
      rw [Item.allUnplaced, readsOfItems, readsOfItems, readsOfItem_unplaced places item,
        readsOfItems_unplaced places items]

end

theorem ofItems_unplaced (items : List Item) :
    ofItems (Item.allUnplaced items) = ofItems items := by
  rw [ofItems, ofItems, readsOfItems_unplaced]

end Model

/-- Sorting by places that are in the same order keeps corresponding errors together. -/
theorem ParseError.map_unplaced_mergeSort {P : Span → Span → Prop}
    {errors errors' : List ParseError}
    (h : List.Forall₂ (ParseError.Alike P) errors errors')
    (hP : ∀ {first first' second second'}, P first first' → P second second' →
      (first.start ≤ second.start ↔ first'.start ≤ second'.start)) :
    (errors.mergeSort fun a b => a.span.start ≤ b.span.start).map unplaced =
      (errors'.mergeSort fun a b => a.span.start ≤ b.span.start).map unplaced := by
  obtain ⟨hlength, hpairs⟩ := List.forall₂_iff_zip.mp h
  have hfirst : (errors.zip errors').map Prod.fst = errors :=
    List.map_fst_zip (Nat.le_of_eq hlength)
  have hsecond : (errors.zip errors').map Prod.snd = errors' :=
    List.map_snd_zip (Nat.le_of_eq hlength.symm)
  let sooner (error error' : ParseError) : Bool := decide (error.span.start ≤ error'.span.start)
  let before (pair pair' : ParseError × ParseError) : Bool := sooner pair.1 pair'.1
  have hsorted :
      ((errors.zip errors').mergeSort before).map Prod.fst = errors.mergeSort sooner := by
    rw [List.map_mergeSort (s := sooner) fun _ _ _ _ => rfl, hfirst]
  have hsorted' : ((errors.zip errors').mergeSort before).map Prod.snd =
      errors'.mergeSort sooner := by
    have hsame : ∀ pair ∈ errors.zip errors', ∀ pair' ∈ errors.zip errors',
        before pair pair' = sooner pair.2 pair'.2 := by
      intro pair hpair pair' hpair'
      exact decide_eq_decide.mpr (hP (hpairs hpair).places (hpairs hpair').places)
    rw [List.map_mergeSort (s := sooner) hsame, hsecond]
  change (errors.mergeSort sooner).map unplaced = (errors'.mergeSort sooner).map unplaced
  rw [← hsorted, ← hsorted', List.map_map, List.map_map]
  refine List.map_congr_left fun pair hpair => ?_
  exact congrArg (ParseError.mk · _) (hpairs (List.mem_mergeSort.mp hpair)).fault

namespace Token

/-- The places of the tokens in the same position. -/
def SamePosition (tokens tokens' : List Token) (span span' : Span) : Prop :=
  ∃ token token', (token, token') ∈ tokens.zip tokens' ∧ span = token.span ∧ span' = token'.span

variable {tokens tokens' : List Token}

theorem alike_of_told (h : tokens.map told = tokens'.map told) :
    List.Forall₂ (Token.Alike (SamePosition tokens tokens')) tokens tokens' := by
  have hall :
      List.Forall₂ (fun token token' : Token => token.told = token'.told) tokens tokens' := by
    rw [← List.forall₂_map_right_iff, ← List.forall₂_map_left_iff, List.forall₂_eq_eq_eq]
    exact h
  obtain ⟨hlength, hpairs⟩ := List.forall₂_iff_zip.mp hall
  refine List.forall₂_iff_zip.mpr ⟨hlength, fun hpair => ?_⟩
  obtain ⟨hkind, hvalue⟩ := Prod.mk.inj (hpairs hpair)
  exact ⟨hkind, hvalue, _, _, hpair, rfl, rfl⟩

/-- Places of tokens in the same positions are in the same order. -/
theorem SamePosition.start_le_iff (h : tokens.Pairwise (·.span.start < ·.span.start))
    (h' : tokens'.Pairwise (·.span.start < ·.span.start)) {first first' second second' : Span}
    (hfirst : SamePosition tokens tokens' first first')
    (hsecond : SamePosition tokens tokens' second second') :
    first.start ≤ second.start ↔ first'.start ≤ second'.start := by
  obtain ⟨token, token', hpair, rfl, rfl⟩ := hfirst
  obtain ⟨other, other', hother, rfl, rfl⟩ := hsecond
  obtain ⟨i, hi, hat⟩ := List.mem_iff_getElem.mp hpair
  obtain ⟨j, hj, hat'⟩ := List.mem_iff_getElem.mp hother
  rw [List.getElem_zip] at hat hat'
  obtain ⟨rfl, rfl⟩ := Prod.mk.inj hat
  obtain ⟨rfl, rfl⟩ := Prod.mk.inj hat'
  have horder := List.pairwise_iff_getElem.mp h
  have horder' := List.pairwise_iff_getElem.mp h'
  rw [List.length_zip] at hi hj
  rcases Nat.lt_trichotomy i j with hless | rfl | hless
  · have hlt := horder i j (by omega) (by omega) hless
    have hlt' := horder' i j (by omega) (by omega) hless
    omega
  · simp
  · have hlt := horder j i (by omega) (by omega) hless
    have hlt' := horder' j i (by omega) (by omega) hless
    omega

/-- The tokens of a source start one after another. -/
theorem starts_lt_scan (settings : Settings) {marks : Delimiters}
    (hmarks : settings.delimiters? = some marks) (source : String) :
    (scan settings [] source).1.Pairwise (·.span.start < ·.span.start) :=
  (accountFor_scan settings hmarks [] source fun piece _ => piece.unclaimed_nil).starts_lt

end Token

/-- Sources with which scanning finds nothing wrong and that have tokens of the same classes
with the same values are parsed as the same document, their places apart. -/
theorem Document.parse_alike (settings : Settings) {marks : Delimiters}
    (hmarks : settings.delimiters? = some marks) {source source' : String}
    (hfaultless : (Token.scan settings [] source).2 = [])
    (hfaultless' : (Token.scan settings [] source').2 = [])
    (htold : (Token.scan settings [] source).1.map Token.told =
      (Token.scan settings [] source').1.map Token.told) :
    (parse settings [] source).unplaced = (parse settings [] source').unplaced := by
  obtain ⟨hitems, herrors⟩ := Item.ofTokens_alike (!settings.disablesEscaping)
    (Token.alike_of_told htold)
  have hsorted := ParseError.map_unplaced_mergeSort herrors fun hfirst hsecond =>
    Token.SamePosition.start_le_iff (Token.starts_lt_scan settings hmarks source)
      (Token.starts_lt_scan settings hmarks source') hfirst hsecond
  have hmodel : Model.ofItems (Item.ofTokens (!settings.disablesEscaping) []
        (Token.scan settings [] source).1).1 =
      Model.ofItems (Item.ofTokens (!settings.disablesEscaping) []
        (Token.scan settings [] source').1).1 := by
    rw [← Model.ofItems_unplaced, hitems, Model.ofItems_unplaced]
  simp only [unplaced, parse, hfaultless, hfaultless', List.nil_append, hitems, hsorted, hmodel]

/-- Tokens survive canonical reprinting. What is spelled from the tokens of a source with
which scanning finds nothing wrong is scanned without errors, as tokens of the same classes
with the same values, and is spelled like that again; its document is the same but for the
places. -/
theorem Token.canonicalText_keeps (settings : Settings)
    (hmarks : settings.delimiters? = some .braces) (source : String)
    (hfaultless : (scan settings [] source).2 = []) :
    let tokens := (scan settings [] source).1
    let again := scan settings [] (canonicalText tokens)
    again.2 = [] ∧ again.1.map told = tokens.map told ∧
      canonicalText again.1 = canonicalText tokens ∧
      (Document.parse settings [] (canonicalText tokens)).unplaced =
        (Document.parse settings [] source).unplaced := by
  have hscan : ∀ source, scan settings [] source = scanWith .braces [] source := by
    intro source
    simp only [scan, hmarks]
  have hfaultless' := hfaultless
  rw [hscan] at hfaultless'
  obtain ⟨tokens, hagain, htold⟩ := scanWith_canonicalText hfaultless'
  rw [← hscan, ← hscan] at hagain
  rw [← hscan] at htold
  intro first again
  have hsame : again = (tokens, []) := hagain
  refine ⟨by rw [hsame], by rw [hsame]; exact htold, ?_, ?_⟩
  · rw [hsame]
    exact canonicalText_congr htold
  · refine Document.parse_alike settings hmarks ?_ hfaultless ?_
    · exact congrArg Prod.snd hagain
    · rw [hagain]
      exact htold

/-- Texts with braces next to tags, unescaped expressions of both spellings, one of them with
a pair of braces in it, an inverted section with an `else`, and an empty comment. -/
def Token.variousSource : String :=
  "a\x7b \x7b\x7b&b\x7d\x7d\x7b\x7b\x7bc\x7d\x7d d\x7d\x7d\x7d\x7b\x7b^if e\x7d\x7d" ++
    "\x7b\x7b else \x7d\x7d\x7b\x7b!\x7d\x7d\x7b"

/-- The same, spelled canonically. -/
def Token.variousText : String :=
  "a\x7b \x7b\x7b\x7b b \x7d\x7d\x7d\x7b\x7b\x7b c\x7d\x7d d \x7d\x7d\x7d" ++
    "\x7b\x7b^if e \x7d\x7d\x7b\x7belse\x7d\x7d\x7b\x7b!  \x7d\x7d\x7b"

theorem Token.canonicalText_keeps_various :
    Settings.default.delimiters? = some .braces ∧
    (scan Settings.default [] variousSource).2 = [] ∧
    canonicalText (scan Settings.default [] variousSource).1 = variousText ∧
    (scan Settings.default [] variousText).2 = [] ∧
    (scan Settings.default [] variousText).1.map told =
      [(.text, "a\x7b "), (.expression false, "b"), (.expression false, "c\x7d\x7d d"),
        (.opening (.ofSection .falsy) "if", "e"), (.otherwise, ""), (.comment, ""),
        (.text, "\x7b")] ∧
    canonicalText (scan Settings.default [] variousText).1 = variousText ∧
    (Document.parse Settings.default [] variousText).unplaced =
      (Document.parse Settings.default [] variousSource).unplaced := by
  have hfaultless : (scan Settings.default [] variousSource).2 = [] := by decide +kernel
  have htext : canonicalText (scan Settings.default [] variousSource).1 = variousText := by
    decide +kernel
  obtain ⟨hagain, htold, hstable, hdocument⟩ :=
    canonicalText_keeps Settings.default rfl variousSource hfaultless
  rw [htext] at hagain htold hstable hdocument
  exact ⟨rfl, hfaultless, htext, hagain, htold.trans (by decide +kernel), hstable, hdocument⟩

end Stencil
