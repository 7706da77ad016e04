import Stencil.Proofs.Span.Position
import Stencil.Proofs.Token.Faultless

/-!
What a source in front of another one does to it. If nothing is wrong with the one in
front and it ends in a tag, the tokens and the errors of the other stay as they are but
for their places, and so do the tokens of the one in front.
-/

namespace Stencil

open Text

/-- The place in a source behind another one. Only in its first line are there
characters of the other source before it. -/
def Span.behind (front : List Char) (span : Span) : Span :=
  { start := byteSize front + span.start
    stop := byteSize front + span.stop
    line := front.count '\n' + span.line
    column := if span.line = 1 then (columnAfter front - 1) + span.column else span.column }

def Token.behind (front : List Char) (token : Token) : Token :=
  { token with span := token.span.behind front }

def ParseError.behind (front : List Char) (error : ParseError) : ParseError :=
  { error with span := error.span.behind front }

namespace Text

theorem lineAfter_append (front before : List Char) :
    lineAfter (front ++ before) = front.count '\n' + lineAfter before := by
  rw [lineAfter, lineAfter, List.count_append, Nat.add_assoc]

theorem columnAfter_concat (before : List Char) (c : Char) :
    columnAfter (before ++ [c]) = if c = '\n' then 1 else columnAfter before + 1 := by
  unfold columnAfter
  split
  · rename_i hbreak
    rw [List.rtakeWhile_concat_neg _ _ _ (by simpa using hbreak)]
    rfl
  · rename_i hplain
    rw [List.rtakeWhile_concat_pos _ _ _ (by simpa using hplain), List.length_append]
    rfl

theorem columnAfter_append (front before : List Char) :
    columnAfter (front ++ before) =
      if lineAfter before = 1 then (columnAfter front - 1) + columnAfter before
      else columnAfter before := by
  induction before using List.reverseRecOn with
  | nil =>
      rw [List.append_nil, if_pos (by rfl)]
      rfl
  | append_singleton before c ih =>
      have hline : lineAfter (before ++ [c]) =
          if c = '\n' then lineAfter before + 1 else lineAfter before := by
        simp only [lineAfter, List.count_append, List.count_singleton, beq_iff_eq]
        split <;> omega
      rw [← List.append_assoc, columnAfter_concat, columnAfter_concat, ih, hline]
      split
      · have hpos : lineAfter before + 1 ≠ 1 := by simp [lineAfter]
        rw [if_neg hpos]
      · split <;> omega

end Text

theorem LineIndex.span_behind (front before after : List Char) (stop : Nat) :
    (ofSource (front ++ (before ++ after))).span (byteSize front + byteSize before)
        (byteSize front + stop) =
      ((ofSource (before ++ after)).span (byteSize before) stop).behind front := by
  rw [← List.append_assoc, ← byteSize_append, span_eq, span_eq]
  simp only [Span.behind, byteSize_append, lineAfter_append, columnAfter_append]

namespace Token

namespace Scan

variable {marks : Delimiters} {scan ahead : Scan} {front before rest : List Char}

theorem offset_addPiece (marks : Delimiters) (providers : List Provider) (lines : LineIndex)
    (scan : Scan) (piece : Piece) :
    (scan.addPiece marks providers lines piece).offset =
      scan.offset + byteSize (piece.source marks) := by
  cases piece with
  | text source => rfl
  | unclosed braced rest => rfl
  | tag braced content =>
      simp only [addPiece, addTag]
      split
      · rfl
      · split <;> rfl

/-- Of the lines of a source only those up to the piece that is added count. -/
theorem addPiece_lines {lines lines' : LineIndex} (providers : List Provider)
    (h : ∀ stop, lines.span scan.offset stop = lines'.span scan.offset stop) (piece : Piece) :
    scan.addPiece marks providers lines piece = scan.addPiece marks providers lines' piece := by
  cases piece <;> simp only [addPiece, addText, h]

/-- What comes behind the pieces does not change what they add. -/
theorem foldl_addPiece_append (marks : Delimiters) (providers : List Provider)
    (pieces : List Piece) (hoffset : scan.offset = byteSize before) (rest : List Char) :
    pieces.foldl (addPiece marks providers
        (.ofSource (before ++ (pieces.flatMap (Piece.source marks) ++ rest)))) scan =
      pieces.foldl (addPiece marks providers
        (.ofSource (before ++ pieces.flatMap (Piece.source marks)))) scan := by
  induction pieces generalizing scan before with
  | nil => rfl
  | cons piece pieces ih =>
      have hlines (stop : Nat) :
          (LineIndex.ofSource (before ++ ((piece :: pieces).flatMap (Piece.source marks) ++
            rest))).span scan.offset stop =
          (LineIndex.ofSource (before ++ (piece :: pieces).flatMap (Piece.source marks))).span
            scan.offset stop := by
        rw [hoffset, LineIndex.span_eq, LineIndex.span_eq]
      have hadd : (scan.addPiece marks providers (.ofSource
          (before ++ (piece :: pieces).flatMap (Piece.source marks))) piece).offset =
          byteSize (before ++ piece.source marks) := by
        rw [offset_addPiece, hoffset, byteSize_append]
      have hmore := ih hadd
      simp only [List.append_assoc] at hmore
      rw [List.foldl_cons, List.foldl_cons, addPiece_lines providers hlines]
      simp only [List.flatMap_cons, List.append_assoc] at hmore ⊢
      exact hmore

/-- What was scanned of a source that stands behind another one. -/
def behind (front : List Char) (ahead scan : Scan) : Scan :=
  ⟨ahead.offset + scan.offset, scan.tokens.map (Token.behind front) ++ ahead.tokens,
    ahead.errors ++ scan.errors.map (ParseError.behind front)⟩

/-- A piece that is added next has its place behind the other source. -/
theorem span_behind (hahead : ahead.offset = byteSize front)
    (hoffset : scan.offset = byteSize before) (size : Nat) :
    (LineIndex.ofSource (front ++ (before ++ rest))).span (behind front ahead scan).offset
        ((behind front ahead scan).offset + size) =
      ((LineIndex.ofSource (before ++ rest)).span scan.offset (scan.offset + size)).behind
        front := by
  have hspan := LineIndex.span_behind front before rest (scan.offset + size)
  rwa [← hoffset, ← hahead, ← Nat.add_assoc] at hspan

/-- Text joins the tokens behind a tag as if the tag was not there. -/
theorem addText_behind (scan : Scan) (rest : List Char) (hahead : ahead.offset = byteSize front)
    (hlast : ∀ token ∈ ahead.tokens.head?, token.kind ≠ .text)
    (hoffset : scan.offset = byteSize before) (text : List Char) :
    (behind front ahead scan).addText (.ofSource (front ++ (before ++ rest))) text =
      behind front ahead (scan.addText (.ofSource (before ++ rest)) text) := by
  have hstop (token : Token) :
      (token.behind front).span.stop = ahead.offset + scan.offset ↔
        token.span.stop = scan.offset := by
    rw [hahead]
    exact Nat.add_left_cancel_iff
  by_cases hjoins : ∃ last ∈ scan.tokens.head?, last.kind = .text ∧ last.span.stop = scan.offset
  · obtain ⟨last, hhead, hjoins⟩ := hjoins
    obtain ⟨earlier, htokens⟩ := List.head?_eq_some_iff.mp hhead
    have htokens' : (behind front ahead scan).tokens =
        last.behind front :: (earlier.map (Token.behind front) ++ ahead.tokens) := by
      simp only [behind, htokens, List.map_cons, List.cons_append]
    rw [addText_join _ htokens hjoins,
      addText_join _ htokens' ⟨hjoins.1, (hstop last).mpr hjoins.2⟩]
    simp only [behind, Token.behind, Span.behind, List.map_cons, List.cons_append, hahead,
      Nat.add_assoc]
  · have hapart : ∀ last ∈ scan.tokens.head?,
        ¬(last.kind = .text ∧ last.span.stop = scan.offset) :=
      fun last hhead hlast => hjoins ⟨last, hhead, hlast⟩
    have hapart' : ∀ last ∈ (behind front ahead scan).tokens.head?,
        ¬(last.kind = .text ∧ last.span.stop = (behind front ahead scan).offset) := by
      intro last hhead hjoins
      -- before anything is scanned the latest token is that of the tag in front
      cases htokens : scan.tokens with
      | nil =>
          rw [behind, htokens] at hhead
          exact hlast last hhead hjoins.1
      | cons token earlier =>
          simp only [behind, htokens, List.map_cons, List.cons_append, List.head?_cons,
            Option.mem_def, Option.some.injEq] at hhead
          subst hhead
          exact hapart token (by rw [htokens]; rfl) ⟨hjoins.1, (hstop token).mp hjoins.2⟩
    rw [addText_separate _ hapart, addText_separate _ hapart', span_behind hahead hoffset]
    simp only [behind, List.map_cons, List.cons_append, Token.behind, Nat.add_assoc]

theorem addPiece_behind (hahead : ahead.offset = byteSize front)
    (hlast : ∀ token ∈ ahead.tokens.head?, token.kind ≠ .text)
    (hoffset : scan.offset = byteSize before) (piece : Piece) :
    (behind front ahead scan).addPiece marks [] (.ofSource (front ++ (before ++ rest))) piece =
      behind front ahead (scan.addPiece marks [] (.ofSource (before ++ rest)) piece) := by
  cases piece with
  | text source => exact addText_behind scan rest hahead hlast hoffset source
  | unclosed braced inside =>
      have hadd (error : ParseError) :=
        addText_behind { scan with errors := scan.errors ++ [error] } rest hahead hlast hoffset
          ((Piece.unclosed braced inside).source marks)
      simp only [addPiece]
      rw [span_behind hahead hoffset, ← hadd]
      simp only [behind, List.map_append, List.append_assoc]
      rfl
  | tag braced content =>
      simp only [addPiece, addTag, List.find?_nil]
      rw [span_behind hahead hoffset]
      cases classify? braced (trim content) with
      | some told =>
          simp only [behind, List.map_cons, List.cons_append, hahead]
          rfl
      | none =>
          simp only [behind, List.map_append, List.append_assoc, hahead]
          rfl

/-- Pieces behind a tag add the tokens and the errors of their own source. -/
theorem foldl_addPiece_behind (marks : Delimiters) (hahead : ahead.offset = byteSize front)
    (hlast : ∀ token ∈ ahead.tokens.head?, token.kind ≠ .text) (pieces : List Piece)
    (hoffset : scan.offset = byteSize before) :
    pieces.foldl (addPiece marks [] (.ofSource
        (front ++ (before ++ pieces.flatMap (Piece.source marks))))) (behind front ahead scan) =
      behind front ahead (pieces.foldl (addPiece marks [] (.ofSource
        (before ++ pieces.flatMap (Piece.source marks)))) scan) := by
  induction pieces generalizing scan before with
  | nil => rfl
  | cons piece pieces ih =>
      have hadd : (scan.addPiece marks [] (.ofSource
          (before ++ (piece :: pieces).flatMap (Piece.source marks))) piece).offset =
          byteSize (before ++ piece.source marks) := by
        rw [offset_addPiece, hoffset, byteSize_append]
      have hmore := ih hadd
      rw [List.foldl_cons, List.foldl_cons, addPiece_behind hahead hlast hoffset]
      simp only [List.flatMap_cons, List.append_assoc] at hmore ⊢
      exact hmore

theorem offset_foldl_addPiece (marks : Delimiters) (providers : List Provider)
    (lines : LineIndex) (scan : Scan) (pieces : List Piece) :
    (pieces.foldl (addPiece marks providers lines) scan).offset =
      scan.offset + byteSize (pieces.flatMap (Piece.source marks)) := by
  induction pieces generalizing scan with
  | nil => rfl
  | cons piece pieces ih =>
      rw [List.foldl_cons, ih, offset_addPiece, List.flatMap_cons, byteSize_append, Nat.add_assoc]

/-- The scan of a source: its pieces, added one after another. -/
def ofSource (marks : Delimiters) (source : List Char) : Scan :=
  (Piece.ofSource marks source).foldl (addPiece marks [] (.ofSource source)) ⟨0, [], []⟩

/-- The scan of a source goes on behind a tag as if it started there. -/
theorem ofSource_append {first second : List Char}
    (hpieces : Piece.ofSource marks (first ++ second) =
      Piece.ofSource marks first ++ Piece.ofSource marks second)
    (hlast : ∀ token ∈ (ofSource marks first).tokens.head?, token.kind ≠ .text) :
    ofSource marks (first ++ second) = behind first (ofSource marks first)
      (ofSource marks second) := by
  have hnone : (⟨0, [], []⟩ : Scan).offset = byteSize [] := rfl
  have hfirst : (Piece.ofSource marks first).foldl
      (addPiece marks [] (.ofSource (first ++ second))) ⟨0, [], []⟩ = ofSource marks first := by
    have hfront := foldl_addPiece_append marks [] (Piece.ofSource marks first) hnone second
    rwa [Piece.flatMap_ofSource] at hfront
  -- nothing scanned, behind what was scanned in front, is where the second source starts
  have hstart : ofSource marks first = behind first (ofSource marks first) ⟨0, [], []⟩ := by
    simp [behind]
  have hahead : (ofSource marks first).offset = byteSize first := by
    rw [ofSource, offset_foldl_addPiece, Piece.flatMap_ofSource]
    exact Nat.zero_add _
  have hsecond := foldl_addPiece_behind marks hahead hlast (Piece.ofSource marks second) hnone
  rw [Piece.flatMap_ofSource, List.nil_append, ← hstart] at hsecond
  rw [ofSource, hpieces, List.foldl_append, hfirst]
  exact hsecond

end Scan

theorem scanWith_eq (marks : Delimiters) (source : String) :
    scanWith marks [] source =
      ((Scan.ofSource marks source.toList).tokens.reverse,
        (Scan.ofSource marks source.toList).errors) := rfl

/-- The last token tells the last piece. -/
theorem tells_getLast {tokens : List Token} {pieces : List Piece}
    (h : List.Forall₂ Tells tokens pieces) {piece : Piece} (hpiece : pieces.getLast? = some piece) :
    ∃ token, tokens.getLast? = some token ∧ token.Tells piece := by
  have hreverse := List.forall₂_reverse_iff.mpr h
  rw [← List.head?_reverse] at hpiece
  obtain ⟨earlier, hpieces⟩ := List.head?_eq_some_iff.mp hpiece
  rw [hpieces] at hreverse
  obtain ⟨token, tokens', htells, -, htokens⟩ := List.forall₂_cons_right_iff.mp hreverse
  refine ⟨token, ?_, htells⟩
  rw [← List.head?_reverse, htokens]
  rfl

/-- Scanning is local to the end of a tag: a source behind another one that ends in a tag
and with which nothing is wrong neither changes the tokens in front nor are its own tokens
and errors other than they are alone, but for their places. -/
theorem scan_append (settings : Settings) (hmarks : settings.delimiters? = some .braces)
    (first second : String) (hfaultless : (scan settings [] first).2 = [])
    (hlast : ∀ token ∈ (scan settings [] first).1.getLast?, token.kind ≠ .text) :
    scan settings [] (first ++ second) =
      ((scan settings [] first).1 ++ (scan settings [] second).1.map (behind first.toList),
        (scan settings [] second).2.map (ParseError.behind first.toList)) := by
  simp only [scan, hmarks] at hfaultless hlast ⊢
  obtain ⟨htagged, htells⟩ := tagged_of_faultless hfaultless
  -- a text at the end of the source in front would be a token
  have hends (text : List Char) :
      (Piece.ofSource .braces first.toList).getLast? ≠ some (.text text) := by
    intro hpiece
    obtain ⟨token, htoken, htold⟩ := tells_getLast htells hpiece
    refine hlast token htoken ?_
    exact (Prod.mk.inj (Option.some.inj htold)).1.symm
  have hpieces := htagged.ofSource_append second.toList fun _ => hends
  rw [Piece.flatMap_ofSource] at hpieces
  rw [scanWith_eq, List.getLast?_reverse] at hlast
  have hnone : (Scan.ofSource .braces first.toList).errors = [] := hfaultless
  rw [scanWith_eq, scanWith_eq, scanWith_eq, String.toList_append,
    Scan.ofSource_append hpieces hlast]
  simp only [Scan.behind, hnone, List.nil_append, List.reverse_append, List.map_reverse]

/-- A text with a brace, and a tag on the second line. -/
def frontSource : String :=
  "é\x7b\n\x7b\x7b\x7ba\x7d\x7d\x7d"

/-- A tag that is not closed, in a text that starts with a brace, and an empty tag. -/
def faultySource : String :=
  "\x7bé\x7b\x7b\x7d\n\x7b\x7b \x7d\x7d"

theorem scan_append_braces :
    Settings.default.delimiters? = some .braces ∧
    (scan Settings.default [] frontSource).2 = [] ∧
    (∀ token ∈ (scan Settings.default [] frontSource).1.getLast?, token.kind ≠ .text) ∧
    (scan Settings.default [] faultySource).2 =
      [⟨.unclosedTag "\x7b\x7b" "\x7d\x7d", ⟨3, 7, 1, 3⟩⟩, ⟨.emptyTag, ⟨7, 12, 2, 1⟩⟩] ∧
    scan Settings.default [] (frontSource ++ faultySource) =
      ([⟨.text, "é\x7b\n", ⟨0, 4, 1, 1⟩⟩, ⟨.expression false, "a", ⟨4, 11, 2, 1⟩⟩,
        ⟨.text, "\x7bé\x7b\x7b\x7d\n", ⟨11, 18, 2, 8⟩⟩],
      [⟨.unclosedTag "\x7b\x7b" "\x7d\x7d", ⟨14, 18, 2, 10⟩⟩,
        ⟨.emptyTag, ⟨18, 23, 3, 1⟩⟩]) := by
  have hfaultless : (scan Settings.default [] frontSource).2 = [] := by decide +kernel
  have hlast : ∀ token ∈ (scan Settings.default [] frontSource).1.getLast?,
      token.kind ≠ .text := by decide +kernel
  refine ⟨rfl, hfaultless, hlast, by decide +kernel, ?_⟩
  rw [scan_append Settings.default rfl frontSource faultySource hfaultless hlast]
  decide +kernel

end Token

end Stencil
