import Mathlib.Data.List.Nodup
import Stencil.Proofs.Span.Position
import Stencil.Proofs.Token.Classes
import Stencil.Proofs.Token.Pieces
import Stencil.Provider.Stock

/-!
What scanning makes of a source. If no provider claims a tag, the places of the tokens
and of the empty tags follow one another without a gap, each token says what stands at
its place, and a tag that is not closed is part of a text.
-/

namespace Stencil

open Text

theorem sorted_mergeSort {α : Type} (key : α → Nat) (l : List α) :
    (l.mergeSort fun a b => key a ≤ key b).Pairwise (key · ≤ key ·) := by
  have hsorted : (l.mergeSort fun a b => key a ≤ key b).Pairwise
      fun a b => decide (key a ≤ key b) = true :=
    List.pairwise_mergeSort (fun a b c hab hbc => by simp at *; omega)
      (fun a b => by simp; omega) l
  exact hsorted.imp of_decide_eq_true

/-- Spans that follow one another from an offset to another without a gap, none of them
empty. -/
inductive Span.Tiles : Nat → List Span → Nat → Prop where
  | nil (offset : Nat) : Tiles offset [] offset
  | cons {span : Span} {spans : List Span} {stop : Nat} (hsome : span.start < span.stop)
      (rest : Tiles span.stop spans stop) : Tiles span.start (span :: spans) stop

namespace Span.Tiles

variable {first stop : Nat} {span : Span} {spans : List Span}

theorem snoc (h : Tiles first spans span.start) (hsome : span.start < span.stop) :
    Tiles first (spans ++ [span]) span.stop := by
  generalize hstart : span.start = start at h
  induction h with
  | nil => exact hstart ▸ .cons hsome (.nil span.stop)
  | cons hfirst rest ih => exact .cons hfirst (ih hstart)

theorem le (h : Tiles first spans stop) : first ≤ stop := by
  induction h with
  | nil => exact Nat.le_refl _
  | cons hsome rest ih => omega

theorem bounds (h : Tiles first spans stop) :
    ∀ span ∈ spans, first ≤ span.start ∧ span.start < span.stop ∧ span.stop ≤ stop := by
  induction h with
  | nil =>
      intro span hspan
      cases hspan
  | cons hsome rest ih =>
      refine List.forall_mem_cons.mpr ⟨⟨Nat.le_refl _, hsome, rest.le⟩, ?_⟩
      intro span hspan
      have hbounds := ih span hspan
      omega

theorem pairwise (h : Tiles first spans stop) : spans.Pairwise (·.start < ·.start) := by
  induction h with
  | nil => exact .nil
  | cons hsome rest ih =>
      refine .cons ?_ ih
      intro span hspan
      have hbounds := rest.bounds span hspan
      omega

/-- The span that ends where all of them end is the last one. -/
theorem last (h : Tiles first spans stop) (hspan : span ∈ spans) (hstop : span.stop = stop) :
    ∃ front, spans = front ++ [span] ∧ Tiles first front span.start := by
  induction h with
  | nil => cases hspan
  | cons hsome rest ih =>
      rename_i head spans stop
      rcases List.mem_cons.mp hspan with rfl | hrest
      · cases spans with
        | nil => exact ⟨[], rfl, .nil _⟩
        | cons next spans =>
            have hnext := rest.bounds next (List.mem_cons_self ..)
            omega
      · obtain ⟨front, rfl, hfront⟩ := ih hrest hstop
        exact ⟨head :: front, rfl, .cons hsome hfront⟩

/-- Spans that tile are sorted by their starts, and no other order of them is. -/
theorem mergeSort_eq (h : Tiles first spans stop) {places : List Span} (hperm : places.Perm spans) :
    places.mergeSort (fun a b => a.start ≤ b.start) = spans := by
  have hsorted : (places.mergeSort fun a b => a.start ≤ b.start).Pairwise
      (fun a b => a.start ≤ b.start) := by
    exact sorted_mergeSort Span.start places
  have hinj : ∀ a ∈ spans, ∀ b ∈ spans, a.start = b.start → a = b := by
    intro a ha b hb hab
    refine List.inj_on_of_nodup_map (f := Span.start) ?_ ha hb hab
    refine List.Pairwise.map _ ?_ h.pairwise
    intro a b hlt
    exact Nat.ne_of_lt hlt
  have hmerged : (places.mergeSort fun a b => a.start ≤ b.start).Perm spans :=
    (List.mergeSort_perm places _).trans hperm
  refine hmerged.eq_of_pairwise ?_ hsorted (h.pairwise.imp Nat.le_of_lt)
  intro a b ha hb hab hba
  exact hinj a (hmerged.subset ha) b hb (Nat.le_antisymm hab hba)

end Span.Tiles

/-- The span is that of a tag with this content: no opening delimiter begins in the
content. -/
def Span.IsTag (marks : Delimiters) (source : List Char) (span : Span) (braced : Bool)
    (content : List Char) : Prop :=
  ∃ before rest, source = before ++ ((Piece.tag braced content).source marks ++ rest) ∧
    span = .after before ((Piece.tag braced content).source marks) ∧
    NoneBegins marks.opening content (Piece.closer marks braced ++ rest)

theorem Span.IsTag.covers {marks : Delimiters} {source content : List Char} {span : Span}
    {braced : Bool} (h : span.IsTag marks source braced content) :
    span.Covers source ((Piece.tag braced content).source marks) := by
  obtain ⟨before, rest, hsource, hspan, -⟩ := h
  exact ⟨before, rest, hsource, hspan⟩

/-- No provider claims the tag, if the piece is one. -/
def Piece.Unclaimed (providers : List Provider) : Piece → Prop
  | tag _ content =>
      ∀ provider ∈ providers, provider.claimsTag (String.ofList (trim content)) = false
  | _ => True

theorem Piece.unclaimed_nil (piece : Piece) : piece.Unclaimed [] := by
  cases piece with
  | tag braced content => exact List.forall_mem_nil _
  | text source => trivial
  | unclosed braced rest => trivial

/-- The token tells what stands at its place: a text, or a tag with its class. -/
inductive Token.Stands (marks : Delimiters) (source : List Char) (token : Token) : Prop where
  | text (kind : token.kind = .text) (covers : token.span.Covers source token.value.toList)
  | tag {braced : Bool} {content : List Char}
      (place : token.span.IsTag marks source braced content)
      (hclass : classify? braced (trim content) = some (token.kind, token.value.toList))

theorem Token.Stands.covers {marks : Delimiters} {source : List Char} {token : Token}
    (h : token.Stands marks source) : ∃ inside, token.span.Covers source inside := by
  cases h with
  | text kind covers => exact ⟨_, covers⟩
  | tag place hclass => exact ⟨_, place.covers⟩

/-- The error tells what stands at its place: an empty tag, or an opening delimiter that
is not closed, which is part of the text of one token. -/
inductive ParseError.Stands (marks : Delimiters) (source : List Char) (tokens : List Token)
    (error : ParseError) : Prop where
  | empty {content : List Char} (fault : error.fault = .emptyTag)
      (place : error.span.IsTag marks source false content) (blank : trim content = [])
  | unclosed {braced : Bool} {rest : List Char}
      (fault : error.fault = .unclosedTag (String.ofList marks.opening)
        (String.ofList (Piece.closer marks braced)))
      (place : error.span.Covers source ((Piece.unclosed braced rest).source marks))
      {token : Token} (hmem : token ∈ tokens) (kind : token.kind = .text)
      (start_le : token.span.start ≤ error.span.start)
      (le_stop : error.span.stop ≤ token.span.stop)

theorem ParseError.Stands.covers {marks : Delimiters} {source : List Char} {tokens : List Token}
    {error : ParseError} (h : error.Stands marks source tokens) :
    ∃ inside, error.span.Covers source inside := by
  cases h with
  | empty fault place blank => exact ⟨_, place.covers⟩
  | unclosed fault place hmem kind start_le le_stop => exact ⟨_, place⟩

theorem ParseError.Stands.mono {marks : Delimiters} {source : List Char}
    {tokens tokens' : List Token} {error : ParseError} (h : error.Stands marks source tokens)
    (hkeeps : ∀ token ∈ tokens, token.kind = .text → ∃ token' ∈ tokens', token'.kind = .text ∧
      token'.span.start ≤ token.span.start ∧ token.span.stop ≤ token'.span.stop) :
    error.Stands marks source tokens' := by
  cases h with
  | empty fault place blank => exact .empty fault place blank
  | unclosed fault place hmem kind start_le le_stop =>
      obtain ⟨token', hmem', kind', hstart, hstop⟩ := hkeeps _ hmem kind
      exact .unclosed fault place hmem' kind' (hstart.trans start_le) (le_stop.trans hstop)

/-- The places of the empty tags. -/
def ParseError.emptyPlaces (errors : List ParseError) : List Span :=
  (errors.filter (·.fault = .emptyTag)).map ParseError.span

namespace Token

/-- Only an empty tag has no class. -/
theorem classify?_none {braced : Bool} {content : List Char}
    (h : classify? braced content = none) : braced = false ∧ content = [] := by
  unfold classify? at h
  grind

/-- The places of the tokens and of the empty tags, ordered by their starts. -/
def places (tokens : List Token) (errors : List ParseError) : List Span :=
  (tokens.map Token.span ++ ParseError.emptyPlaces errors).mergeSort
    fun a b => a.start ≤ b.start

/-- Tokens and errors account for a source: the places of the tokens and of the empty tags
are its parts from its start to its end, every token and every error tells what stands at
its place, and the tokens are in order. -/
structure AccountFor (marks : Delimiters) (source : List Char) (tokens : List Token)
    (errors : List ParseError) : Prop where
  tiles : Span.Tiles 0 (places tokens errors) (byteSize source)
  covers : ∀ span ∈ places tokens errors, ∃ inside, span.Covers source inside
  tokens_stand : ∀ token ∈ tokens, token.Stands marks source
  errors_stand : ∀ error ∈ errors, error.Stands marks source tokens
  ordered : tokens.Pairwise (·.span.stop ≤ ·.span.start)

namespace AccountFor

variable {marks : Delimiters} {source : List Char} {tokens : List Token}
  {errors : List ParseError}

theorem bounds (h : AccountFor marks source tokens errors) {token : Token}
    (hmem : token ∈ tokens) :
    token.span.start < token.span.stop ∧ token.span.stop ≤ byteSize source := by
  have hplace : token.span ∈ places tokens errors := by
    rw [places, List.mem_mergeSort]
    exact List.mem_append_left _ (List.mem_map_of_mem hmem)
  exact (h.tiles.bounds token.span hplace).2

/-- Tokens that account for a source start one after another. -/
theorem starts_lt (h : AccountFor marks source tokens errors) :
    tokens.Pairwise (·.span.start < ·.span.start) := by
  refine h.ordered.imp_of_mem ?_
  intro earlier later hearlier hlater hle
  exact (h.bounds hearlier).1.trans_le hle

/-- The value of a text is the part of the source at its place. -/
theorem slice_text (h : AccountFor marks source tokens errors) {token : Token}
    (hmem : token ∈ tokens) (kind : token.kind = .text) :
    slice? token.span.start token.span.stop source = some token.value.toList := by
  cases h.tokens_stand token hmem with
  | text kind covers => exact covers.slice
  | tag place hclass => exact absurd kind (classify?_ne_text hclass)

end AccountFor

namespace Scan

/-- What was scanned accounts for the text up to the offset that was reached. -/
structure Accounts (marks : Delimiters) (source before : List Char) (scan : Scan) : Prop where
  offset_eq : scan.offset = byteSize before
  tiles : ∃ spans, Span.Tiles 0 spans scan.offset ∧
    (scan.tokens.map Token.span ++ ParseError.emptyPlaces scan.errors).Perm spans
  tokens_stand : ∀ token ∈ scan.tokens, token.Stands marks source
  errors_stand : ∀ error ∈ scan.errors, error.Stands marks source scan.tokens
  ordered : scan.tokens.Pairwise fun later earlier => earlier.span.stop ≤ later.span.start

/-- Text joins the latest token if that is a text before it, or else is a token of its
own. -/
theorem addText_cases (lines : LineIndex) (scan : Scan) (text : List Char) :
    let stop := scan.offset + byteSize text
    (∃ last earlier, scan.tokens = last :: earlier ∧ last.kind = .text ∧
      last.span.stop = scan.offset ∧
      scan.addText lines text = ⟨stop, { last with
        value := last.value ++ String.ofList text, span.stop := stop } :: earlier, scan.errors⟩) ∨
    scan.addText lines text = ⟨stop, ⟨.text, String.ofList text, lines.span scan.offset stop⟩ ::
      scan.tokens, scan.errors⟩ := by
  by_cases hjoins : ∃ last ∈ scan.tokens.head?, last.kind = .text ∧ last.span.stop = scan.offset
  · obtain ⟨last, hhead, hjoins⟩ := hjoins
    obtain ⟨earlier, htokens⟩ := List.head?_eq_some_iff.mp hhead
    exact Or.inl ⟨last, earlier, htokens, hjoins.1, hjoins.2,
      addText_join lines htokens hjoins text⟩
  · exact Or.inr (addText_separate lines
      (fun last hhead hlast => hjoins ⟨last, hhead, hlast⟩) text)

variable {marks : Delimiters} {source before inside rest : List Char} {scan : Scan}

namespace Accounts

theorem tiles_snoc (h : scan.Accounts marks source before) (hsome : inside ≠ []) :
    ∃ spans, Span.Tiles 0 (spans ++ [.after before inside]) (byteSize (before ++ inside)) ∧
      (scan.tokens.map Token.span ++ ParseError.emptyPlaces scan.errors).Perm spans := by
  obtain ⟨spans, htiles, hperm⟩ := h.tiles
  have hpos := byteSize_pos hsome
  rw [h.offset_eq] at htiles
  have hsome : (Span.after before inside).start < (Span.after before inside).stop := by
    simp only [Span.after]
    omega
  rw [byteSize_append]
  exact ⟨spans, Span.Tiles.snoc htiles hsome, hperm⟩

theorem stop_le (h : scan.Accounts marks source before) :
    ∀ token ∈ scan.tokens, token.span.stop ≤ byteSize before := by
  intro token htoken
  obtain ⟨spans, htiles, hperm⟩ := h.tiles
  have hmem : token.span ∈ spans :=
    hperm.subset (List.mem_append_left _ (List.mem_map_of_mem htoken))
  have hbounds := htiles.bounds token.span hmem
  rw [h.offset_eq] at hbounds
  exact hbounds.2.2

/-- A token at the place behind the scanned text. -/
theorem push (h : scan.Accounts marks source before) {token : Token}
    (hspan : token.span = .after before inside) (hsome : inside ≠ [])
    (hstands : token.Stands marks source) :
    Accounts marks source (before ++ inside)
      ⟨byteSize (before ++ inside), token :: scan.tokens, scan.errors⟩ := by
  refine ⟨rfl, ?_, List.forall_mem_cons.mpr ⟨hstands, h.tokens_stand⟩, ?_, .cons ?_ h.ordered⟩
  · obtain ⟨spans, htiles, hperm⟩ := h.tiles_snoc hsome
    refine ⟨_, htiles, ?_⟩
    rw [List.map_cons, List.cons_append, hspan]
    exact (hperm.cons _).trans (List.perm_append_singleton _ _).symm
  · intro error herror
    exact (h.errors_stand error herror).mono fun token htoken kind =>
      ⟨token, List.mem_cons_of_mem _ htoken, kind, Nat.le_refl _, Nat.le_refl _⟩
  · intro earlier hearlier
    have hle := h.stop_le earlier hearlier
    rw [hspan]
    exact hle

/-- The latest token, a text that ends where the scanned text does, with more text. -/
theorem join (h : scan.Accounts marks source before) (hsource : source = before ++ (inside ++ rest))
    (hsome : inside ≠ []) {last : Token} {earlier : List Token}
    (htokens : scan.tokens = last :: earlier) (kind : last.kind = .text)
    (hstop : last.span.stop = byteSize before) :
    Accounts marks source (before ++ inside) ⟨byteSize (before ++ inside), { last with
      value := last.value ++ String.ofList inside,
      span.stop := byteSize (before ++ inside) } :: earlier, scan.errors⟩ := by
  obtain ⟨spans, htiles, hperm⟩ := h.tiles
  have hpos := byteSize_pos hsome
  have hstands := h.tokens_stand last (by simp [htokens])
  have hordered := h.ordered
  rw [h.offset_eq] at htiles
  rw [htokens] at hperm hordered
  refine ⟨rfl, ?_, List.forall_mem_cons.mpr ⟨.text kind ?_, ?_⟩, ?_, ?_⟩
  · -- the latest token has the last of the places, which now reaches further
    have hmem : last.span ∈ spans := hperm.subset (by simp)
    obtain ⟨front, rfl, hfront⟩ := htiles.last hmem hstop
    have hnew : (front ++ [last.span]).Perm (last.span :: front) := List.perm_append_singleton _ _
    have hrest := List.Perm.cons_inv (hperm.trans hnew)
    have hgrows : last.span.start < byteSize (before ++ inside) := by
      have hbounds := htiles.bounds last.span (by simp)
      rw [byteSize_append]
      omega
    have hsnoc : Span.Tiles 0 (front ++ [{ last.span with stop := byteSize (before ++ inside) }])
        (byteSize (before ++ inside)) := Span.Tiles.snoc hfront hgrows
    exact ⟨_, hsnoc, (hrest.cons _).trans (List.perm_append_singleton _ _).symm⟩
  · cases hstands with
    | text _ covers =>
        obtain ⟨first, after, hfirst, hspan⟩ := covers
        -- the text of the token ends where the scanned text does, so it is the end of it
        have hends : first ++ last.value.toList = before ∧ after = inside ++ rest := by
          refine append_inj_of_byteSize ?_ ?_
          · rw [← hsource, hfirst, List.append_assoc]
          · rw [byteSize_append, ← hstop, hspan]
            rfl
        obtain ⟨hbefore, rfl⟩ := hends
        refine ⟨first, rest, ?_, ?_⟩
        · rw [hsource, ← hbefore]
          simp
        · rw [hspan, ← hbefore]
          simp [Span.after]
    | tag place hclass => exact absurd kind (classify?_ne_text hclass)
  · intro token htoken
    exact h.tokens_stand token (htokens ▸ List.mem_cons_of_mem _ htoken)
  · intro error herror
    refine (h.errors_stand error herror).mono ?_
    rw [htokens]
    refine List.forall_mem_cons.mpr ⟨fun _ => ?_, ?_⟩
    · refine ⟨_, List.mem_cons_self .., kind, Nat.le_refl _, ?_⟩
      simp only [byteSize_append, hstop]
      omega
    · intro token htoken kind
      exact ⟨token, List.mem_cons_of_mem _ htoken, kind, Nat.le_refl _, Nat.le_refl _⟩
  · cases hordered with
    | cons hlast hearlier => exact .cons hlast hearlier

/-- Text is accounted for, and there is a token of a text that it is the end of. -/
theorem addText (h : scan.Accounts marks source before)
    (hsource : source = before ++ (inside ++ rest)) (hsome : inside ≠ []) :
    (scan.addText (.ofSource source) inside).Accounts marks source (before ++ inside) ∧
    ∃ token ∈ (scan.addText (.ofSource source) inside).tokens, token.kind = .text ∧
      token.span.start ≤ byteSize before ∧ token.span.stop = byteSize (before ++ inside) := by
  rcases addText_cases (.ofSource source) scan inside with
    ⟨last, earlier, htokens, kind, hstop, hadd⟩ | hadd
  · rw [hadd]
    rw [h.offset_eq] at hstop ⊢
    rw [← byteSize_append]
    refine ⟨h.join hsource hsome htokens kind hstop, _, List.mem_cons_self .., kind, ?_, rfl⟩
    obtain ⟨spans, htiles, hperm⟩ := h.tiles
    have hbounds := htiles.bounds last.span (hperm.subset (by simp [htokens]))
    rw [h.offset_eq] at hbounds
    exact Nat.le_of_lt (hbounds.2.1.trans_le hbounds.2.2)
  · have hspan : (LineIndex.ofSource source).span (byteSize before)
        (byteSize before + byteSize inside) = .after before inside := by
      rw [hsource, LineIndex.span_eq]
      rfl
    rw [hadd, h.offset_eq, hspan, ← byteSize_append]
    refine ⟨h.push rfl hsome (.text rfl ?_), _, List.mem_cons_self .., rfl, Nat.le_refl _,
      (byteSize_append ..).symm⟩
    rw [String.toList_ofList]
    exact ⟨before, rest, hsource, rfl⟩

/-- An error about a part of the text of a token. -/
theorem report (h : scan.Accounts marks source before) {error : ParseError}
    (hstands : error.Stands marks source scan.tokens) (hfault : error.fault ≠ .emptyTag) :
    Accounts marks source before { scan with errors := scan.errors ++ [error] } := by
  refine ⟨h.offset_eq, ?_, h.tokens_stand, ?_, h.ordered⟩
  · have hplaces : ParseError.emptyPlaces (scan.errors ++ [error]) =
        ParseError.emptyPlaces scan.errors := by
      simp [ParseError.emptyPlaces, hfault]
    simp only [hplaces]
    exact h.tiles
  · intro reported hreported
    rcases List.mem_append.mp hreported with hearlier | hlast
    · exact h.errors_stand reported hearlier
    · rw [List.mem_singleton.mp hlast]
      exact hstands

/-- An empty tag at the place behind the scanned text. -/
theorem pushEmpty (h : scan.Accounts marks source before) {content : List Char}
    (place : (Span.after before inside).IsTag marks source false content)
    (hsome : inside ≠ []) (blank : trim content = []) :
    Accounts marks source (before ++ inside) ⟨byteSize (before ++ inside), scan.tokens,
      scan.errors ++ [⟨.emptyTag, .after before inside⟩]⟩ := by
  refine ⟨rfl, ?_, h.tokens_stand, ?_, h.ordered⟩
  · obtain ⟨spans, htiles, hperm⟩ := h.tiles_snoc hsome
    refine ⟨_, htiles, ?_⟩
    have hplaces : ParseError.emptyPlaces
        (scan.errors ++ [⟨.emptyTag, .after before inside⟩]) =
        ParseError.emptyPlaces scan.errors ++ [.after before inside] := by
      simp [ParseError.emptyPlaces]
    rw [hplaces, ← List.append_assoc]
    exact hperm.append_right _
  · intro reported hreported
    rcases List.mem_append.mp hreported with hearlier | hlast
    · exact h.errors_stand reported hearlier
    · rw [List.mem_singleton.mp hlast]
      exact .empty rfl place blank

theorem addUnclosed (h : scan.Accounts marks source before) (providers : List Provider)
    (braced : Bool) (inside : List Char)
    (hsource : source = before ++ ((Piece.unclosed braced inside).source marks ++ rest)) :
    (scan.addPiece marks providers (.ofSource source) (.unclosed braced inside)).Accounts marks
      source (before ++ (Piece.unclosed braced inside).source marks) := by
  have hcut : (Piece.unclosed braced inside).IsCut marks rest := trivial
  have hsome := Piece.source_ne_nil marks hcut
  obtain ⟨hadd, token, hmem, kind, hstart, hstop⟩ := h.addText hsource hsome
  -- the error is there before the text of the token that it is about
  have hlater (error : ParseError) :
      { scan with errors := scan.errors ++ [error] }.addText (.ofSource source)
          ((Piece.unclosed braced inside).source marks) =
        { scan.addText (.ofSource source) ((Piece.unclosed braced inside).source marks) with
          errors := (scan.addText (.ofSource source)
            ((Piece.unclosed braced inside).source marks)).errors ++ [error] } := rfl
  simp only [addPiece, hlater]
  refine hadd.report ?_ (by simp)
  have hcovers := Span.covers_span before ((Piece.unclosed braced inside).source marks) rest
  rw [← hsource, ← h.offset_eq] at hcovers
  refine .unclosed rfl hcovers hmem kind ?_ ?_
  · rw [← h.offset_eq] at hstart
    exact hstart
  · rw [hstop, byteSize_append, ← h.offset_eq]
    exact Nat.le_refl _

theorem addTag (h : scan.Accounts marks source before) {providers : List Provider}
    {braced : Bool} {content : List Char}
    (hsource : source = before ++ ((Piece.tag braced content).source marks ++ rest))
    (hcut : (Piece.tag braced content).IsCut marks rest)
    (hunclaimed : (Piece.tag braced content).Unclaimed providers) :
    (scan.addPiece marks providers (.ofSource source) (.tag braced content)).Accounts marks
      source (before ++ (Piece.tag braced content).source marks) := by
  have hsome := Piece.source_ne_nil marks hcut
  have hnone : providers.find? (·.claimsTag (String.ofList (trim content))) = none := by
    rw [List.find?_eq_none]
    intro provider hprovider
    rw [hunclaimed provider hprovider]
    exact Bool.false_ne_true
  have hspan : (LineIndex.ofSource source).span scan.offset
      (scan.offset + byteSize ((Piece.tag braced content).source marks)) =
        .after before ((Piece.tag braced content).source marks) := by
    rw [hsource, h.offset_eq, LineIndex.span_eq]
    rfl
  have hstop : (Span.after before ((Piece.tag braced content).source marks)).stop =
      byteSize (before ++ (Piece.tag braced content).source marks) := by
    rw [byteSize_append]
    rfl
  have place : (Span.after before ((Piece.tag braced content).source marks)).IsTag marks source
      braced content := ⟨before, rest, hsource, rfl, hcut⟩
  simp only [addPiece, Scan.addTag, hspan, hnone, hstop]
  split
  · rename_i kind value hclass
    exact h.push rfl hsome (.tag place (by rw [hclass, String.toList_ofList]))
  · rename_i hclass
    obtain ⟨rfl, blank⟩ := classify?_none hclass
    exact h.pushEmpty place hsome blank

/-- A piece at the place behind the scanned text is accounted for. -/
theorem addPiece (h : scan.Accounts marks source before) {providers : List Provider}
    {piece : Piece} (hsource : source = before ++ (piece.source marks ++ rest))
    (hcut : piece.IsCut marks rest) (hunclaimed : piece.Unclaimed providers) :
    (scan.addPiece marks providers (.ofSource source) piece).Accounts marks source
      (before ++ piece.source marks) := by
  cases piece with
  | text inside => exact (h.addText hsource hcut).1
  | unclosed braced inside => exact h.addUnclosed providers braced inside hsource
  | tag braced content => exact h.addTag hsource hcut hunclaimed

theorem addPieces (h : scan.Accounts marks source before) {providers : List Provider}
    {pieces : List Piece} (hsource : source = before ++ pieces.flatMap (Piece.source marks))
    (hcut : Piece.AreCut marks pieces)
    (hunclaimed : ∀ piece ∈ pieces, piece.Unclaimed providers) :
    (pieces.foldl (Scan.addPiece marks providers (.ofSource source)) scan).Accounts marks source
      source := by
  induction pieces generalizing scan before with
  | nil =>
      rw [List.flatMap_nil, List.append_nil] at hsource
      rw [List.foldl_nil, hsource]
      exact hsource ▸ h
  | cons piece pieces ih =>
      rw [List.flatMap_cons] at hsource
      have hpiece := h.addPiece hsource hcut.1 (hunclaimed piece (List.mem_cons_self ..))
      refine ih hpiece ?_ hcut.2 fun piece hpiece =>
        hunclaimed piece (List.mem_cons_of_mem _ hpiece)
      rw [hsource, List.append_assoc]

end Accounts

theorem accounts_empty (marks : Delimiters) (source : List Char) :
    Accounts marks source [] ⟨0, [], []⟩ where
  offset_eq := rfl
  tiles := ⟨[], .nil 0, .nil⟩
  tokens_stand token htoken := by cases htoken
  errors_stand error herror := by cases herror
  ordered := .nil

/-- A scan of a whole source accounts for it. -/
theorem Accounts.accountFor (h : scan.Accounts marks source source) :
    AccountFor marks source scan.tokens.reverse scan.errors := by
  obtain ⟨spans, htiles, hperm⟩ := h.tiles
  have hplaces : places scan.tokens.reverse scan.errors = spans := by
    refine htiles.mergeSort_eq (List.Perm.trans ?_ hperm)
    rw [List.map_reverse]
    exact (List.reverse_perm _).append_right _
  have hstand : ∀ error ∈ scan.errors, error.Stands marks source scan.tokens.reverse := by
    intro error herror
    exact (h.errors_stand error herror).mono fun token htoken kind =>
      ⟨token, List.mem_reverse.mpr htoken, kind, Nat.le_refl _, Nat.le_refl _⟩
  refine ⟨?_, ?_, fun token htoken => h.tokens_stand token (List.mem_reverse.mp htoken), hstand,
    List.pairwise_reverse.mpr h.ordered⟩
  · rw [hplaces, ← h.offset_eq]
    exact htiles
  · rw [hplaces]
    intro span hspan
    rcases List.mem_append.mp (hperm.symm.subset hspan) with htoken | hempty
    · obtain ⟨token, hmem, rfl⟩ := List.mem_map.mp htoken
      exact (h.tokens_stand token hmem).covers
    · obtain ⟨error, hmem, rfl⟩ := List.mem_map.mp hempty
      exact (h.errors_stand error (List.mem_filter.mp hmem).1).covers

end Scan

/-- Scanning accounts for a source of which no provider claims a tag. -/
theorem accountFor_scan (settings : Settings) {marks : Delimiters}
    (hmarks : settings.delimiters? = some marks) (providers : List Provider) (source : String)
    (hunclaimed : ∀ piece ∈ Piece.ofSource marks source.toList, piece.Unclaimed providers) :
    AccountFor marks source.toList (scan settings providers source).1
      (scan settings providers source).2 := by
  have hsource : source.toList =
      [] ++ (Piece.ofSource marks source.toList).flatMap (Piece.source marks) := by
    rw [List.nil_append, Piece.flatMap_ofSource]
  have hscan := (Scan.accounts_empty marks source.toList).addPieces hsource
    (Piece.areCut_ofSource marks source.toList) hunclaimed
  rw [scan, hmarks]
  exact hscan.accountFor

/-- Scanning ends and accounts for every byte. Between delimiters of any kind, and if no
provider claims a tag, the places of the tokens and of the empty tags are not empty and
follow one another from the start of the source to its end, between characters. Each
token has the text of its place or is the tag there, an error is about an empty tag or
about an opening delimiter in the text of a token, and later tokens start later. -/
theorem scan_tiles (settings : Settings) {marks : Delimiters}
    (hmarks : settings.delimiters? = some marks) (providers : List Provider) (source : String)
    (hunclaimed : ∀ piece ∈ Piece.ofSource marks source.toList, piece.Unclaimed providers) :
    AccountFor marks source.toList (scan settings providers source).1
      (scan settings providers source).2 ∧
    (scan settings providers source).1.Pairwise (·.span.start < ·.span.start) ∧
    (∀ token ∈ (scan settings providers source).1, token.kind = .text →
      slice? token.span.start token.span.stop source.toList = some token.value.toList) ∧
    Piece.cutWithin? marks source.length source.toList =
      some (Piece.ofSource marks source.toList) := by
  have haccount := accountFor_scan settings hmarks providers source hunclaimed
  refine ⟨haccount, haccount.starts_lt, fun token => haccount.slice_text,
    Piece.cutWithin?_length marks ?_⟩
  rw [String.length_toList]

end Token

/-- Delimiters of several bytes. -/
def Delimiters.angles : Delimiters :=
  ⟨['⟨'], ['⟩'], by simp, by simp⟩

def Settings.angled : Settings :=
  { Settings.default with opening := "⟨", closing := "⟩" }

/-- A text with an opening delimiter that is not closed, a tag, an empty tag, a tag with
braces, and a text. -/
def Token.angledSource : String :=
  "é⟨\n⟨ a ⟩⟨⟩⟨\x7bb\x7d⟩x"

theorem Token.scan_tiles_angles :
    Settings.angled.delimiters? = some .angles ∧
    (∀ piece ∈ Piece.ofSource .angles angledSource.toList, piece.Unclaimed [.counting]) ∧
    AccountFor .angles angledSource.toList (scan Settings.angled [.counting] angledSource).1
      (scan Settings.angled [.counting] angledSource).2 ∧
    (scan Settings.angled [.counting] angledSource).1.map Token.span =
      [⟨0, 6, 1, 1⟩, ⟨6, 15, 2, 1⟩, ⟨21, 30, 2, 8⟩, ⟨30, 31, 2, 13⟩] ∧
    (scan Settings.angled [.counting] angledSource).2 =
      [⟨.unclosedTag "⟨" "⟩", ⟨2, 6, 1, 2⟩⟩, ⟨.emptyTag, ⟨15, 21, 2, 6⟩⟩] := by
  have hunclaimed : ∀ piece ∈ Piece.ofSource .angles angledSource.toList,
      piece.Unclaimed [.counting] := by
    have hcut := Piece.cutWithin?_length .angles (Nat.le_refl angledSource.toList.length)
    have hpieces : Piece.cutWithin? .angles angledSource.toList.length angledSource.toList =
        some [.text ['é'], .unclosed false ['\n'], .tag false [' ', 'a', ' '], .tag false [],
          .tag true ['b'], .text ['x']] := rfl
    rw [← Option.some.inj (hpieces.symm.trans hcut)]
    simp only [List.forall_mem_cons, Piece.Unclaimed]
    exact ⟨trivial, trivial, by decide, by decide, by decide, trivial, List.forall_mem_nil _⟩
  exact ⟨rfl, hunclaimed, (scan_tiles Settings.angled rfl _ _ hunclaimed).1, by decide +kernel,
    by decide +kernel⟩

end Stencil
