import Stencil.Diagnostic.Errors
import Stencil.Document.Parser
import Stencil.Proofs.Document.Recovery
import Stencil.Proofs.Token.Tiling

/-!
Where the errors of a template are. Every error is about a part of the source: a tag, an
opening delimiter with the text behind it, or nothing at the start of a source that cannot
be scanned. So each of them is reported with a snippet of the source.
-/

namespace Stencil

open Text

/-- What is wrong inside a token is at the place of the token. -/
theorem Token.span_of_mem_ownErrors {token : Token} :
    ∀ error ∈ token.ownErrors, error.span = token.span := by
  have hread : ∀ error ∈ (Expression.read token.value token.span).2, error.span = token.span := by
    intro error herror
    obtain ⟨fault, -, rfl⟩ := List.mem_map.mp herror
    rfl
  intro error herror
  unfold ownErrors at herror
  split at herror
  · exact hread error herror
  · exact hread error herror
  · split at herror
    · rw [List.mem_singleton.mp herror]
    · cases herror
  · split at herror
    · rw [List.mem_singleton.mp herror]
    · cases herror
  · cases herror

namespace Builder

variable {escaping : Bool} {builder after : Builder} {index : Nat} {token : Token}

/-- What is reported when a token is handled is at the place of the token. -/
theorem Step.span_of_mem_errors (h : Step escaping index token builder after) :
    ∀ error ∈ after.errors, error ∈ builder.errors ∨ error.span = token.span := by
  have hown : ∀ error ∈ builder.errors ++ token.ownErrors,
      error ∈ builder.errors ∨ error.span = token.span := by
    intro error herror
    exact (List.mem_append.mp herror).imp_right (Token.span_of_mem_ownErrors error)
  cases h with
  | grows isSingle result =>
      rw [result, errors_grow]
      exact hown
  | opens _ result =>
      rw [result]
      exact hown
  | closes _ _ _ result =>
      rw [result, errors_grow, List.append_nil]
      exact fun error => Or.inl
  | branches _ _ _ _ result =>
      rw [result]
      exact fun error => Or.inl
  | refuses fault _ _ result =>
      rw [result]
      intro error herror
      rcases List.mem_append.mp herror with hearlier | hlast
      · exact Or.inl hearlier
      · rw [List.mem_singleton.mp hlast]
        exact Or.inr rfl

theorem span_of_mem_errors (builder : Builder) (index : Nat) (tokens : List Token) :
    ∀ error ∈ (builder.addTokens escaping [] index tokens).errors,
      error ∈ builder.errors ∨ ∃ token ∈ tokens, error.span = token.span := by
  induction tokens generalizing builder index with
  | nil => exact fun error => Or.inl
  | cons token tokens ih =>
      intro error herror
      rw [addTokens_cons] at herror
      rcases ih _ _ error herror with hbefore | ⟨later, hlater, hspan⟩
      · rcases (builder.step_addBuiltin escaping index token).span_of_mem_errors error hbefore with
          hearlier | hspan
        · exact Or.inl hearlier
        · exact Or.inr ⟨token, List.mem_cons_self .., hspan⟩
      · exact Or.inr ⟨later, List.mem_cons_of_mem _ hlater, hspan⟩

end Builder

/-- Every error of the tree of tokens is at the place of one of them. -/
theorem Item.span_of_mem_errors (escaping : Bool) (tokens : List Token) :
    ∀ error ∈ (ofTokens escaping [] tokens).2, ∃ token ∈ tokens, error.span = token.span := by
  intro error herror
  rw [ofTokens, Builder.finish, Builder.closeAll_eq] at herror
  rcases List.mem_append.mp herror with hrun | hopen
  · rcases Builder.span_of_mem_errors .empty 0 tokens error hrun with hnone | htoken
    · cases hnone
    · exact htoken
  · obtain ⟨block, hblock, rfl⟩ := List.mem_map.mp hopen
    exact Builder.span_of_mem_blocks escaping tokens hblock

/-- Each error of a template is about a part of its source. -/
theorem Document.covers_of_mem_errors (settings : Settings) (source : String) :
    ∀ error ∈ (parse settings [] source).errors,
      ∃ inside, error.span.Covers source.toList inside := by
  intro error herror
  have hmem : error ∈ (Token.scan settings [] source).2 ++
      (Item.ofTokens (!settings.disablesEscaping) [] (Token.scan settings [] source).1).2 :=
    List.mem_mergeSort.mp herror
  cases hmarks : settings.delimiters? with
  | none =>
      have hscan : Token.scan settings [] source =
          ([], [⟨.emptyDelimiter settings.opening settings.closing, ⟨0, 0, 1, 1⟩⟩]) := by
        rw [Token.scan, hmarks]
      rw [hscan] at hmem
      rcases List.mem_append.mp hmem with hdelimiter | htree
      · rw [List.mem_singleton.mp hdelimiter]
        exact ⟨[], [], source.toList, rfl, rfl⟩
      · obtain ⟨token, htoken, -⟩ := Item.span_of_mem_errors _ _ error htree
        cases htoken
  | some marks =>
      have haccount := Token.accountFor_scan settings hmarks [] source
        (fun piece _ => piece.unclaimed_nil)
      rcases List.mem_append.mp hmem with hscanned | htree
      · exact (haccount.errors_stand error hscanned).covers
      · obtain ⟨token, htoken, hspan⟩ := Item.span_of_mem_errors _ _ error htree
        rw [hspan]
        exact (haccount.tokens_stand token htoken).covers

/-- The span of a part of a source has its range in characters. -/
theorem Label.ofSpan?_covers {source : String} {span : Span} {inside : List Char}
    (h : span.Covers source.toList inside) (message : String) :
    ∃ label, Label.ofSpan? source span message = some label ∧ label.message = message ∧
      label.start ≤ label.stop ∧ label.stop ≤ source.length := by
  obtain ⟨before, rest, hsource, rfl⟩ := h
  have hstart : splitAt? (byteSize before) source.toList = some (before, inside ++ rest) := by
    rw [hsource, splitAt?_append]
  have hstop : splitAt? (max (byteSize before + byteSize inside) (byteSize before))
      source.toList = some (before ++ inside, rest) := by
    rw [Nat.max_eq_left (Nat.le_add_right _ _), hsource, ← List.append_assoc, ← byteSize_append,
      splitAt?_append]
  refine ⟨⟨before.length, (before ++ inside).length, message⟩, ?_, rfl, ?_, ?_⟩
  · simp only [ofSpan?, Span.after, hstart, hstop]
    rfl
  · rw [List.length_append]
    exact Nat.le_add_right _ _
  · rw [← String.length_toList, hsource, ← List.append_assoc]
    exact (List.prefix_append (before ++ inside) rest).length_le

/-- The text of a diagnostic as a snippet of a source, if it is about a place in it. -/
def Diagnostic.snippetText? (diagnostic : Diagnostic) (file : SourceFile) (drawing : Drawing) :
    Option String :=
  (diagnostic.snippet? file).map fun snippet =>
    String.join ((drawing.lines snippet).map (· ++ "\n")) ++ diagnostic.remainder

theorem Diagnostic.text_of_snippetText? {diagnostic : Diagnostic} {file : SourceFile}
    {drawing : Drawing} {text : String} (h : diagnostic.snippetText? file drawing = some text) :
    diagnostic.text (some file) drawing = text := by
  obtain ⟨snippet, hsnippet, rfl⟩ := Option.map_eq_some_iff.mp h
  simp only [Diagnostic.text, Option.bind_some, hsnippet]

/-- An error about a part of a source is reported with a snippet. -/
theorem ParseError.snippetText?_covers {error : ParseError} {file : SourceFile}
    {inside : List Char} (h : error.span.Covers file.content.toList inside) (drawing : Drawing) :
    error.diagnostic.snippetText? file drawing =
      some (error.diagnostic.text (some file) drawing) := by
  obtain ⟨label, hlabel, -⟩ := Label.ofSpan?_covers h error.message
  have hsnippet : error.diagnostic.snippet? file =
      some ⟨error.diagnostic.severity, error.diagnostic.heading, file, label,
        error.diagnostic.detailLabels file.content⟩ := by
    have hplace : error.diagnostic.place? = some error.span := rfl
    have hproblem : error.diagnostic.problem = some error.message := rfl
    simp only [Diagnostic.snippet?, hplace, hproblem, Option.getD_some]
    rw [Option.bind_eq_bind, Option.bind_some, Option.bind_eq_bind, hlabel]
    rfl
  obtain ⟨text, htext⟩ : ∃ text, error.diagnostic.snippetText? file drawing = some text := by
    rw [Diagnostic.snippetText?, hsnippet]
    exact ⟨_, rfl⟩
  rw [htext, Diagnostic.text_of_snippetText? htext]

/-- The report of errors made of snippets alone, if there is one for each error. -/
def ParseError.snippetReport? (file : SourceFile) (errors : List ParseError)
    (drawing : Drawing) : Option String :=
  let texts := errors.mapM fun error : ParseError => error.diagnostic.snippetText? file drawing
  texts.map (String.intercalate "\n")

theorem ParseError.snippetReport?_covers {file : SourceFile} {errors : List ParseError}
    (h : ∀ error ∈ errors, ∃ inside, error.span.Covers file.content.toList inside)
    (drawing : Drawing) :
    snippetReport? file errors drawing = some (report file errors drawing) := by
  have hsnippets :
      (errors.mapM fun error : ParseError => error.diagnostic.snippetText? file drawing) =
        some (errors.map fun error => error.diagnostic.text (some file) drawing) := by
    induction errors with
    | nil => rfl
    | cons error errors ih =>
        obtain ⟨⟨inside, hinside⟩, hrest⟩ := List.forall_mem_cons.mp h
        rw [List.mapM_cons, snippetText?_covers hinside drawing, ih hrest]
        rfl
  rw [snippetReport?, hsnippets]
  rfl

/-- Where an error is: at a part of the source, given by the text before it, which has its
range in characters whatever a label there says. -/
structure ParseError.IsLocated (source : String) (error : ParseError) : Prop where
  start_le : error.span.start ≤ error.span.stop
  le_size : error.span.stop ≤ byteSize source.toList
  covers : ∃ inside, error.span.Covers source.toList inside
  label : ∀ message, ∃ label, Label.ofSpan? source error.span message = some label ∧
    label.start ≤ label.stop ∧ label.stop ≤ source.length

namespace Document

/-- Every error of a template points into its source. Whatever the delimiters are, without
providers the errors are those of scanning and of the tree, in the order of their starts;
each is at a part of the source, with the line and the column of its start; and the report
of them is made of snippets of the source alone, whatever draws them. -/
theorem errors_located (settings : Settings) (source name : String) :
    let document := parse settings [] source
    let scanned := Token.scan settings [] source
    document.errors.Pairwise (·.span.start ≤ ·.span.start) ∧
    document.errors.Perm
      (scanned.2 ++ (Item.ofTokens (!settings.disablesEscaping) [] scanned.1).2) ∧
    (∀ error ∈ document.errors, error.IsLocated source) ∧
    ∀ drawing, ParseError.snippetReport? ⟨name, source⟩ document.errors drawing =
      some (ParseError.report ⟨name, source⟩ document.errors drawing) := by
  intro document scanned
  have hcovers := covers_of_mem_errors settings source
  refine ⟨?_, List.mergeSort_perm _ _, ?_, ParseError.snippetReport?_covers hcovers⟩
  · exact sorted_mergeSort (fun error : ParseError => error.span.start) _
  · intro error herror
    obtain ⟨inside, hinside⟩ := hcovers error herror
    refine ⟨?_, hinside.stop_le, ⟨inside, hinside⟩, ?_⟩
    · rw [hinside.stop_eq]
      exact Nat.le_add_right _ _
    · intro message
      obtain ⟨label, hlabel, -, hbounds⟩ := Label.ofSpan?_covers hinside message
      exact ⟨label, hlabel, hbounds⟩

end Document

end Stencil
