import Stencil.Diagnostic.Text
import Stencil.Proofs.Span.Position

/-!
What the text of a diagnostic tells. The title, the problem, the details and the hints
stand in lines of the text or are messages of the labels of its snippet. The exception are
details that point at no part of the content: where a snippet is drawn, they are neither
labels nor lines, and the text is the one without them.
-/

namespace Stencil

open Text

/-- A text is made of lines of which one is the given one. A line may itself have breaks
in it. -/
def HasLine (text line : String) : Prop :=
  ∃ before after : List String, text = String.join ((before ++ line :: after).map (· ++ "\n"))

theorem hasLine_of_mem {text line : String} {lines : List String}
    (htext : text = String.join (lines.map (· ++ "\n"))) (h : line ∈ lines) :
    HasLine text line := by
  obtain ⟨before, after, rfl⟩ := List.append_of_mem h
  exact ⟨before, after, htext⟩

theorem HasLine.subset {text line : String} (h : HasLine text line) :
    line.toList ⊆ text.toList := by
  obtain ⟨before, after, rfl⟩ := h
  intro c hc
  simp [hc]

/-- An offset between two characters of a content, or at one of its ends. -/
def IsBoundary (content : List Char) (offset : Nat) : Prop :=
  ∃ before after, content = before ++ after ∧ offset = byteSize before

/-- A span that starts and ends between characters of a content. One that ends before it
starts counts as empty. -/
structure Span.PointsInto (span : Span) (content : List Char) : Prop where
  start : IsBoundary content span.start
  stop : IsBoundary content (max span.stop span.start)

namespace Label

variable {content message : String} {span : Span} {label : Label}

theorem ofSpan?_eq_some_iff : ofSpan? content span message = some label ↔
    ∃ before after upTo rest, splitAt? span.start content.toList = some (before, after) ∧
      splitAt? (max span.stop span.start) content.toList = some (upTo, rest) ∧
      label = ⟨before.length, upTo.length, message⟩ := by
  rcases hstart : splitAt? span.start content.toList with - | ⟨before, after⟩
  · simp [ofSpan?, hstart]
  · rcases hstop : splitAt? (max span.stop span.start) content.toList with - | ⟨upTo, rest⟩
    · simp [ofSpan?, hstart, hstop]
    · simp [ofSpan?, hstart, hstop, eq_comm]

/-- The spans with a label are those that point into the content. -/
theorem isSome_ofSpan?_iff : (ofSpan? content span message).isSome ↔
    span.PointsInto content.toList := by
  rw [Option.isSome_iff_exists]
  constructor
  · rintro ⟨label, h⟩
    obtain ⟨before, after, upTo, rest, hstart, hstop, -⟩ := ofSpan?_eq_some_iff.mp h
    exact ⟨⟨before, after, splitAt?_eq_some_iff.mp hstart⟩,
      ⟨upTo, rest, splitAt?_eq_some_iff.mp hstop⟩⟩
  · rintro ⟨⟨before, after, hstart⟩, ⟨upTo, rest, hstop⟩⟩
    exact ⟨_, ofSpan?_eq_some_iff.mpr ⟨before, after, upTo, rest,
      splitAt?_eq_some_iff.mpr hstart, splitAt?_eq_some_iff.mpr hstop, rfl⟩⟩

theorem message_of_ofSpan? (h : ofSpan? content span message = some label) :
    label.message = message := by
  obtain ⟨-, -, -, -, -, -, rfl⟩ := ofSpan?_eq_some_iff.mp h
  rfl

theorem ofSpan?_eq_none (h : ¬span.PointsInto content.toList) :
    ofSpan? content span message = none := by
  rw [← Option.not_isSome_iff_eq_none, isSome_ofSpan?_iff]
  exact h

end Label

instance (span : Span) (content : String) : Decidable (span.PointsInto content.toList) :=
  decidable_of_iff (Label.ofSpan? content span "").isSome Label.isSome_ofSpan?_iff

/-- A detail with a place that is no part of a content. -/
def Detail.IsStray (detail : Detail) (content : List Char) : Prop :=
  ∃ span, detail.span = some span ∧ ¬span.PointsInto content

namespace Diagnostic

variable (diagnostic : Diagnostic) {source : Option SourceFile} {file : SourceFile}
  {snippet : Snippet}

/-- The line of a detail behind its bullet. -/
def bulleted (detail : Detail) : String :=
  detail.kind.bullet ++ " " ++ detail.text

/-- The text of a diagnostic with a source starts with a snippet of it, and one of the labels
of the snippet is a message at the given place. -/
def HasLabel (source : Option SourceFile) (place : Option Span) (message : String) : Prop :=
  ∃ file snippet span label, source = some file ∧ diagnostic.snippet? file = some snippet ∧
    place = some span ∧ Label.ofSpan? file.content span message = some label ∧
    label ∈ snippet.labels ∧ label.message = message

/-- A snippet of the source is drawn, and the place of the detail is no part of it. -/
def LeavesOut (source : Option SourceFile) (detail : Detail) : Prop :=
  ∃ file, source = some file ∧ (diagnostic.snippet? file).isSome ∧
    detail.IsStray file.content.toList

section Lines

variable {diagnostic}

theorem text_of_snippet? (drawing : Drawing) (h : diagnostic.snippet? file = some snippet) :
    diagnostic.text (some file) drawing = String.join ((drawing.lines snippet ++
      (diagnostic.details.filter (·.span.isNone)).map bulleted ++
      diagnostic.hints.map ("? " ++ ·)).map (· ++ "\n")) := by
  simp only [text, Option.bind_some, h, remainder, hintLines, List.map_append, List.map_map,
    String.join_append, String.append_assoc]
  rfl

theorem exists_plainHeading_eq (diagnostic : Diagnostic) :
    ∃ first, diagnostic.plainHeading = first ++ "\n" ∧
      diagnostic.title.toList <:+: first.toList := by
  refine ⟨_, rfl, ?_⟩
  rw [String.toList_append, String.toList_append]
  exact (List.suffix_append _ _).isInfix.trans (List.prefix_append _ _).isInfix

/-- Without a snippet the text has every detail behind a bullet. -/
theorem exists_text_eq (drawing : Drawing) (h : source.bind diagnostic.snippet? = none) :
    ∃ first, diagnostic.title.toList <:+: first.toList ∧
      diagnostic.text source drawing = String.join ((first :: (diagnostic.problem.toList ++
        diagnostic.details.map bulleted ++ diagnostic.hints.map ("? " ++ ·))).map (· ++ "\n")) := by
  obtain ⟨first, hfirst, htitle⟩ := exists_plainHeading_eq diagnostic
  refine ⟨first, htitle, ?_⟩
  simp only [text, h, plainText, hfirst, hintLines, List.map_cons, List.map_append, List.map_map,
    String.join_cons, String.join_append, String.append_assoc]
  cases diagnostic.problem with
  | none =>
      simp only [Option.toList_none, List.map_nil, String.join_nil, String.empty_append]
      rfl
  | some problem =>
      simp only [Option.toList_some, List.map_cons, List.map_nil, String.join_cons,
        String.join_nil, String.append_empty, String.append_assoc]
      rfl

end Lines

section Labels

variable {diagnostic}

theorem snippet?_eq_some_iff : diagnostic.snippet? file = some snippet ↔
    ∃ span main, diagnostic.place? = some span ∧
      Label.ofSpan? file.content span (diagnostic.problem.getD diagnostic.title) = some main ∧
      snippet = ⟨diagnostic.severity, diagnostic.heading, file, main,
        diagnostic.detailLabels file.content⟩ := by
  constructor
  · intro h
    obtain ⟨span, hplace, h⟩ := Option.bind_eq_some_iff.mp h
    obtain ⟨main, hmain, h⟩ := Option.bind_eq_some_iff.mp h
    exact ⟨span, main, hplace, hmain, (Option.some.inj h).symm⟩
  · rintro ⟨span, main, hplace, hmain, rfl⟩
    simp [snippet?, hplace, hmain]

/-- The main label of a snippet is that of the problem. -/
theorem hasLabel_problem (h : diagnostic.snippet? file = some snippet) {problem : String}
    (hproblem : diagnostic.problem = some problem) :
    diagnostic.HasLabel (some file) diagnostic.place? problem := by
  obtain ⟨span, main, hplace, hmain, rfl⟩ := snippet?_eq_some_iff.mp h
  rw [hproblem] at hmain
  exact ⟨file, _, span, main, rfl, h, hplace, hmain, List.mem_cons_self ..,
    Label.message_of_ofSpan? hmain⟩

theorem title_infix_headline (h : diagnostic.snippet? file = some snippet) :
    diagnostic.title.toList <:+: snippet.headline.toList := by
  obtain ⟨span, main, -, -, rfl⟩ := snippet?_eq_some_iff.mp h
  have hheading : diagnostic.title.toList <:+ diagnostic.heading.toList := by
    unfold heading
    split
    · rw [String.toList_append]
      exact List.suffix_append _ _
    · exact List.suffix_rfl
  rw [Snippet.headline, String.toList_append]
  exact (hheading.trans (List.suffix_append _ _)).isInfix

/-- A detail that points into the content of a drawn snippet has a label. -/
theorem hasLabel_detail (h : diagnostic.snippet? file = some snippet) {detail : Detail}
    (hmem : detail ∈ diagnostic.details) {span : Span} (hspan : detail.span = some span)
    (hinto : span.PointsInto file.content.toList) :
    diagnostic.HasLabel (some file) detail.span detail.text := by
  obtain ⟨-, main, -, -, rfl⟩ := snippet?_eq_some_iff.mp h
  obtain ⟨label, hlabel⟩ := Option.isSome_iff_exists.mp (Label.isSome_ofSpan?_iff.mpr hinto)
  have hdetail : label ∈ diagnostic.detailLabels file.content := by
    refine List.mem_filterMap.mpr ⟨detail, hmem, ?_⟩
    rw [hspan]
    exact hlabel
  exact ⟨file, _, span, label, rfl, h, hspan, hlabel, List.mem_cons_of_mem _ hdetail,
    Label.message_of_ofSpan? hlabel⟩

end Labels

section Strays

variable {diagnostic} {before after : List Detail} {detail : Detail}

/-- The place of a drawn snippet is never that of a stray detail. -/
theorem place?_without (hdetails : diagnostic.details = before ++ detail :: after)
    (hdrawn : (diagnostic.snippet? file).isSome) (hstray : detail.IsStray file.content.toList) :
    { diagnostic with details := before ++ after }.place? = diagnostic.place? := by
  obtain ⟨snippet, hsnippet⟩ := Option.isSome_iff_exists.mp hdrawn
  obtain ⟨place, main, hplace, hmain, -⟩ := snippet?_eq_some_iff.mp hsnippet
  obtain ⟨span, hspan, hoff⟩ := hstray
  have hinto : place ≠ span := by
    rintro rfl
    rw [Label.ofSpan?_eq_none hoff] at hmain
    cases hmain
  simp only [place?, hdetails, List.findSome?_append, List.findSome?_cons, hspan] at hplace ⊢
  cases hlocation : diagnostic.location with
  | some location => rfl
  | none =>
      rw [hlocation] at hplace
      cases hbefore : before.findSome? Detail.span with
      | some first => rfl
      | none =>
          rw [hbefore] at hplace
          exact absurd (Option.some.inj hplace).symm hinto

/-- A text with a snippet is the same without a stray detail. -/
theorem text_without_stray (drawing : Drawing)
    (hdetails : diagnostic.details = before ++ detail :: after)
    (hdrawn : (diagnostic.snippet? file).isSome) (hstray : detail.IsStray file.content.toList) :
    { diagnostic with details := before ++ after }.text (some file) drawing =
      diagnostic.text (some file) drawing := by
  have hplace := place?_without hdetails hdrawn hstray
  obtain ⟨snippet, hsnippet⟩ := Option.isSome_iff_exists.mp hdrawn
  obtain ⟨span, hspan, hoff⟩ := hstray
  have hlabels : { diagnostic with details := before ++ after }.detailLabels file.content =
      diagnostic.detailLabels file.content := by
    have hnone : Label.ofSpan? file.content span detail.text = none := Label.ofSpan?_eq_none hoff
    simp [detailLabels, hdetails, hspan, hnone]
  have hsame : { diagnostic with details := before ++ after }.snippet? file = some snippet := by
    rw [← hsnippet]
    simp only [snippet?, hplace, hlabels]
    rfl
  rw [text_of_snippet? drawing hsame, text_of_snippet? drawing hsnippet, hdetails]
  simp [hspan]

end Strays

/-- The text of a diagnostic tells it all but for stray details, whatever draws its
snippet. A detail stands in a line
of the text behind its bullet or is the message of a label at its span, unless a snippet of
the source is drawn and the span is no part of the source. Every hint has its line, the title
stands in a line, and the problem has its line or the main label. A detail that is left out
leaves no trace: the text is the one without it. -/
theorem text_tells_all_but_strays (source : Option SourceFile) (drawing : Drawing) :
    (∀ detail ∈ diagnostic.details, ¬diagnostic.LeavesOut source detail →
      HasLine (diagnostic.text source drawing) (bulleted detail) ∨
        diagnostic.HasLabel source detail.span detail.text) ∧
    (∀ hint ∈ diagnostic.hints, HasLine (diagnostic.text source drawing) ("? " ++ hint)) ∧
    (∃ line, HasLine (diagnostic.text source drawing) line ∧
      diagnostic.title.toList <:+: line.toList) ∧
    (∀ problem, diagnostic.problem = some problem →
      HasLine (diagnostic.text source drawing) problem ∨
        diagnostic.HasLabel source diagnostic.place? problem) ∧
    ∀ before detail after, diagnostic.details = before ++ detail :: after →
      diagnostic.LeavesOut source detail →
      { diagnostic with details := before ++ after }.text source drawing =
        diagnostic.text source drawing := by
  cases hsnippet : source.bind diagnostic.snippet? with
  | none =>
      obtain ⟨first, htitle, htext⟩ := exists_text_eq drawing hsnippet
      refine ⟨?_, ?_, ⟨first, hasLine_of_mem htext (by simp), htitle⟩, ?_, ?_⟩
      · intro detail hmem _
        exact Or.inl (hasLine_of_mem htext (by simp [List.mem_map_of_mem hmem]))
      · exact fun hint hmem => hasLine_of_mem htext (by simp [hmem])
      · exact fun problem hproblem => Or.inl (hasLine_of_mem htext (by simp [hproblem]))
      · rintro before detail after - ⟨file, rfl, hdrawn, -⟩
        rw [Option.bind_some] at hsnippet
        rw [hsnippet] at hdrawn
        cases hdrawn
  | some snippet =>
      obtain ⟨file, rfl, hsnippet⟩ := Option.bind_eq_some_iff.mp hsnippet
      have htext := text_of_snippet? drawing hsnippet
      have hdrawn : (diagnostic.snippet? file).isSome := Option.isSome_of_eq_some hsnippet
      have hheads := drawing.heads snippet
      refine ⟨?_, ?_, ⟨snippet.headline, hasLine_of_mem htext (by simp [hheads]),
        title_infix_headline hsnippet⟩, ?_, ?_⟩
      · intro detail hmem hkept
        cases hspan : detail.span with
        | none =>
            have hbullet : bulleted detail ∈
                (diagnostic.details.filter (·.span.isNone)).map bulleted :=
              List.mem_map_of_mem (List.mem_filter.mpr ⟨hmem, by rw [hspan]; rfl⟩)
            exact Or.inl (hasLine_of_mem htext
              (by simp only [List.mem_append, hbullet, or_true, true_or]))
        | some span =>
            rw [← hspan]
            refine Or.inr (hasLabel_detail hsnippet hmem hspan ?_)
            by_contra hoff
            exact hkept ⟨file, rfl, hdrawn, span, hspan, hoff⟩
      · exact fun hint hmem => hasLine_of_mem htext (by simp [hmem])
      · exact fun problem hproblem => Or.inr (hasLabel_problem hsnippet hproblem)
      · rintro before detail after hdetails ⟨other, hfile, hdrawn, hstray⟩
        obtain rfl := Option.some.inj hfile
        exact text_without_stray drawing hdetails hdrawn hstray

/-- Of three details of a snippet one has a label, one a line, and one is left out. -/
theorem only_stray_is_left_out :
    let here : Detail := ⟨.error, "here", some ⟨1, 3, 1, 2⟩⟩
    let stray : Detail := ⟨.error, "lost", some ⟨50, 60, 1, 51⟩⟩
    let note : Detail := ⟨.note, "unplaced", none⟩
    let diagnostic : Diagnostic :=
      ⟨.error, "T", none, some "P", [here, stray, note], ["H"], some ⟨0, 1, 1, 1⟩⟩
    let source : Option SourceFile := some ⟨"a", "abc"⟩
    diagnostic.HasLabel source here.span here.text ∧
    HasLine (diagnostic.text source) "• unplaced" ∧
    HasLine (diagnostic.text source) "? H" ∧
    { diagnostic with details := [here, note] }.text source = diagnostic.text source := by
  intro here stray note diagnostic source
  obtain ⟨hdetails, hhints, -, -, hwithout⟩ := text_tells_all_but_strays diagnostic source .framed
  have hhere : ¬diagnostic.LeavesOut source here := by
    rintro ⟨file, hfile, -, span, hspan, hoff⟩
    obtain rfl := Option.some.inj hfile
    obtain rfl := Option.some.inj hspan
    exact hoff (by decide)
  have hnote : ¬diagnostic.LeavesOut source note := by
    rintro ⟨-, -, -, span, hspan, -⟩
    cases hspan
  have hstray : diagnostic.LeavesOut source stray :=
    ⟨_, rfl, by decide, _, rfl, by decide⟩
  have hbullet : '✖' ∉ (diagnostic.text source).toList := by decide +kernel
  refine ⟨?_, ?_, hhints "H" (by decide), hwithout [here] stray [note] rfl hstray⟩
  · refine (hdetails here (by simp [diagnostic]) hhere).resolve_left fun hline => ?_
    exact hbullet (hline.subset (by decide))
  · refine (hdetails note (by simp [diagnostic]) hnote).resolve_right ?_
    rintro ⟨-, -, span, -, -, -, hspan, -⟩
    cases hspan

/-- A detail behind the end of the content is neither in a line nor in a label. -/
theorem stray_detail_is_lost :
    let detail : Detail := ⟨.error, "lost", some ⟨50, 60, 1, 51⟩⟩
    let diagnostic : Diagnostic := ⟨.error, "T", none, none, [detail], [], some ⟨0, 1, 1, 1⟩⟩
    let file : SourceFile := ⟨"a", "abc"⟩
    ¬HasLine (diagnostic.text (some file)) (bulleted detail) ∧
    ¬∃ snippet, diagnostic.snippet? file = some snippet ∧
      ∃ label ∈ snippet.labels, label.message = detail.text := by
  intro detail diagnostic file
  have hbullet : '✖' ∉ (diagnostic.text (some file)).toList := by decide +kernel
  have hlabels : ∀ snippet ∈ diagnostic.snippet? file, ∀ label ∈ snippet.labels,
      label.message ≠ detail.text := by decide
  refine ⟨fun hline => hbullet (hline.subset (by decide)), ?_⟩
  rintro ⟨snippet, hsnippet, label, hlabel, hmessage⟩
  exact hlabels snippet hsnippet label hlabel hmessage

end Diagnostic

end Stencil
