import Mathlib.Control.Monad.Basic
import Stencil.Proofs.Render.Attempts

/-!
The limit on nested partials only cuts. A render that does not end because its
partials are nested too deeply is the same under every larger limit, and whatever
is done with references that nest too deeply.
-/

namespace Stencil

/-- The result is that partials were nested too deeply. -/
def Overflowed {α : Type} (result : Except RenderError α) : Prop :=
  ∃ name limit, result = .error (.partialOverflow name limit)

theorem not_overflowed_ok {α : Type} (a : α) : ¬Overflowed (.ok a) := by
  rintro ⟨name, limit, herror⟩
  cases herror

namespace Script

/-- The second script does what the first one does, unless that ends because
partials are nested too deeply. -/
def SameUnlessOverflow (script script' : Script) : Prop :=
  ∀ run, ¬Overflowed (script.perform run).1 → script'.perform run = script.perform run

theorem sameUnlessOverflow_inside (bracket : Bracket) {body body' : Script}
    {next next' : Unit → Script} (hbody : body.SameUnlessOverflow body')
    (hnext : (next ()).SameUnlessOverflow (next' ())) :
    (inside bracket body next).SameUnlessOverflow (inside bracket body' next') := by
  intro run hrun
  rcases hperform : body.perform (run.enter bracket) with ⟨error | _, after⟩
  · rw [perform_inside_error hperform] at hrun ⊢
    have hsame := hbody (run.enter bracket) (by rwa [hperform])
    rw [perform_inside_error (hsame.trans hperform)]
  · rw [perform_inside hperform] at hrun ⊢
    have hsame := hbody (run.enter bracket) (by rw [hperform]; exact not_overflowed_ok _)
    rw [perform_inside (hsame.trans hperform), hnext _ hrun]

theorem sameUnlessOverflow_andThen {script script' : Script} {rest rest' : Unit → Script}
    (hscript : script.SameUnlessOverflow script')
    (hrest : (rest ()).SameUnlessOverflow (rest' ())) :
    (script.andThen rest).SameUnlessOverflow (script'.andThen rest') := by
  intro run hrun
  rw [perform_andThen] at hrun ⊢
  rw [perform_andThen]
  rcases hperform : script.perform run with ⟨error | _, after⟩
  · have hsame := hscript run (by rw [hperform] at hrun ⊢; exact hrun)
    rw [hsame, hperform]
  · have hsame := hscript run (by rw [hperform]; exact not_overflowed_ok _)
    rw [hperform] at hrun
    rw [hsame, hperform]
    exact hrest after hrun

/-- The scripts do the same unless partials are nested too deeply, if errors end them. -/
def StrictlySame (script script' : Script) : Prop :=
  script.strict.SameUnlessOverflow script'.strict

theorem congruent_strictlySame : Congruent StrictlySame where
  done _ _ := rfl
  fail _ _ _ := rfl
  event e {next next'} hnext := by
    intro run hrun
    rw [strict] at hrun ⊢
    rw [strict]
    rcases hhandle : run.handle e with ⟨error | _, after⟩
    · rw [perform_event_error hhandle, perform_event_error hhandle]
    · rw [perform_event hhandle] at hrun ⊢
      rw [perform_event hhandle, hnext after hrun]
  item rendered {body body' next next'} hbody hnext :=
    sameUnlessOverflow_inside (.item rendered) hbody hnext
  attempt hbody hnext := sameUnlessOverflow_andThen hbody (hnext (.ok ()))
  declared name {next next'} hnext := fun run hrun => hnext _ run hrun
  partials {next next'} hnext := fun run hrun => hnext _ run hrun
  andThen {script script' rest rest'} hscript hrest := by
    rw [StrictlySame, strict_andThen, strict_andThen]
    exact sameUnlessOverflow_andThen hscript hrest

variable {first second : Environment}

/-- Where fewer partials may be nested, entering one fails or does the same. -/
theorem enterPartial_strictlySame (h : first.Agrees second)
    (hpartials : first.partials = second.partials) (hoverflow : first.overflow = .fail)
    {levels levels' : Nat} (hle : levels ≤ levels') (name : String) :
    RelatedBodies StrictlySame (enterPartial first levels name)
      (enterPartial second levels' name) := by
  induction levels generalizing levels' name with
  | zero =>
      intro ctx run hrun
      rw [enterPartial, hoverflow] at hrun
      exact absurd ⟨name, first.partialDepth, rfl⟩ hrun
  | succ levels ih =>
      obtain ⟨more, rfl⟩ : ∃ more, levels' = more + 1 := ⟨levels' - 1, by omega⟩
      intro ctx
      apply partialBody_congr congruent_strictlySame hpartials
      intro body
      apply sameUnlessOverflow_inside
      · apply items_congr h congruent_strictlySame
        intro name
        exact ih (by omega) name
      · exact congruent_strictlySame.done

end Script

namespace Template

/-- The template with another limit on nested partials and another policy. -/
def withStack (template : Template) (size : Nat) (policy : OverflowPolicy) : Template :=
  { template with
    options := { template.options with
      settings := { template.options.settings with partialDepth := size, overflow := policy } } }

variable {template : Template} {data : Value} {size larger : Nat} {policy : OverflowPolicy}

theorem script_withStack (hle : size ≤ larger) :
    ((template.withStack size .fail).script data).StrictlySame
      ((template.withStack larger policy).script data) := by
  have hagrees : (template.withStack size .fail).options.environment.Agrees
      (template.withStack larger policy).options.environment := ⟨rfl, rfl, rfl, rfl⟩
  exact Script.items_congr hagrees Script.congruent_strictlySame
    (Script.enterPartial_strictlySame hagrees rfl rfl hle) template.document.items _

theorem perform_withStack (hpasses : template.PassesErrors) (hle : size ≤ larger) {run : Run}
    (hsession : run.session.Obeys template.declaring)
    (h : ¬Overflowed (((template.withStack size .fail).script data).perform run).1) :
    ((template.withStack larger policy).script data).perform run =
      ((template.withStack size .fail).script data).perform run := by
  have hstrict (size : Nat) (policy : OverflowPolicy) :
      ((template.withStack size policy).script data).strict.perform run =
        ((template.withStack size policy).script data).perform run :=
    (strict_ofItems hpasses (template.withStack size policy).options.environment rfl rfl
      (.root data) hsession).1
  rw [← hstrict] at h
  rw [← hstrict, ← hstrict]
  exact script_withStack hle run h

theorem overflowed_report {done : Except RenderError Unit × Run} (h : Overflowed done.1) :
    Overflowed (report done).result := by
  obtain ⟨name, limit, herror⟩ := h
  refine ⟨name, limit, ?_⟩
  rw [report, herror]
  rfl

theorem overflowed_textOf {rendering : Rendering} (h : Overflowed rendering.result) :
    Overflowed (template.textOf rendering) := by
  obtain ⟨name, limit, herror⟩ := h
  refine ⟨name, limit, ?_⟩
  rw [textOf, herror]
  rfl

theorem renderUnder_withStack (hpasses : template.PassesErrors) (policy : OverflowPolicy)
    (hle : size ≤ larger) {device : Device} {signal : Signal}
    (h : ¬Overflowed ((template.withStack size .fail).renderUnder data device signal).result) :
    (template.withStack larger policy).renderUnder data device signal =
      (template.withStack size .fail).renderUnder data device signal := by
  cases hvalid : template.isValid with
  | false =>
      have hinvalid (size : Nat) (policy : OverflowPolicy) :
          (template.withStack size policy).isValid = false := hvalid
      rw [renderUnder_invalid (hinvalid _ _), renderUnder_invalid (hinvalid _ _)]
      rfl
  | true =>
      have hvalid (size : Nat) (policy : OverflowPolicy) :
          (template.withStack size policy).isValid = true := hvalid
      rcases hpoll : signal.check with ⟨error | _, signal'⟩
      · rw [renderUnder_stopped (hvalid _ _) hpoll, renderUnder_stopped (hvalid _ _) hpoll]
      · rw [renderUnder_valid (hvalid _ _) hpoll] at h ⊢
        rw [renderUnder_valid (hvalid _ _) hpoll]
        -- both limits leave the start of a run as it is
        have hstart : (template.withStack larger policy).start device signal' =
            (template.withStack size .fail).start device signal' := rfl
        rw [hstart, perform_withStack hpasses hle (Session.obeys_new _ _) fun hscript =>
          h (overflowed_report hscript)]

/-- The limit on nested partials only cuts. Take a limit under which a render does
not fail because partials are nested too deeply. Under the same limit or a larger one,
and whether references that nest too deeply fail or are skipped, everything is as
it was: the result, what was written, and the paths that found nothing. If there are
items of providers, errors are taken to end their recipes. -/
theorem stack_limit_only_cuts (template : Template) (hpasses : template.PassesErrors)
    (data : Value) (hle : size ≤ larger) (policy : OverflowPolicy) :
    (∀ device signal,
      ¬Overflowed ((template.withStack size .fail).renderUnder data device signal).result →
      (template.withStack larger policy).renderUnder data device signal =
        (template.withStack size .fail).renderUnder data device signal) ∧
    (∀ opening caller clock,
      ¬Overflowed ((template.withStack size .fail).renderOpening data opening caller clock).result →
      (template.withStack larger policy).renderOpening data opening caller clock =
        (template.withStack size .fail).renderOpening data opening caller clock) ∧
    ∀ caller clock, ¬Overflowed ((template.withStack size .fail).renderText data caller clock) →
      (template.withStack larger policy).renderText data caller clock =
        (template.withStack size .fail).renderText data caller clock := by
  refine ⟨?_, ?_, ?_⟩
  · intro device signal h
    exact renderUnder_withStack hpasses policy hle h
  · intro opening caller clock h
    have hvalid (size : Nat) (policy : OverflowPolicy) :
        (template.withStack size policy).isValid = template.isValid := rfl
    unfold renderOpening at h ⊢
    rw [hvalid] at h ⊢
    rw [hvalid]
    split at h
    · rename_i hvalid
      rw [if_pos hvalid, if_pos hvalid]
      cases hopening : opening () with
      | error cause => rfl
      | ok device =>
          rw [hopening] at h
          exact renderUnder_withStack hpasses policy hle h
    · rename_i hinvalid
      rw [if_neg hinvalid, if_neg hinvalid]
      rfl
  · intro caller clock h
    have hsame := renderUnder_withStack hpasses policy hle
      fun hrendering => h (overflowed_textOf hrendering)
    exact congrArg (template.withStack size .fail).textOf hsame

/-- Entries that are nested in each other are written by a partial that refers to
itself. -/
def nesting : Template where
  source := "\x7b\x7b#declare p\x7d\x7d\x7b\x7bx\x7d\x7d\x7b\x7b#with next\x7d\x7d" ++
    "\x7b\x7b> p\x7d\x7d\x7b\x7b/with\x7d\x7d\x7b\x7b/declare\x7d\x7d\x7b\x7b> p\x7d\x7d"
  document :=
    ⟨[.declaration "p"
        [.output ⟨⟨[.name "x"], "x"⟩, [], ⟨14, 19, 1, 15⟩⟩ true ⟨14, 19, 1, 15⟩,
          .block .within ⟨⟨[.name "next"], "next"⟩, [], ⟨19, 33, 1, 20⟩⟩
            [.reference "p" ⟨33, 40, 1, 34⟩] [] ⟨19, 49, 1, 20⟩] ⟨0, 61, 1, 1⟩,
      .reference "p" ⟨61, 68, 1, 62⟩], [], none⟩
  options := .default

/-- Two entries need two levels, and more change nothing. -/
theorem nesting_needs_two :
    let data := Value.map [("next", .map [("next", .null), ("x", .string "b")]),
      ("x", .string "a")]
    let clock := Clock.still
    nesting.PassesErrors ∧ 2 ≤ 5 ∧
    ¬Overflowed ((nesting.withStack 2 .fail).renderText data none clock) ∧
    (nesting.withStack 5 .skip).renderText data none clock =
      (nesting.withStack 2 .fail).renderText data none clock ∧
    (nesting.withStack 2 .fail).renderText data none clock = .ok "ab" ∧
    (nesting.withStack 1 .fail).renderText data none clock = .error (.partialOverflow "p" 1) := by
  intro data clock
  have htext : (nesting.withStack 2 .fail).renderText data none clock = .ok "ab" := by
    decide +kernel
  have hpasses : nesting.PassesErrors := passesErrors_of_stock (List.nil_subset _)
  have hle : 2 ≤ 5 := by omega
  have hnot : ¬Overflowed ((nesting.withStack 2 .fail).renderText data none clock) := by
    rw [htext]
    exact not_overflowed_ok _
  obtain ⟨-, -, hsame⟩ := stack_limit_only_cuts nesting hpasses data hle .skip
  exact ⟨hpasses, hle, hnot, hsame none clock hnot, htext, by decide +kernel⟩

end Template

end Stencil
