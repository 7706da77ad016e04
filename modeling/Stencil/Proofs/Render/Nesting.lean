import Stencil.Options
import Stencil.Proofs.Render.Congruence
import Stencil.Render.Run

/-!
The stack of partials. A run leaves it as it found it, whatever its result, since
every bracket is left on the way out; and a script that nests partials to some
depth only never takes it further than that.
-/

namespace Stencil

/-- The partials that a bracket puts on the stack while it is open. -/
def Bracket.names : Bracket → List String
  | item _ => []
  | reference name => [name]

theorem Session.stack_recordItem (session : Session) (item : Item) :
    (session.recordItem item).stack = session.stack := by
  unfold recordItem
  split
  · split <;> rfl
  · rfl

namespace Run

@[simp] theorem stack_enter (run : Run) (bracket : Bracket) :
    (run.enter bracket).session.stack = run.session.stack ++ bracket.names := by
  cases bracket with
  | item rendered => exact (List.append_nil _).symm
  | reference name => rfl

theorem stack_leave {run : Run} {bracket : Bracket} {stack : List String}
    (h : run.session.stack = stack ++ bracket.names) :
    (run.leave bracket).session.stack = stack := by
  cases bracket with
  | item rendered =>
      rw [leave, Session.stack_recordItem, h]
      exact List.append_nil _
  | reference name =>
      change run.session.stack.dropLast = stack
      rw [h]
      exact List.dropLast_concat

@[simp] theorem stack_handle (run : Run) (e : Event) :
    (run.handle e).2.session.stack = run.session.stack := by
  cases e <;> rfl

end Run

namespace Script

/-- A run leaves the stack as it found it, whatever its result. -/
theorem stack_perform (script : Script) (run : Run) :
    (script.perform run).2.session.stack = run.session.stack := by
  induction script generalizing run with
  | done => rfl
  | fail error => rfl
  | event e next ih =>
      have hhandled := run.stack_handle e
      rw [perform]
      split
      · rename_i after hafter
        rw [hafter] at hhandled
        rw [ih, hhandled]
      · rename_i error after hafter
        rwa [hafter] at hhandled
  | inside bracket body next ihbody ih =>
      have hbody := ihbody (run.enter bracket)
      rw [Run.stack_enter] at hbody
      rw [perform]
      split
      · rename_i after hafter
        rw [hafter] at hbody
        rw [ih, Run.stack_leave hbody]
      · rename_i error after hafter
        rw [hafter] at hbody
        exact Run.stack_leave hbody
  | attempt body next ihbody ih =>
      rw [perform, ih, ihbody]
  | declared name next ih => exact ih _ run
  | partials next ih => exact ih _ run

/-- The script opens no more brackets of partials in each other than this. -/
def NestsWithin : Script → Nat → Prop
  | done, _ | fail _, _ => True
  | event _ next, levels => (next ()).NestsWithin levels
  | inside bracket body next, levels =>
      bracket.names.length ≤ levels ∧ body.NestsWithin (levels - bracket.names.length) ∧
        (next ()).NestsWithin levels
  | attempt body next, levels =>
      body.NestsWithin levels ∧ ∀ result, (next result).NestsWithin levels
  | declared _ next, levels => ∀ found, (next found).NestsWithin levels
  | partials next, levels => ∀ names, (next names).NestsWithin levels

/-- The states of a run: the one in which it starts, and those after each of its
steps. -/
def states : Script → Run → List Run
  | done, run | fail _, run => [run]
  | event e next, run =>
      run :: match run.handle e with
        | (.ok (), after) => (next ()).states after
        | (.error _, after) => [after]
  | inside bracket body next, run =>
      run :: (body.states (run.enter bracket) ++
        match body.perform (run.enter bracket) with
        | (.ok (), after) => (next ()).states (after.leave bracket)
        | (.error _, after) => [after.leave bracket])
  | attempt body next, run =>
      body.states run ++ match body.perform run with
        | (result, after) => (next result).states after
  | declared name next, run => (next (run.session.declared? name)).states run
  | partials next, run => (next run.session.stack).states run

/-- A run ends in the last of its states. -/
theorem getLast?_states (script : Script) (run : Run) :
    (script.states run).getLast? = some (script.perform run).2 := by
  induction script generalizing run with
  | done => rfl
  | fail error => rfl
  | event e next ih =>
      rw [states, perform]
      rcases run.handle e with ⟨error | _, after⟩
      · rfl
      · rw [List.getLast?_cons, ih]
        rfl
  | inside bracket body next _ ih =>
      rw [states, perform, List.getLast?_cons, List.getLast?_append]
      rcases body.perform (run.enter bracket) with ⟨error | _, after⟩
      · rfl
      · rw [ih]
        rfl
  | attempt body next _ ih =>
      rw [states, perform, List.getLast?_append, ih]
      rfl
  | declared name next ih => exact ih _ run
  | partials next ih => exact ih _ run

/-- The stack in a state extends the stack of another by at most so many names. -/
structure Extends (levels : Nat) (run state : Run) : Prop where
  keeps : run.session.stack <+: state.session.stack
  bounded : state.session.depth ≤ run.session.depth + levels

theorem Extends.of_stack_eq {levels : Nat} {run state : Run}
    (h : state.session.stack = run.session.stack) : Extends levels run state := by
  constructor
  · exact ⟨[], by rw [List.append_nil, h]⟩
  · rw [Session.depth, h]
    exact Nat.le_add_right _ _

theorem Extends.of_stack {levels : Nat} {run run' state : Run} (h : Extends levels run' state)
    (hstack : run'.session.stack = run.session.stack) : Extends levels run state := by
  obtain ⟨hkeeps, hbounded⟩ := h
  rw [hstack] at hkeeps
  rw [Session.depth, Session.depth, hstack] at hbounded
  exact ⟨hkeeps, hbounded⟩

theorem Extends.of_enter {levels : Nat} {run state : Run} {bracket : Bracket}
    (hlevels : bracket.names.length ≤ levels)
    (h : Extends (levels - bracket.names.length) (run.enter bracket) state) :
    Extends levels run state := by
  obtain ⟨hkeeps, hbounded⟩ := h
  rw [Run.stack_enter] at hkeeps
  rw [Session.depth, Session.depth, Run.stack_enter, List.length_append] at hbounded
  refine ⟨(List.prefix_append _ _).trans hkeeps, ?_⟩
  rw [Session.depth, Session.depth]
  omega

/-- In every state of a run the stack extends the one that it started with, within
the depth to which its script nests partials. -/
theorem states_extend {script : Script} {levels : Nat} (h : script.NestsWithin levels)
    (run : Run) : ∀ state ∈ script.states run, Extends levels run state := by
  induction script generalizing levels run with
  | done => exact List.forall_mem_singleton.mpr (.of_stack_eq rfl)
  | fail error => exact List.forall_mem_singleton.mpr (.of_stack_eq rfl)
  | event e next ih =>
      have hhandled := run.stack_handle e
      rw [states]
      refine List.forall_mem_cons.mpr ⟨.of_stack_eq rfl, ?_⟩
      split
      · rename_i after hafter
        rw [hafter] at hhandled
        intro state hstate
        exact (ih () h after state hstate).of_stack hhandled
      · rename_i error after hafter
        rw [hafter] at hhandled
        exact List.forall_mem_singleton.mpr (.of_stack_eq hhandled)
  | inside bracket body next ihbody ih =>
      obtain ⟨hlevels, hbody, hnext⟩ := h
      have hperformed := body.stack_perform (run.enter bracket)
      rw [Run.stack_enter] at hperformed
      rw [states]
      refine List.forall_mem_cons.mpr ⟨.of_stack_eq rfl, List.forall_mem_append.mpr ⟨?_, ?_⟩⟩
      · intro state hstate
        exact .of_enter hlevels (ihbody hbody _ state hstate)
      · split
        · rename_i after hafter
          rw [hafter] at hperformed
          intro state hstate
          exact (ih () hnext _ state hstate).of_stack (Run.stack_leave hperformed)
        · rename_i error after hafter
          rw [hafter] at hperformed
          exact List.forall_mem_singleton.mpr (.of_stack_eq (Run.stack_leave hperformed))
  | attempt body next ihbody ih =>
      rw [states]
      refine List.forall_mem_append.mpr ⟨ihbody h.1 run, ?_⟩
      intro state hstate
      exact (ih _ (h.2 _) _ state hstate).of_stack (body.stack_perform run)
  | declared name next ih => exact ih _ (h _) run
  | partials next ih => exact ih _ (h _) run

theorem congruent_nestsWithin (levels : Nat) :
    Congruent fun script _ => script.NestsWithin levels where
  done := trivial
  fail _ := trivial
  event _ _ _ hnext := hnext
  item _ _ _ _ _ hbody hnext := ⟨Nat.zero_le _, hbody, hnext⟩
  attempt hbody hnext := ⟨hbody, hnext⟩
  declared _ _ _ hnext := hnext
  partials hnext := hnext
  andThen {script _ rest _} hscript hrest := by
    induction script generalizing levels with
    | done => exact hrest
    | fail error => trivial
    | event e next ih => exact ih () levels hscript hrest
    | inside bracket body next _ ih =>
        exact ⟨hscript.1, hscript.2.1, ih () levels hscript.2.2 hrest⟩
    | attempt body next _ ih =>
        exact ⟨hscript.1, fun result => ih result levels (hscript.2 result) hrest⟩
    | declared name next ih => exact fun found => ih found levels (hscript found) hrest
    | partials next ih => exact fun names => ih names levels (hscript names) hrest

/-- A partial is entered only while more may be nested. -/
theorem nestsWithin_enterPartial (env : Environment) (levels : Nat) (name : String)
    (ctx : Context) : (enterPartial env levels name ctx).NestsWithin levels := by
  induction levels generalizing name ctx with
  | zero =>
      unfold enterPartial
      split <;> trivial
  | succ levels ih =>
      apply partialBody_induction (congruent_nestsWithin (levels + 1))
      intro body
      exact ⟨Nat.le_add_left _ _, items_induction (congruent_nestsWithin levels) env ih body ctx,
        trivial⟩

/-- Renders items inside so many partials: as many more may be nested as are left. -/
def itemsAt (env : Environment) (depth : Nat) (forest : List Item) : Body :=
  items env (enterPartial env (env.partialDepth - depth)) forest

/-- The depth of partials is bounded and always restored. Take any items and a run
that is inside no more partials than may be nested. While it renders them, the
partials that it was inside of stay at the bottom of the stack, and there are never
more on it than may be nested. In the last of these states, when it is done, for
whatever reason, the stack is what it was. Providers may go on after an error. -/
theorem depth_bounded_and_restored (env : Environment) (forest : List Item) (ctx : Context)
    (run : Run) (hdepth : run.session.depth ≤ env.partialDepth) :
    let script := itemsAt env run.session.depth forest ctx
    (∀ state ∈ script.states run,
      run.session.stack <+: state.session.stack ∧ state.session.depth ≤ env.partialDepth) ∧
    (script.states run).getLast? = some (script.perform run).2 ∧
    (script.perform run).2.session.stack = run.session.stack := by
  intro script
  refine ⟨?_, getLast?_states script run, stack_perform script run⟩
  intro state hstate
  have hnests : script.NestsWithin (env.partialDepth - run.session.depth) :=
    items_induction (congruent_nestsWithin _) env (nestsWithin_enterPartial env _) forest ctx
  obtain ⟨hkeeps, hbounded⟩ := states_extend hnests run state hstate
  exact ⟨hkeeps, by omega⟩

/-- A partial that refers to itself, and a reference to it. -/
def selfReferring : List Item :=
  [.declaration "p" [.reference "p" ⟨14, 21, 1, 15⟩] ⟨0, 33, 1, 1⟩,
    .reference "p" ⟨33, 40, 1, 34⟩]

/-- A run inside one partial of two fails when it is about to enter a third, and is
inside the one that it started in. -/
theorem stack_restored_after_overflow :
    let env : Environment := { Options.default.environment with partialDepth := 2 }
    let run : Run := ⟨.new .memory .utf8 0, .never, ⟨["card"], [], none⟩, none⟩
    let script := itemsAt env run.session.depth selfReferring (.root .null)
    run.session.depth ≤ env.partialDepth ∧
    (script.perform run).1 = .error (.partialOverflow "p" 2) ∧
    ["card", "p"] ∈ (script.states run).map (·.session.stack) ∧
    (∀ state ∈ script.states run,
      run.session.stack <+: state.session.stack ∧ state.session.depth ≤ env.partialDepth) ∧
    (script.perform run).2.session.stack = ["card"] := by
  intro env run script
  have hdepth : run.session.depth ≤ env.partialDepth := by decide
  obtain ⟨hstates, -, hrestored⟩ :=
    depth_bounded_and_restored env selfReferring (.root .null) run hdepth
  exact ⟨hdepth, rfl, by decide +kernel, hstates, hrestored⟩

/-- A provider that goes on when its children fail. -/
def undaunted : Provider where
  name := "try"
  claimsTag _ := false
  tokens := Provider.customToken "try"
  claimsToken := Provider.isOwn "try"
  parse _ _ := .ok .skips
  render _ _ := .render .children none fun
    | .ok () => .done
    | .error _ => .write "!" fun _ => .done

/-- It goes on inside the partial that the run started in. -/
example :
    let env : Environment :=
      { Options.default.environment with partialDepth := 2, providers := [undaunted] }
    let run : Run := ⟨.new .memory .utf8 0, .never, ⟨["card"], [], none⟩, none⟩
    let trying := Item.custom ⟨"try", "try", none, .null, ⟨0, 40, 1, 1⟩⟩ selfReferring
    let done := (itemsAt env run.session.depth [trying] (.root .null)).perform run
    (done.1, done.2.session.stack, done.2.sink.device.held) =
      (.ok (), ["card"], "!".toUTF8.data) :=
  rfl

end Script

end Stencil
