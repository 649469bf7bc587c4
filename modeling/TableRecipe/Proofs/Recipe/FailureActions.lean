import TableRecipe.Proofs.Recipe.Course
import TableRecipe.Proofs.Placeholder.Tolerance

/-!
# Actions after a failure

The actions that a recipe lists for its failure are resolved together before the first of them is
run. If all of them can be resolved, then each is run in its turn, whatever becomes of the others.
If a single one cannot, then none is.

* `Recipe.Complete` — whether an action can be resolved, `Recipe.complete_iff` — that it is so;
* `Recipe.actionsOf_list` — actions in a list are resolved one after the other;
* `Recipe.failure_actions_run` — which actions are run after a failure.
-/

namespace TableRecipe.Recipe

open Placeholder

variable {context : Context} {world loaded failed after : World} {run : Runner}
  {recipe bindings own : Fields} {given : Option Table} {phase : String} {action : Value}
  {actions replaced : List Value} {error : Error}

/-- whether an action has all that it needs: no chain of names comes back to one of them, and no
place lacks a value but those that are resolved again when the action runs -/
def Complete (bindings : Fields) (action : Value) : Prop :=
  ¬Circular readDocument bindings action ∧
    ¬LacksValue readDocument bindings (DeferredIn action) action

theorem complete_iff :
    Complete bindings action ↔ ∃ value, resolveSteps readDocument bindings action = .ok value := by
  have hspares := (@spares_sections readDocument bindings action).1
  constructor
  · rintro ⟨hcircular, hlacks⟩
    rcases hresolve : Placeholder.resolve readDocument bindings true action with e | value
    · rcases circular_or_unbound hresolve with h | ⟨h, -⟩
      · exact absurd h hcircular
      · cases h
    · exact ⟨value, (hspares value).mpr ⟨hresolve, hlacks⟩⟩
  · rintro ⟨value, h⟩
    obtain ⟨hresolve, hlacks⟩ := (hspares value).mp h
    refine ⟨?_, hlacks⟩
    intro hcircular
    obtain ⟨e, he⟩ := @resolve_fails_of_circular _ _ true _ hcircular
    rw [hresolve] at he
    cases he

theorem actionsOf_list
    (hactions : (Fields.find? "run" recipe).bind (Value.field? phase) = some (.list actions)) :
    actionsOf recipe phase bindings = actions.mapM (resolveSteps readDocument bindings) := by
  rw [actionsOf, hactions]
  change resolveEntries _ _ (.list actions) >>= entries phase = _
  rw [resolveEntries, resolveItems_eq_mapM]
  change ((do return Value.list (← actions.mapM (resolveSteps readDocument bindings))) >>=
    entries phase) = _
  cases actions.mapM (resolveSteps readDocument bindings) <;> rfl

/-- Complete actions are run as they stand in the list. -/
theorem failureActions_of_complete
    (hactions : (Fields.find? "run" recipe).bind (Value.field? "on_failure") =
      some (.list actions))
    (hcomplete : ∀ action ∈ actions, Complete (failureBindings bindings error) action) :
    actions.mapM (resolveSteps readDocument (failureBindings bindings error)) =
      .ok (failureActions recipe bindings error) := by
  obtain ⟨replaced, hreplaced⟩ := exists_mapM_ok_iff.mpr fun action hmem =>
    complete_iff.mp (hcomplete action hmem)
  rw [failureActions, actionsOf_list hactions, hreplaced]

/-- One that is not keeps all of them from being run. -/
theorem failureActions_of_incomplete
    (hactions : (Fields.find? "run" recipe).bind (Value.field? "on_failure") =
      some (.list actions))
    (hmem : action ∈ actions) (hnot : ¬Complete (failureBindings bindings error) action) :
    failureActions recipe bindings error = [] := by
  rw [failureActions, actionsOf_list hactions]
  rcases hmap : actions.mapM (resolveSteps readDocument (failureBindings bindings error)) with
    e | replaced
  · rfl
  · have hvalue := exists_mapM_ok_iff.mp ⟨replaced, hmap⟩ action hmem
    exact absurd (complete_iff.mpr hvalue) hnot

/-- **Which actions are run after a failure.** Take a run whose stages fail, of a recipe that lists
actions for it. If all actions are complete, then they are run one after the other, each of them
once, whatever becomes of those before it and whatever they contain; then the run fails as its
stages did, unless an action stops it there and then. If one action is not complete, then none is
run, and the run fails as its stages did. -/
theorem failure_actions_run {depth : Nat} {source : Source} {document : Value}
    {outcome : Except Error (Table × Report)}
    (hload : (load source).runIn context world = (.ok document, loaded))
    (hbindings : (bindingsOf own).runIn context loaded = (.ok bindings, loaded))
    (hresolve : resolve document bindings = .ok recipe)
    (hactions : (Fields.find? "run" recipe).bind (Value.field? "on_failure") =
      some (.list actions))
    (hfails : (stages (Task.perform depth) recipe bindings given).runIn context loaded =
      (.error error, failed))
    (hgoes : error.cause.stopsRun = false)
    (h : ((Task.recipe source own given).perform (depth + 1)).runIn context world =
      (outcome, after)) :
    ((∀ action ∈ actions, Complete (failureBindings bindings error) action) →
      ∃ replaced effects,
        actions.mapM (resolveSteps readDocument (failureBindings bindings error)) =
          .ok replaced ∧
        (Attempted (Task.perform depth) (failureBindings bindings error) context replaced failed
            effects after ∧ outcome = .error error ∨
          ∃ last, Halted (Task.perform depth) (failureBindings bindings error) context replaced
            failed last effects after ∧ outcome = .error last)) ∧
    ((∃ action ∈ actions, ¬Complete (failureBindings bindings error) action) →
      after = failed ∧ outcome = .error error) := by
  change (obtainAndExecute (Task.perform depth) source own given).runIn context world = _ at h
  rw [obtainAndExecute, Engine.runIn_bind, hload] at h
  dsimp only at h
  rw [Engine.runIn_bind, hbindings] at h
  obtain ⟨effects, hends⟩ :=
    execute_failed (fun task => task.appends_perform depth) hresolve hfails hgoes h
  constructor
  · intro hcomplete
    exact ⟨_, effects, failureActions_of_complete hactions hcomplete, hends⟩
  · rintro ⟨action, hmem, hnot⟩
    rw [failureActions_of_incomplete hactions hmem hnot] at hends
    rcases hends with ⟨hattempted, houtcome⟩ | ⟨last, hhalted, -⟩
    · cases hattempted
      exact ⟨rfl, houtcome⟩
    · cases hhalted

/-- The first action after the failure fails as well, and the second one is run nevertheless. -/
theorem failure_actions_run_logged :
    ∃ replaced effects,
      Attempted (Task.perform 1) (failureBindings [] notWritten) {} replaced
        { trace := [.log "start", .log "0 rows x 0 columns: "] } effects
        { trace := [.log "start", .log "0 rows x 0 columns: ",
          .log ("failed: " ++ notWritten.text)] } ∧ replaced.length = 2 := by
  have hload : (load (.document (.object logged))).runIn {} {} = (.ok (.object logged), {}) := by
    decide +kernel
  have hbindings : (bindingsOf []).runIn {} {} = (.ok [], {}) := by decide +kernel
  have hresolve : resolve (.object logged) [] = .ok logged := by decide +kernel
  have hfails : (stages (Task.perform 1) logged [] none).runIn {} {} =
      (.error notWritten, { trace := [.log "start", .log "0 rows x 0 columns: "] }) := by
    decide +kernel
  have hrun : ((Task.recipe (.document (.object logged)) [] none).perform 2).runIn {} {} =
      (.error notWritten, { trace := [.log "start", .log "0 rows x 0 columns: ",
        .log ("failed: " ++ notWritten.text)] }) := by
    decide +kernel
  obtain ⟨hall, -⟩ := failure_actions_run hload hbindings hresolve rfl hfails rfl hrun
  obtain ⟨replaced, effects, hreplaced, hends⟩ := hall (by
    rw [List.forall_mem_cons, List.forall_mem_singleton]
    refine ⟨complete_iff.mpr ⟨.string "nowhere", by decide +kernel⟩, complete_iff.mpr
      ⟨.object [("console", .object [("message", .string ("failed: " ++ notWritten.text))])], ?_⟩⟩
    decide +kernel)
  refine ⟨replaced, effects, ?_, (mapM_ok hreplaced).1⟩
  rcases hends with ⟨hattempted, -⟩ | ⟨last, hhalted, hlast⟩
  · exact hattempted
  · obtain rfl := Except.error.inj hlast
    exact absurd hhalted.stopsRun (by decide)

/-- a recipe whose entry that writes fails; of the actions after the failure the second one has a
placeholder without a value -/
def halfBound : Fields :=
  [("run", .object [("on_failure", .list [
      .object [("console", .object [("message", .string "failed")])],
      .object [("console", .object [("message", .string "$\x7bmissing\x7d")])]])]),
    ("write", .list [.string "nowhere"])]

/-- The first action is complete, and is not run. -/
theorem complete_action_not_run :
    Complete (failureBindings [] notWritten)
        (.object [("console", .object [("message", .string "failed")])]) ∧
      (Fields.find? "run" halfBound).bind (Value.field? "on_failure") = some (.list [
        .object [("console", .object [("message", .string "failed")])],
        .object [("console", .object [("message", .string "$\x7bmissing\x7d")])]]) ∧
      ((Task.recipe (.document (.object halfBound)) [] none).perform 2).runIn {} {} =
        (.error notWritten, {}) := by
  refine ⟨complete_iff.mpr ⟨.object [("console", .object [("message", .string "failed")])], ?_⟩,
    rfl, ?_⟩
  · decide +kernel
  · decide +kernel

end TableRecipe.Recipe
