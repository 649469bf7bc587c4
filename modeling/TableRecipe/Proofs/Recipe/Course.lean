import TableRecipe.Proofs.Effects
import TableRecipe.Proofs.Placeholder.Cycles
import TableRecipe.Proofs.Placeholder.Places

/-!
# The course of a run

A run goes through parts that are known before any of them is carried out: actions, entries of
sections, and sections whose entries cannot be told. What becomes of a run is told part by part,
each with its effects and the world that it left to the next.

* `Recipe.parts`, `Recipe.stages_eq` — the parts of a run, and that its stages are just these;
* `Recipe.Passed`, `Recipe.Broken` — parts that were all carried out, or up to one that failed;
* `Recipe.Attempted` — the actions after a failure;
* `Recipe.Course`, `Recipe.course_of_run` — what a run can come to, and that every run does.
-/

namespace TableRecipe.Recipe

variable {run : Runner} {recipe bindings : Fields} {given : Option Table} {context : Context}
  {phase : String}

/-! ## The parts of a run -/

/-- a part of a run, such that nothing comes between it and the next one -/
inductive Part where
  /-- an action of a phase -/
  | action (phase : String) (entry : Value)
  /-- an action that a matrix repeats -/
  | repeated (entry : Value)
  /-- an entry that reads -/
  | read (entry : Value)
  /-- a step with its number -/
  | step (entry : Value) (number : Nat)
  /-- an entry that writes -/
  | write (entry : Value)
  /-- a section or a phase whose entries cannot be told -/
  | refused (error : Error)

/-- how far a run came -/
structure Progress where
  /-- the table by now -/
  table : Table
  /-- how many rows were read -/
  rowsRead : Nat
  /-- the steps that were applied, in order -/
  applied : List String := []
  /-- what the entries that wrote returned, in order -/
  returned : List (Option Table) := []

namespace Progress

/-- how far a run came when it begins -/
def start (table : Option Table) : Progress where
  table := table.getD {}
  rowsRead := (table.getD {}).length

/-- the table that a run returns: that of the first entry that returned one -/
def result (progress : Progress) : Table :=
  (progress.returned.findSome? id).getD progress.table

/-- the table that a run returns, with its summary -/
def outcome (progress : Progress) : Table × Report :=
  (progress.result,
    { rowsRead := progress.rowsRead
      rowsReturned := progress.result.length
      steps := progress.applied
      writes := progress.returned.length })

end Progress

/-- carries out a part of a run that came so far -/
def Part.carryOut (run : Runner) (bindings : Fields) (given : Option Table) (progress : Progress) :
    Part → Engine Progress
  | action phase entry => do
    runHook run phase bindings entry
    return progress
  | repeated entry => do
    let (key, params) ← Engine.ofExcept (keyAndParams "run" entry)
    act run key params bindings
    return progress
  | read entry => do
    let table ← readEntry run entry given bindings
    return { progress with table, rowsRead := table.length }
  | step entry number => do
    let (table, applied) ←
      applyEntry run bindings (progress.table, progress.applied) (entry, number)
    return { progress with table, applied }
  | write entry => do
    let returned ← writeEntry run progress.table bindings entry
    return { progress with returned := progress.returned ++ [returned] }
  | refused error => throw error

/-- carries out parts of a run, one after the other -/
def carryOutAll (run : Runner) (bindings : Fields) (given : Option Table) (progress : Progress)
    (parts : List Part) : Engine Progress :=
  parts.foldlM (Part.carryOut run bindings given) progress

/-- the parts that the entries of a section make, if they can be told -/
def partsOf (make : List Value → List Part) : Except Error (List Value) → List Part
  | .ok items => make items
  | .error error => [.refused error]

/-- the actions of a phase, with their placeholders replaced -/
def actionsOf (recipe : Fields) (phase : String) (bindings : Fields) : Except Error (List Value) :=
  match (Fields.find? "run" recipe).bind (Value.field? phase) with
  | none => .ok []
  | some actions =>
    Placeholder.resolveSteps Placeholder.readDocument bindings actions >>= entries phase

/-- the parts of a phase -/
def actionParts (recipe : Fields) (phase : String) (bindings : Fields) : List Part :=
  partsOf (·.map (.action phase)) (actionsOf recipe phase bindings)

/-- the parts of a section that reads: one at most -/
def readParts (body : Value) : List Part :=
  partsOf (fun
    | [] => []
    | [entry] => [.read entry]
    | _ => [.refused (.validation
        "read takes a single source; combine several with join, union or concatenate")])
    (entries "read" body)

/-- the parts of a section of steps, numbered from 1 -/
def stepParts (body : Value) : List Part :=
  partsOf (fun steps => (steps.zipIdx 1).map fun (entry, number) => .step entry number)
    (entries "wrangles" body)

/-- the parts of a section that writes -/
def writeParts (body : Value) : List Part := partsOf (·.map .write) (entries "write" body)

/-- the parts of the run of a recipe, in their order -/
def parts (recipe bindings : Fields) : List Part :=
  actionParts recipe "on_start" bindings ++
    (readParts (sectionOf recipe "read") ++
      (stepParts (sectionOf recipe "wrangles") ++
        (writeParts (sectionOf recipe "write") ++ actionParts recipe "on_success" bindings)))

/-! ## Sections are their parts -/

theorem hooks_eq : hooks recipe phase bindings = Engine.ofExcept (actionsOf recipe phase bindings) := by
  rw [hooks, actionsOf]
  rcases (Fields.find? "run" recipe).bind (Value.field? phase) with _ | actions
  · rfl
  · dsimp only [resolved]
    cases Placeholder.resolveSteps Placeholder.readDocument bindings actions <;> rfl

/-- Actions are carried out in a loop, and change neither the table nor anything that is kept. -/
theorem carryOutAll_map {make : Value → Part} (job : Value → Engine Unit) {progress : Progress}
    (hmake : ∀ entry, (make entry).carryOut run bindings given progress =
      (do job entry; return progress)) (entries : List Value) :
    carryOutAll run bindings given progress (entries.map make) =
      (do (for entry in entries do job entry); return progress) := by
  induction entries with
  | nil => rfl
  | cons entry rest ih =>
    rw [List.map_cons, carryOutAll, List.foldlM_cons, hmake, List.forIn_cons]
    simp only [bind_assoc, pure_bind] at ih ⊢
    exact congrArg (_ >>= ·) (funext fun _ => ih)

theorem carryOutAll_actionParts {progress : Progress} :
    carryOutAll run bindings given progress (actionParts recipe phase bindings) =
      (do runHooks run recipe phase bindings; return progress) := by
  rw [runHooks, hooks_eq, actionParts]
  cases actionsOf recipe phase bindings with
  | error e => rfl
  | ok actions => exact carryOutAll_map _ (fun _ => rfl) actions

theorem carryOutAll_readParts {body : Value} :
    carryOutAll run bindings given (.start given) (readParts body) = (do
      let table ← readSection run body given bindings
      return { Progress.start given with table, rowsRead := table.length }) := by
  rw [readSection, readParts]
  rcases entries "read" body with e | items
  · rfl
  · rcases items with _ | ⟨entry, _ | ⟨second, rest⟩⟩
    · rfl
    · simp only [partsOf, carryOutAll, List.foldlM_cons, List.foldlM_nil, bind_pure]
      rfl
    · rfl

theorem carryOutAll_stepParts {body : Value} {progress : Progress} (h : progress.applied = []) :
    carryOutAll run bindings given progress (stepParts body) = (do
      let (table, applied) ← applySteps run body progress.table bindings
      return { progress with table, applied }) := by
  rw [applySteps, stepParts]
  rcases entries "wrangles" body with e | items
  · rfl
  · have hfold (steps : List (Value × Nat)) (progress : Progress) :
        carryOutAll run bindings given progress (steps.map fun (entry, number) => .step entry number) =
          (do
            let (table, applied) ←
              steps.foldlM (applyEntry run bindings) (progress.table, progress.applied)
            return { progress with table, applied }) := by
      induction steps generalizing progress with
      | nil => rfl
      | cons step rest ih =>
        rw [List.map_cons, carryOutAll, List.foldlM_cons, List.foldlM_cons, Part.carryOut, bind_assoc,
          bind_assoc]
        refine congrArg (_ >>= ·) (funext fun after => ?_)
        rw [pure_bind]
        exact ih _
    exact h ▸ hfold (items.zipIdx 1) progress

theorem carryOutAll_writeParts {body : Value} {progress : Progress} (h : progress.returned = []) :
    carryOutAll run bindings given progress (writeParts body) = (do
      let targets ← Engine.ofExcept (entries "write" body)
      let returned ← targets.mapM (writeEntry run progress.table bindings)
      return { progress with returned }) := by
  rw [writeParts]
  rcases entries "write" body with e | items
  · rfl
  · have hfold (targets : List Value) (progress : Progress) :
        carryOutAll run bindings given progress (targets.map .write) = (do
          let returned ← targets.mapM (writeEntry run progress.table bindings)
          return { progress with returned := progress.returned ++ returned }) := by
      induction targets generalizing progress with
      | nil =>
        rw [List.mapM_nil, pure_bind, List.append_nil]
        rfl
      | cons target rest ih =>
        rw [List.map_cons, carryOutAll, List.foldlM_cons, List.mapM_cons, Part.carryOut]
        simp only [bind_assoc, pure_bind]
        refine congrArg (_ >>= ·) (funext fun returned => ?_)
        refine (ih _).trans (congrArg (_ >>= ·) (funext fun others => ?_))
        rw [List.append_assoc, List.singleton_append]
    exact (hfold items progress).trans (by rw [h]; rfl)

theorem carryOutAll_append {before after : List Part} {progress : Progress} :
    carryOutAll run bindings given progress (before ++ after) = (do
      let progress ← carryOutAll run bindings given progress before
      carryOutAll run bindings given progress after) :=
  List.foldlM_append

/-- The stages of a run carry out its parts, one after the other. -/
theorem stages_eq : stages run recipe bindings given = (do
    let progress ← carryOutAll run bindings given (.start given) (parts recipe bindings)
    return progress.outcome) := by
  simp only [stages, parts, carryOutAll_append, bind_assoc, carryOutAll_actionParts, pure_bind,
    carryOutAll_readParts, writeSection]
  refine congrArg (_ >>= ·) (funext fun _ => congrArg (_ >>= ·) (funext fun source => ?_))
  rw [carryOutAll_stepParts rfl]
  simp only [bind_assoc]
  refine congrArg (_ >>= ·) (funext fun ⟨changed, applied⟩ => ?_)
  simp only [pure_bind]
  rw [carryOutAll_writeParts rfl]
  simp only [bind_assoc, pure_bind]
  refine congrArg (_ >>= ·) (funext fun targets => ?_)
  -- A section counts its entries, and the summary of a run what they returned.
  refine Engine.bind_congr fun returned _ _ _ hreturned => ?_
  rw [← Engine.length_of_mapM_ok hreturned]
  rfl

/-! ## One part after the other -/

section

variable (run : Runner) (bindings : Fields) (given : Option Table) (context : Context)

/-- parts that were carried out one after the other: with all their effects, how far the run came,
and in which world it was then -/
inductive Passed : List Part → Progress → World → List Effect → Progress → World → Prop where
  | none {progress : Progress} {world : World} : Passed [] progress world [] progress world
  | next {part : Part} {rest : List Part} {progress middle last : Progress}
    {world between after : World} {effects more : List Effect}
    (h : (part.carryOut run bindings given progress).ComesTo context world (.ok middle) effects
      between)
    (hrest : Passed rest middle between more last after) :
    Passed (part :: rest) progress world (effects ++ more) last after

/-- parts that were carried out one after the other until one of them failed; those after it were
not -/
inductive Broken : List Part → Progress → World → Error → List Effect → World → Prop where
  | here {part : Part} {rest : List Part} {progress : Progress} {world after : World}
    {error : Error} {effects : List Effect}
    (h : (part.carryOut run bindings given progress).ComesTo context world (.error error) effects
      after) :
    Broken (part :: rest) progress world error effects after
  | later {part : Part} {rest : List Part} {progress middle : Progress}
    {world between after : World} {error : Error} {effects more : List Effect}
    (h : (part.carryOut run bindings given progress).ComesTo context world (.ok middle) effects
      between)
    (hrest : Broken rest middle between error more after) :
    Broken (part :: rest) progress world error (effects ++ more) after

/-- actions after a failure that were run one after the other, whether they succeeded or not -/
inductive Attempted : List Value → World → List Effect → World → Prop where
  | none {world : World} : Attempted [] world [] world
  | next {action : Value} {rest : List Value} {outcome : Except Error Unit}
    {world between after : World} {effects more : List Effect}
    (h : (runHook run "on_failure" bindings action).ComesTo context world outcome effects between)
    (hgoes : ∀ error, outcome = .error error → error.cause.stopsRun = false)
    (hrest : Attempted rest between more after) :
    Attempted (action :: rest) world (effects ++ more) after

/-- actions after a failure that were run one after the other until one of them stopped the run -/
inductive Halted : List Value → World → Error → List Effect → World → Prop where
  | here {action : Value} {rest : List Value} {world after : World} {error : Error}
    {effects : List Effect}
    (h : (runHook run "on_failure" bindings action).ComesTo context world (.error error) effects
      after)
    (hstops : error.cause.stopsRun = true) :
    Halted (action :: rest) world error effects after
  | later {action : Value} {rest : List Value} {outcome : Except Error Unit}
    {world between after : World} {error : Error} {effects more : List Effect}
    (h : (runHook run "on_failure" bindings action).ComesTo context world outcome effects between)
    (hgoes : ∀ error, outcome = .error error → error.cause.stopsRun = false)
    (hrest : Halted rest between error more after) :
    Halted (action :: rest) world error (effects ++ more) after

end

/-- An action ends a run only by what stops a run. -/
theorem Halted.stopsRun {actions : List Value} {effects : List Effect} {world after : World}
    {error : Error} (h : Halted run bindings context actions world error effects after) :
    error.cause.stopsRun = true := by
  induction h with
  | here _ hstops => exact hstops
  | later _ _ _ ih => exact ih

/-- the bindings of the actions after a failure: the text of the failure is bound to `error` -/
def failureBindings (bindings : Fields) (error : Error) : Fields :=
  Fields.insert "error" (.string error.text) bindings

/-- the actions after a failure: none if they cannot be told -/
def failureActions (recipe bindings : Fields) (error : Error) : List Value :=
  match actionsOf recipe "on_failure" (failureBindings bindings error) with
  | .ok actions => actions
  | .error _ => []

/-- the course of a run from a world, with what it comes to -/
inductive Course (run : Runner) (recipe bindings : Fields) (given : Option Table)
    (context : Context) (world : World) :
    Except Error (Table × Report) → List Effect → World → Prop where
  /-- all parts were carried out, and nothing else -/
  | success {progress : Progress} {effects : List Effect} {after : World}
    (h : Passed run bindings given context (parts recipe bindings) (.start given) world effects
      progress after) :
    Course run recipe bindings given context world (.ok progress.outcome) effects after
  /-- a part failed: the actions after a failure were run, and the failure is that of the part -/
  | failure {error : Error} {effects more : List Effect} {failed after : World}
    (h : Broken run bindings given context (parts recipe bindings) (.start given) world error
      effects failed)
    (hgoes : error.cause.stopsRun = false)
    (hactions : Attempted run (failureBindings bindings error) context
      (failureActions recipe bindings error) failed more after) :
    Course run recipe bindings given context world (.error error) (effects ++ more) after
  /-- a part stopped the run there and then -/
  | stopped {error : Error} {effects : List Effect} {after : World}
    (h : Broken run bindings given context (parts recipe bindings) (.start given) world error
      effects after)
    (hstops : error.cause.stopsRun = true) :
    Course run recipe bindings given context world (.error error) effects after
  /-- a part failed, and one of the actions after the failure stopped the run there and then -/
  | stoppedLater {error last : Error} {effects more : List Effect} {failed after : World}
    (h : Broken run bindings given context (parts recipe bindings) (.start given) world error
      effects failed)
    (hgoes : error.cause.stopsRun = false)
    (hactions : Halted run (failureBindings bindings error) context
      (failureActions recipe bindings error) failed last more after) :
    Course run recipe bindings given context world (.error last) (effects ++ more) after

section

variable (hrun : ∀ {α : Type} (task : Task α), (run task).Appends)
include hrun

theorem Part.appends_carryOut (part : Part) (progress : Progress) :
    (part.carryOut run bindings given progress).Appends := by
  cases part with
  | action phase entry => exact .bind (appends_runHook hrun ..) fun _ => .pure _
  | repeated entry => exact .ofExcept_bind fun _ => .bind (appends_act hrun ..) fun _ => .pure _
  | read entry => exact .bind (appends_readEntry hrun ..) fun _ => .pure _
  | step entry number => exact .bind (appends_applyEntry hrun ..) fun _ => .pure _
  | write entry => exact .bind (appends_writeEntry hrun ..) fun _ => .pure _
  | refused error => exact .throw error

/-- Parts are carried out until one of them fails. -/
theorem passed_or_broken {parts : List Part} {progress : Progress} {world after : World}
    {outcome : Except Error Progress}
    (h : (carryOutAll run bindings given progress parts).runIn context world = (outcome, after)) :
    ∃ effects, match outcome with
      | .ok last => Passed run bindings given context parts progress world effects last after
      | .error error => Broken run bindings given context parts progress world error effects after := by
  induction parts generalizing progress world with
  | nil =>
    obtain ⟨rfl, rfl⟩ := Prod.mk.inj h
    exact ⟨[], .none⟩
  | cons part rest ih =>
    rw [carryOutAll, List.foldlM_cons, Engine.runIn_bind] at h
    rcases hpart : (part.carryOut run bindings given progress).runIn context world with
      ⟨e | middle, between⟩
    · rw [hpart] at h
      obtain ⟨rfl, rfl⟩ := Prod.mk.inj h
      obtain ⟨effects, hcomes⟩ := (part.appends_carryOut hrun progress).comesTo hpart
      exact ⟨effects, .here hcomes⟩
    · rw [hpart] at h
      obtain ⟨effects, hcomes⟩ := (part.appends_carryOut hrun progress).comesTo hpart
      obtain ⟨more, hrest⟩ := ih h
      cases outcome with
      | ok last => exact ⟨effects ++ more, .next hcomes hrest⟩
      | error error => exact ⟨effects ++ more, .later hcomes hrest⟩

/-- Actions after a failure are run until one of them stops the run. -/
theorem attempted_or_halted {actions : List Value} {world after : World}
    {outcome : Except Error PUnit}
    (h : (forIn actions PUnit.unit fun action _ => do
        let _ ← (runHook run "on_failure" bindings action).attempt
        return ForInStep.yield PUnit.unit).runIn context world = (outcome, after)) :
    ∃ effects, match outcome with
      | .ok _ => Attempted run bindings context actions world effects after
      | .error error => Halted run bindings context actions world error effects after := by
  induction actions generalizing world with
  | nil =>
    obtain ⟨rfl, rfl⟩ := Prod.mk.inj h
    exact ⟨[], .none⟩
  | cons action rest ih =>
    rw [List.forIn_cons, bind_assoc, Engine.runIn_bind, Engine.runIn_attempt] at h
    rcases haction : (runHook run "on_failure" bindings action).runIn context world with
      ⟨result, between⟩
    obtain ⟨effects, hcomes⟩ := (appends_runHook hrun ..).comesTo haction
    rw [haction] at h
    -- An action that failed is passed over, so both outcomes go on alike.
    have hlater (hgoes : ∀ error, result = .error error → error.cause.stopsRun = false)
        (h : (forIn rest PUnit.unit fun action _ => do
          let _ ← (runHook run "on_failure" bindings action).attempt
          return ForInStep.yield PUnit.unit).runIn context between = (outcome, after)) :
        ∃ effects, match outcome with
          | .ok _ => Attempted run bindings context (action :: rest) world effects after
          | .error error =>
            Halted run bindings context (action :: rest) world error effects after := by
      obtain ⟨more, hrest⟩ := ih h
      cases outcome with
      | ok _ => exact ⟨effects ++ more, .next hcomes hgoes hrest⟩
      | error error => exact ⟨effects ++ more, .later hcomes hgoes hrest⟩
    cases result with
    | ok _ => exact hlater nofun h
    | error error =>
      by_cases hstops : error.cause.stopsRun = true
      · simp only [hstops, if_true] at h
        obtain ⟨rfl, rfl⟩ := Prod.mk.inj h
        exact ⟨effects, .here hcomes hstops⟩
      · simp only [hstops] at h
        refine hlater (fun other hother => ?_) h
        obtain rfl := Except.error.inj hother
        simpa using hstops

end

/-- Actions that cannot be told do not stop a run. -/
theorem stopsRun_of_actionsOf {error : Error} (h : actionsOf recipe phase bindings = .error error) :
    error.cause.stopsRun = false := by
  have hentries {body : Value} (h : entries phase body = .error error) :
      error.cause.stopsRun = false := by
    cases body with
    | list items => cases h
    | object fields => cases h
    | null => cases h
    | bool flag => obtain rfl := Except.error.inj h; rfl
    | number n => obtain rfl := Except.error.inj h; rfl
    | string text => obtain rfl := Except.error.inj h; rfl
  rw [actionsOf] at h
  split at h
  · cases h
  · rcases bind_eq_error.mp h with h | ⟨body, -, h⟩
    · obtain ⟨tolerant, part, hpart⟩ := Placeholder.Pass.exists_error .steps h
      cases Placeholder.resolve_error hpart with
      | cycle => rfl
      | unbound => rfl
    · exact hentries h

/-- The actions after a failure are run if they can be told, and nothing else is done. -/
theorem runFailureHooks_eq {error : Error} :
    runFailureHooks run recipe bindings error =
      forIn (failureActions recipe bindings error) PUnit.unit fun action _ => do
        let _ ← (runHook run "on_failure" (failureBindings bindings error) action).attempt
        return ForInStep.yield PUnit.unit := by
  have hbindings : Fields.insert "error" (.string error.text) bindings =
      failureBindings bindings error := rfl
  refine Engine.ext fun context world => ?_
  rw [runFailureHooks, failureActions]
  simp only [hooks_eq, hbindings, bind_pure_unit]
  rw [Engine.runIn_bind, Engine.runIn_attempt, Engine.runIn_ofExcept]
  rcases hactions : actionsOf recipe "on_failure" (failureBindings bindings error) with e | actions
  · simp only [stopsRun_of_actionsOf hactions]
    rfl
  · rfl

theorem runIn_execute {document : Value} {world : World}
    (hresolve : resolve document bindings = .ok recipe) :
    (execute run document bindings given).runIn context world =
      match (stages run recipe bindings given).runIn context world with
      | (.ok result, after) => (.ok result, after)
      | (.error error, failed) =>
        if error.cause.stopsRun then (.error error, failed)
        else match (runFailureHooks run recipe bindings error).runIn context failed with
          | (.ok _, after) => (.error error, after)
          | (.error last, after) => (.error last, after) := by
  rw [execute, hresolve, Engine.runIn_bind, Engine.runIn_ofExcept]
  dsimp only
  rw [Engine.runIn_bind, Engine.runIn_attempt]
  rcases (stages run recipe bindings given).runIn context world with ⟨error | result, failed⟩
  · by_cases hstops : error.cause.stopsRun = true
    · simp only [hstops, if_true]
    · simp only [hstops, Bool.false_eq_true, if_false, Engine.runIn_bind]
      rcases (runFailureHooks run recipe bindings error).runIn context failed with ⟨_ | _, _⟩ <;> rfl
  · rfl

/-- A run whose stages fail ends with the actions for it, and fails just as they did unless an action
stops it there and then. -/
theorem execute_failed {document : Value} {world failed after : World} {error : Error}
    {outcome : Except Error (Table × Report)} (hrun : ∀ {α : Type} (task : Task α), (run task).Appends)
    (hresolve : resolve document bindings = .ok recipe)
    (hfails : (stages run recipe bindings given).runIn context world = (.error error, failed))
    (hgoes : error.cause.stopsRun = false)
    (h : (execute run document bindings given).runIn context world = (outcome, after)) :
    ∃ effects,
      Attempted run (failureBindings bindings error) context
        (failureActions recipe bindings error) failed effects after ∧ outcome = .error error ∨
      ∃ last, Halted run (failureBindings bindings error) context
        (failureActions recipe bindings error) failed last effects after ∧
          outcome = .error last := by
  simp only [runIn_execute hresolve, hfails, hgoes, Bool.false_eq_true, if_false] at h
  rcases hactions : (runFailureHooks run recipe bindings error).runIn context failed with
    ⟨last | _, done⟩
  · rw [hactions] at h
    obtain ⟨rfl, rfl⟩ := Prod.mk.inj h
    rw [runFailureHooks_eq] at hactions
    obtain ⟨effects, hhalted⟩ := attempted_or_halted hrun hactions
    exact ⟨effects, .inr ⟨last, hhalted, rfl⟩⟩
  · rw [hactions] at h
    obtain ⟨rfl, rfl⟩ := Prod.mk.inj h
    rw [runFailureHooks_eq] at hactions
    obtain ⟨effects, hattempted⟩ := attempted_or_halted hrun hactions
    exact ⟨effects, .inl ⟨hattempted, rfl⟩⟩

/-- A recipe that can be resolved is run part by part. -/
theorem course_of_execute {document : Value} {world after : World}
    {outcome : Except Error (Table × Report)} (hrun : ∀ {α : Type} (task : Task α), (run task).Appends)
    (hresolve : resolve document bindings = .ok recipe)
    (h : (execute run document bindings given).runIn context world = (outcome, after)) :
    ∃ effects, Course run recipe bindings given context world outcome effects after := by
  rcases hparts : (carryOutAll run bindings given (.start given) (parts recipe bindings)).runIn
    context world with ⟨error | progress, failed⟩
  · obtain ⟨effects, hbroken⟩ := passed_or_broken hrun hparts
    have hfails : (stages run recipe bindings given).runIn context world =
        (.error error, failed) := by
      rw [stages_eq, Engine.runIn_bind, hparts]
    by_cases hstops : error.cause.stopsRun = true
    · simp only [runIn_execute hresolve, hfails, hstops, if_true] at h
      obtain ⟨rfl, rfl⟩ := Prod.mk.inj h
      exact ⟨effects, .stopped hbroken hstops⟩
    · have hgoes : error.cause.stopsRun = false := by simpa using hstops
      obtain ⟨more, ⟨hattempted, rfl⟩ | ⟨last, hhalted, rfl⟩⟩ :=
        execute_failed hrun hresolve hfails hgoes h
      · exact ⟨effects ++ more, .failure hbroken hgoes hattempted⟩
      · exact ⟨effects ++ more, .stoppedLater hbroken hgoes hhalted⟩
  · obtain ⟨effects, hpassed⟩ := passed_or_broken hrun hparts
    rw [runIn_execute hresolve, stages_eq, Engine.runIn_bind, hparts] at h
    obtain ⟨rfl, rfl⟩ := Prod.mk.inj h
    exact ⟨effects, .success hpassed⟩

/-- **The course of a run.** A recipe that can be obtained and resolved is run part by part: the
actions at its start, what it reads, the steps, the entries that write, the actions after its
success. Every part starts in the world that the part before it left, and its effects come after
those of that part. Either all parts are carried out and nothing else, or they are up to one that
fails; then the actions after a failure are run, each of them whatever became of those before it,
none if they cannot be told, and the run fails just as the part did. What stops a run there and then
does so wherever it happens. All this holds however deep the recipe lies in others. -/
theorem course_of_run {depth : Nat} {source : Source} {own : Fields} {document : Value}
    {world loaded after : World} {outcome : Except Error (Table × Report)}
    (hload : (load source).runIn context world = (.ok document, loaded))
    (hbindings : (bindingsOf own).runIn context loaded = (.ok bindings, loaded))
    (hresolve : resolve document bindings = .ok recipe)
    (h : ((Task.recipe source own given).perform (depth + 1)).runIn context world =
      (outcome, after)) :
    ∃ effects, Course (Task.perform depth) recipe bindings given context loaded outcome effects
      after := by
  change (obtainAndExecute (Task.perform depth) source own given).runIn context world = _ at h
  rw [obtainAndExecute, Engine.runIn_bind, hload] at h
  dsimp only at h
  rw [Engine.runIn_bind, hbindings] at h
  exact course_of_execute (fun task => task.appends_perform depth) hresolve h

/-- a recipe whose second entry that writes fails; of the actions after the failure the first one
fails as well, and the second one logs the failure -/
def logged : Fields :=
  [("run", .object [
      ("on_start", .list [.object [("console", .object [("message", .string "start")])]]),
      ("on_failure", .list [.string "nowhere",
        .object [("console", .object [("message", .string "failed: $\x7berror\x7d")])]])]),
    ("write", .list [.string "console", .string "nowhere"])]

/-- the failure of the entry that writes -/
def notWritten : Error where
  cause := .unknownConnector "nowhere"
  location := some "write (nowhere)"
  suggestion := some ((Cause.unknownConnector "nowhere").hint "nowhere")

theorem course_of_run_logged :
    ∃ effects, Course (Task.perform 1) logged [] none {} {} (.error notWritten) effects
        { trace := [.log "start", .log "0 rows x 0 columns: ",
          .log ("failed: " ++ notWritten.text)] } ∧
      failureActions logged [] notWritten = [.string "nowhere",
        .object [("console", .object [("message", .string ("failed: " ++ notWritten.text))])]] := by
  have hload : (load (.document (.object logged))).runIn {} {} = (.ok (.object logged), {}) := by
    decide +kernel
  have hresolve : resolve (.object logged) [] = .ok logged := by decide +kernel
  have hrun : ((Task.recipe (.document (.object logged)) [] none).perform 2).runIn {} {} =
      (.error notWritten, { trace := [.log "start", .log "0 rows x 0 columns: ",
        .log ("failed: " ++ notWritten.text)] }) := by
    decide +kernel
  have hbindings : (bindingsOf []).runIn {} {} = (.ok [], {}) := by decide +kernel
  obtain ⟨effects, hcourse⟩ := course_of_run hload hbindings hresolve hrun
  exact ⟨effects, hcourse, by decide +kernel⟩

end TableRecipe.Recipe
