import TableRecipe.Proofs.Recipe.FailurePlaces

/-!
# The limit on the depth

A run stops if recipes nest too deeply. A run that does not stop for this reason is the same under
every higher limit: nothing else in it depends on the limit.

* `Engine.Shallower` — a part of a run that does what another one does, or stops at its limit;
* `Engine.Shallower.bind`, `Engine.Shallower.attempt`, … — the ways in which parts are put together;
* `Task.shallower_perform` — tasks under a lower and a higher limit.
-/

namespace TableRecipe

variable {α β : Type}

namespace Engine

/-- whether a part of a run stops because recipes nest too deeply -/
def StopsNested (x : Engine α) (context : Context) (world : World) : Prop :=
  ∃ error after, x.runIn context world = (.error error, after) ∧ error.cause = .nesting

/-- a part of a run that does what another one does, unless it stops because recipes nest too
deeply -/
structure Shallower (x y : Engine α) : Prop where
  stops_or_same : ∀ context world,
    x.StopsNested context world ∨ x.runIn context world = y.runIn context world

namespace Shallower

/-! ## Parts put together -/

theorem refl (x : Engine α) : x.Shallower x := ⟨fun _ _ => .inr rfl⟩

theorem nesting {error : Error} (h : error.cause = .nesting) (y : Engine α) :
    (throw error : Engine α).Shallower y :=
  ⟨fun _ world => .inl ⟨error, world, rfl, h⟩⟩

theorem bind {x y : Engine α} {f g : α → Engine β} (h : x.Shallower y)
    (hf : ∀ a, (f a).Shallower (g a)) : (x >>= f).Shallower (y >>= g) := by
  refine ⟨fun context world => ?_⟩
  rcases h.stops_or_same context world with ⟨error, after, hstops, hcause⟩ | hsame
  · exact .inl ⟨error, after, by rw [runIn_bind, hstops], hcause⟩
  · rw [StopsNested, runIn_bind, runIn_bind, ← hsame]
    rcases x.runIn context world with ⟨error | a, middle⟩
    · exact .inr rfl
    · exact (hf a).stops_or_same context middle

/-- What follows the same beginning. -/
theorem bind_right {x : Engine α} {f g : α → Engine β} (hf : ∀ a, (f a).Shallower (g a)) :
    (x >>= f).Shallower (x >>= g) :=
  .bind (.refl x) hf

/-- What follows a part is the same on both sides. -/
theorem bind_left {x y : Engine α} {f : α → Engine β} (h : x.Shallower y) :
    (x >>= f).Shallower (y >>= f) :=
  .bind h fun _ => .refl _

theorem attempt {x y : Engine α} (h : x.Shallower y) : x.attempt.Shallower y.attempt := by
  refine ⟨fun context world => ?_⟩
  rcases h.stops_or_same context world with ⟨error, after, hstops, hcause⟩ | hsame
  · refine .inl ⟨error, after, ?_, hcause⟩
    rw [runIn_attempt, hstops]
    simp [hcause, Cause.stopsRun]
  · exact .inr (by rw [runIn_attempt, runIn_attempt, hsame])

theorem locating {x y : Engine α} (h : x.Shallower y) (location step : String) :
    (x.locating location step).Shallower (y.locating location step) := by
  refine ⟨fun context world => ?_⟩
  rw [StopsNested, Engine.locating, Engine.locating, runIn_mapError, runIn_mapError]
  rcases h.stops_or_same context world with ⟨error, after, hstops, hcause⟩ | hsame
  · rw [hstops]
    exact .inl ⟨_, after, rfl, by rw [Error.cause_locate, hcause]⟩
  · exact .inr (by rw [hsame])

theorem ite {p : Prop} [Decidable p] {x x' y y' : Engine α} (hx : x.Shallower x')
    (hy : y.Shallower y') : (if p then x else y).Shallower (if p then x' else y') := by
  split
  · exact hx
  · exact hy

theorem mapM {f g : α → Engine β} (h : ∀ a, (f a).Shallower (g a)) (xs : List α) :
    (xs.mapM f).Shallower (xs.mapM g) := by
  induction xs with
  | nil => exact .refl _
  | cons x rest ih =>
    rw [List.mapM_cons, List.mapM_cons]
    exact .bind (h x) fun _ => .bind_left ih

theorem foldlM {f g : β → α → Engine β} (h : ∀ b a, (f b a).Shallower (g b a)) (xs : List α)
    (start : β) : (xs.foldlM f start).Shallower (xs.foldlM g start) := by
  induction xs generalizing start with
  | nil => exact .refl _
  | cons x rest ih =>
    rw [List.foldlM_cons, List.foldlM_cons]
    exact .bind (h start x) ih

theorem forIn {f g : α → β → Engine (ForInStep β)} (h : ∀ a b, (f a b).Shallower (g a b))
    (xs : List α) (start : β) : (forIn xs start f).Shallower (forIn xs start g) := by
  induction xs generalizing start with
  | nil => exact .refl _
  | cons x rest ih =>
    rw [List.forIn_cons, List.forIn_cons]
    refine .bind (h x start) fun step => ?_
    cases step with
    | done b => exact .refl _
    | yield b => exact ih b

/-- A job that stops the run is not passed over. -/
theorem each {f g : α → Engine β} (h : ∀ a, (f a).Shallower (g a)) (xs : List α) :
    (each xs f).Shallower (each xs g) := by
  have houtcomes : (outcomes f xs).Shallower (outcomes g xs) := by
    induction xs with
    | nil => exact .refl _
    | cons x rest ih => exact .bind (h x).attempt fun _ => .bind_left ih
  exact .bind_left houtcomes

end Shallower

end Engine

/-! ## Tasks -/

namespace Recipe

open Engine

section

variable {run run' : Runner} (hrun : ∀ {α : Type} (task : Task α), (run task).Shallower (run' task))
include hrun

theorem shallower_nested (params : Fields) (table : Option Table) :
    (nested run params table).Shallower (nested run' params table) :=
  .bind_right fun _ => .bind_right fun _ => .bind_left (hrun _)

omit hrun in
theorem shallower_eachBinding {params bindings : Fields} {table : Option Table} {body : Value}
    {job job' : Value → Fields → Engine α}
    (hjob : ∀ body bindings, (job body bindings).Shallower (job' body bindings)) :
    (eachBinding params table bindings body job).Shallower
      (eachBinding params table bindings body job') :=
  .bind_right fun _ => .each (fun _ => .bind_right fun _ => hjob _ _) _

theorem shallower_readEntry (entry : Value) (table : Option Table) (bindings : Fields) :
    (readEntry run entry table bindings).Shallower (readEntry run' entry table bindings) := by
  refine .bind_right fun (key, params) => .bind_right fun params => .bind_right fun origin => ?_
  refine .bind_left (.locating ?_ _ _)
  cases origin with
  | combination => exact .bind_right fun _ => .bind_left (.mapM (fun _ => hrun _) _)
  | matrix => exact .bind_right fun _ => .bind_left (shallower_eachBinding fun _ _ => hrun _)
  | recipe => exact shallower_nested hrun params none
  | function name => exact .refl _
  | connector connector => exact .refl _

theorem shallower_readSection (body : Value) (table : Option Table) (bindings : Fields) :
    (readSection run body table bindings).Shallower (readSection run' body table bindings) := by
  refine .bind_right fun items => ?_
  split
  · exact .refl _
  · exact shallower_readEntry hrun _ table bindings
  · exact .refl _

theorem shallower_dispatch (key : String) (params : Fields) (table : Table) (bindings : Fields)
    (conditional : Bool) : (dispatch run key params table bindings conditional).Shallower
      (dispatch run' key params table bindings conditional) := by
  unfold dispatch
  split
  · exact .ite (.refl _) (.bind_right fun _ => .bind_left (shallower_nested hrun _ _))
  · refine .ite (.refl _) (.bind_right fun _ => .bind_right fun _ => .foldlM (fun _ _ => ?_) _ _)
    exact .bind_right fun _ => .bind_left (hrun _)
  · exact .refl _

theorem shallower_applyEntry (bindings : Fields) (before : Table × List String)
    (entry : Value × Nat) :
    (applyEntry run bindings before entry).Shallower (applyEntry run' bindings before entry) := by
  refine .bind_right fun (key, params) => .bind_left (.locating (.bind_right fun params => ?_) _ _)
  split
  · exact shallower_dispatch hrun ..
  · refine .ite (shallower_dispatch hrun ..) (.bind_right fun _ => .bind_right fun _ => ?_)
    exact .bind_left (shallower_dispatch hrun ..)

theorem shallower_applySteps (body : Value) (table : Table) (bindings : Fields) :
    (applySteps run body table bindings).Shallower (applySteps run' body table bindings) :=
  .bind_right fun _ => .foldlM (shallower_applyEntry hrun bindings) _ _

theorem shallower_writeEntry (table : Table) (bindings : Fields) (entry : Value) :
    (writeEntry run table bindings entry).Shallower (writeEntry run' table bindings entry) := by
  refine .bind_right fun (key, params) => .bind_right fun params => .locating ?_ _ _
  refine .bind_right fun part => .bind_left ?_
  unfold writeTo
  split
  · exact .refl _
  · exact .bind_right fun _ => .bind_left (shallower_eachBinding fun _ _ => hrun _)
  · exact .bind_left (shallower_nested hrun _ _)
  · exact .refl _

theorem shallower_writeSection (body : Value) (table : Table) (bindings : Fields) :
    (writeSection run body table bindings).Shallower (writeSection run' body table bindings) :=
  .bind_right fun _ => .bind_left (.mapM (shallower_writeEntry hrun table bindings) _)

theorem shallower_act (key : String) (params : Value) (bindings : Fields) :
    (act run key params bindings).Shallower (act run' key params bindings) := by
  refine .bind_right fun params => ?_
  split
  · exact .bind_right fun _ => .bind_left (shallower_eachBinding fun _ _ => hrun _)
  · exact .bind_left (shallower_nested hrun _ _)
  · exact .refl _

theorem shallower_actAll (actions : Value) (bindings : Fields) :
    (actAll run actions bindings).Shallower (actAll run' actions bindings) := by
  refine .bind_right fun items => .bind_left (.forIn (fun action _ => ?_) _ _)
  exact .bind_right fun _ => .bind_left (shallower_act hrun ..)

theorem shallower_runHook (phase : String) (bindings : Fields) (action : Value) :
    (runHook run phase bindings action).Shallower (runHook run' phase bindings action) :=
  .bind_right fun _ => .locating (shallower_act hrun ..) _ _

theorem shallower_runHooks (recipe : Fields) (phase : String) (bindings : Fields) :
    (runHooks run recipe phase bindings).Shallower (runHooks run' recipe phase bindings) := by
  refine .bind_right fun actions => .bind_left (.forIn (fun action _ => ?_) _ _)
  exact .bind_left (shallower_runHook hrun ..)

theorem shallower_runFailureHooks (recipe bindings : Fields) (error : Error) :
    (runFailureHooks run recipe bindings error).Shallower
      (runFailureHooks run' recipe bindings error) := by
  refine .bind_right fun outcome => ?_
  cases outcome with
  | error e => exact .refl _
  | ok actions =>
    refine .bind_left (.forIn (fun action _ => ?_) _ _)
    exact .bind_left (.attempt (shallower_runHook hrun ..))

theorem shallower_stages (recipe bindings : Fields) (table : Option Table) :
    (stages run recipe bindings table).Shallower (stages run' recipe bindings table) :=
  .bind (shallower_runHooks hrun ..) fun _ => .bind (shallower_readSection hrun ..) fun _ =>
    .bind (shallower_applySteps hrun ..) fun _ => .bind (shallower_writeSection hrun ..) fun _ =>
      .bind_left (shallower_runHooks hrun ..)

theorem shallower_execute (document : Value) (bindings : Fields) (table : Option Table) :
    (execute run document bindings table).Shallower (execute run' document bindings table) := by
  refine .bind_right fun recipe => .bind (.attempt (shallower_stages hrun ..)) fun outcome => ?_
  cases outcome with
  | ok result => exact .refl _
  | error error => exact .bind_left (shallower_runFailureHooks hrun ..)

/-- A task is shallower if those that it contains are. -/
theorem shallower_performWith (task : Task α) :
    (task.performWith run).Shallower (task.performWith run') := by
  cases task with
  | recipe source given table =>
    exact .bind_right fun document => .bind_right fun _ => shallower_execute hrun ..
  | read body table bindings => exact shallower_readSection hrun ..
  | readEntry entry table bindings => exact shallower_readEntry hrun ..
  | steps body table bindings => exact shallower_applySteps hrun ..
  | write body table bindings => exact shallower_writeSection hrun ..
  | act actions bindings => exact shallower_actAll hrun ..

end

end Recipe

/-- **The limit matters to runs that reach it alone.** A task under a limit does what it does under
every higher one, unless it stops because recipes nest too deeply. -/
theorem Task.shallower_perform {depth depth' : Nat} (h : depth ≤ depth') (task : Task α) :
    (task.perform depth).Shallower (task.perform depth') := by
  induction depth generalizing depth' α with
  | zero => exact .nesting rfl _
  | succ depth ih =>
    obtain ⟨deeper, rfl⟩ : ∃ deeper, depth' = deeper + 1 := ⟨depth' - 1, by omega⟩
    exact Recipe.shallower_performWith (fun task => ih (by omega) task) task

end TableRecipe
