import TableRecipe.Proofs.Placeholder.Tolerance
import TableRecipe.Proofs.Recipe.Depth
import TableRecipe.Proofs.Recipe.MissingCells
import TableRecipe.Proofs.Recipe.NestedScope

/-!
# Steps of a recipe in a recipe

A step may be a recipe that consists of steps alone. If these have no placeholders, they may as well
stand in the place of the step: the run has the same table and the same effects, or it fails for the
same cause. The place that a failure tells is another one, and so is the depth at which the steps
are run.

* `Placeholder.NoNames` — values without placeholders;
* `Recipe.applySteps_noNames` — steps without placeholders do not depend on the bindings;
* `Engine.SameButPlaces` — parts of runs that differ in the places of failures;
* `Engine.Follows` — the same, unless the first one stops because recipes nest too deeply;
* `Recipe.steps_in_place` — steps put in the place of a recipe.
-/

namespace TableRecipe

namespace Placeholder

variable {value part : Value} {reading : Reading} {bindings : Fields}

/-! ## Values without placeholders -/

/-- whether no text in a value mentions a name -/
def NoNames (value : Value) : Prop := ∀ text ∈ value.texts, namesIn text = []

namespace NoNames

theorem at? (h : NoNames value) {place : List Nat} (hpart : value.at? place = some part) :
    NoNames part := by
  intro text htext
  obtain ⟨rest, hrest⟩ := (Value.mem_texts_iff_at? part).mp htext
  refine h text ((Value.mem_texts_iff_at? value).mpr ⟨place ++ rest, ?_⟩)
  rw [Value.at?_append, hpart]
  exact hrest

theorem find? {params : Fields} (h : NoNames (.object params)) {name : String}
    (hfind : Fields.find? name params = some value) : NoNames value := by
  obtain ⟨position, hposition⟩ := Value.at?_of_find? hfind
  exact h.at? hposition

theorem item {items : List Value} (h : NoNames (.list items)) (hmem : value ∈ items) :
    NoNames value := by
  obtain ⟨position, hposition⟩ := List.mem_iff_getElem?.mp hmem
  have hplace : (Value.list items).at? [position] = some value := by
    rw [Value.at?_cons, Value.parts, hposition]
    rfl
  exact h.at? hplace

/-- No place in it lacks a value. -/
theorem not_lacksValue (h : NoNames value) (exempt : List Nat → Prop) :
    ¬LacksValue reading bindings exempt value := by
  rintro ⟨place, text, hplace, -, name, hconsults, -⟩
  have hnone : namesIn text = [] := h text ((Value.mem_texts_iff_at? value).mpr ⟨place, hplace⟩)
  cases hconsults with
  | mentioned hself hname =>
    obtain rfl := List.mem_singleton.mp hself
    rw [hnone] at hname
    cases hname
  | written hself hwhole =>
    obtain rfl := List.mem_singleton.mp hself
    have hmem := mem_namesIn_of_whole? hwhole
    rw [hnone] at hmem
    cases hmem

end NoNames

/-- Entries without placeholders are not changed by replacing them. -/
theorem resolveSteps_of_noNames (h : NoNames value) :
    resolveSteps reading bindings value = .ok value :=
  ((spares_sections value).1 value).mpr ⟨resolve_of_no_names h, h.not_lacksValue _⟩

end Placeholder

namespace Engine

variable {α β γ δ : Type} {context : Context} {world : World}

/-! ## The places of failures -/

/-- two outcomes in the same world: results that are alike, or failures for the same cause -/
inductive SameOutcome (alike : α → β → Prop) :
    Except Error α × World → Except Error β × World → Prop where
  | ok {a : α} {b : β} {world : World} (h : alike a b) :
    SameOutcome alike (.ok a, world) (.ok b, world)
  | error {error error' : Error} {world : World} (h : error.cause = error'.cause) :
    SameOutcome alike (.error error, world) (.error error', world)

/-- parts of runs that have results that are alike and the same effects, or fail for the same cause
after the same effects -/
structure SameButPlaces (alike : α → β → Prop) (x : Engine α) (y : Engine β) : Prop where
  same_outcome : ∀ context world,
    SameOutcome alike (x.runIn context world) (y.runIn context world)

namespace SameButPlaces

variable {alike : α → β → Prop} {x : Engine α} {y : Engine β}

theorem refl (x : Engine α) : SameButPlaces Eq x x := by
  refine ⟨fun context world => ?_⟩
  rcases x.runIn context world with ⟨error | a, after⟩
  · exact .error rfl
  · exact .ok rfl

theorem pure {a : α} {b : β} (h : alike a b) :
    SameButPlaces alike (pure a : Engine α) (pure b : Engine β) :=
  ⟨fun _ _ => .ok h⟩

theorem bind {alike' : γ → δ → Prop} {f : α → Engine γ} {g : β → Engine δ}
    (h : SameButPlaces alike x y) (hf : ∀ a b, alike a b → SameButPlaces alike' (f a) (g b)) :
    SameButPlaces alike' (x >>= f) (y >>= g) := by
  refine ⟨fun context world => ?_⟩
  have hfirst := h.same_outcome context world
  rw [runIn_bind, runIn_bind]
  generalize x.runIn context world = first at hfirst
  generalize y.runIn context world = second at hfirst
  cases hfirst with
  | ok halike => exact (hf _ _ halike).same_outcome context _
  | error hcause => exact .error hcause

/-- What holds of all results of the first one may be added. -/
theorem and_left {motive : α → Prop} (h : SameButPlaces alike x y)
    (hx : ∀ context world after a, x.runIn context world = (.ok a, after) → motive a) :
    SameButPlaces (fun a b => motive a ∧ alike a b) x y := by
  refine ⟨fun context world => ?_⟩
  have hsame := h.same_outcome context world
  have hall := hx context world
  generalize x.runIn context world = first at hsame hall
  generalize y.runIn context world = second at hsame
  cases hsame with
  | ok halike => exact .ok ⟨hall _ _ rfl, halike⟩
  | error hcause => exact .error hcause

theorem locating_left (h : SameButPlaces alike x y) (location step : String) :
    SameButPlaces alike (x.locating location step) y := by
  refine ⟨fun context world => ?_⟩
  have hsame := h.same_outcome context world
  rw [locating, runIn_mapError]
  generalize x.runIn context world = first at hsame
  generalize y.runIn context world = second at hsame
  cases hsame with
  | ok halike => exact .ok halike
  | error hcause => exact .error ((Error.cause_locate ..).trans hcause)

theorem symm {alike' : β → α → Prop} (h : SameButPlaces alike x y)
    (halike : ∀ a b, alike a b → alike' b a) : SameButPlaces alike' y x := by
  refine ⟨fun context world => ?_⟩
  have hsame := h.same_outcome context world
  generalize x.runIn context world = first at hsame
  generalize y.runIn context world = second at hsame
  cases hsame with
  | ok hab => exact .ok (halike _ _ hab)
  | error hcause => exact .error hcause.symm

theorem locating (h : SameButPlaces alike x y) (location location' step step' : String) :
    SameButPlaces alike (x.locating location step) (y.locating location' step') := by
  have hswapped : SameButPlaces (fun b a => alike a b) y (x.locating location step) :=
    (h.locating_left location step).symm fun _ _ => id
  exact (hswapped.locating_left location' step').symm fun _ _ => id

/-- If one of them stops because recipes nest too deeply, the other one does. -/
theorem stopsNested (h : SameButPlaces alike x y) (hstops : y.StopsNested context world) :
    x.StopsNested context world := by
  obtain ⟨error, after, hy, hnesting⟩ := hstops
  have hsame := h.same_outcome context world
  rw [hy] at hsame
  rcases hx : x.runIn context world with ⟨error' | a, after'⟩ <;> rw [hx] at hsame
  · cases hsame with
    | error hcause => exact ⟨error', _, hx, hcause.trans hnesting⟩
  · cases hsame

end SameButPlaces

/-- parts of runs that have results that are alike and the same effects, or fail for the same cause
after the same effects, unless the first one stops because recipes nest too deeply -/
structure Follows (alike : α → β → Prop) (x : Engine α) (y : Engine β) : Prop where
  stops_or_same : ∀ context world, x.StopsNested context world ∨
    SameOutcome alike (x.runIn context world) (y.runIn context world)

namespace Follows

variable {alike : α → β → Prop}

theorem throw (error : Error) : Follows alike (throw error) (throw error) :=
  ⟨fun _ _ => .inr (.error rfl)⟩

/-- What follows the same beginning. -/
theorem bind_right {x : Engine γ} {f : γ → Engine α} {g : γ → Engine β}
    (h : ∀ c, Follows alike (f c) (g c)) : Follows alike (x >>= f) (x >>= g) := by
  refine ⟨fun context world => ?_⟩
  rw [StopsNested, runIn_bind, runIn_bind]
  rcases x.runIn context world with ⟨error | c, middle⟩
  · exact .inr (.error rfl)
  · exact (h c).stops_or_same context middle

/-- Results are turned into others on both sides. -/
theorem bind_pure {x : Engine α} {y : Engine β} {alike' : γ → δ → Prop} {f : α → γ} {g : β → δ}
    (h : Follows alike x y) (hf : ∀ a b, alike a b → alike' (f a) (g b)) :
    Follows alike' (x >>= fun a => pure (f a)) (y >>= fun b => pure (g b)) := by
  refine ⟨fun context world => ?_⟩
  rcases h.stops_or_same context world with ⟨error, after, hstops, hcause⟩ | hsame
  · exact .inl ⟨error, after, by rw [runIn_bind, hstops], hcause⟩
  · refine .inr ?_
    rw [runIn_bind, runIn_bind]
    generalize x.runIn context world = first at hsame
    generalize y.runIn context world = second at hsame
    cases hsame with
    | ok halike => exact .ok (hf _ _ halike)
    | error hcause => exact .error hcause

theorem of_shallower_left {x middle : Engine α} {y : Engine β}
    (h : x.Shallower middle) (hsame : SameButPlaces alike middle y) : Follows alike x y := by
  refine ⟨fun context world => ?_⟩
  rcases h.stops_or_same context world with hstops | heq
  · exact .inl hstops
  · rw [heq]
    exact .inr (hsame.same_outcome context world)

theorem of_shallower_right {x : Engine α} {middle y : Engine β}
    (hsame : SameButPlaces alike x middle) (h : middle.Shallower y) : Follows alike x y := by
  refine ⟨fun context world => ?_⟩
  rcases h.stops_or_same context world with hstops | heq
  · exact .inl (hsame.stopsNested hstops)
  · rw [← heq]
    exact .inr (hsame.same_outcome context world)

end Follows

end Engine

namespace Recipe

open Engine Placeholder

variable {run : Runner} {body entry params value : Value} {steps : List Value}
  {bindings bindings' : Fields} {table : Table} {tables tables' : Table × List String}
  {key name : String} {number number' depth : Nat}

/-! ## Bindings around steps without placeholders -/

/-- a way to carry out tasks for which the bindings around steps without placeholders do not
matter -/
def Unbinding (run : Runner) : Prop :=
  ∀ body table bindings bindings', NoNames body →
    run (.steps body table bindings) = run (.steps body table bindings')

theorem noNames_entries {part : String} (h : NoNames body)
    (hsteps : entries part body = .ok steps) : ∀ entry ∈ steps, NoNames entry := by
  cases body with
  | list items =>
    obtain rfl := Except.ok.inj hsteps
    exact fun _ => h.item
  | object fields =>
    obtain rfl := Except.ok.inj hsteps
    intro entry hmem
    obtain rfl := List.mem_singleton.mp hmem
    exact h
  | null =>
    obtain rfl := Except.ok.inj hsteps
    exact nofun
  | bool flag => cases hsteps
  | number n => cases hsteps
  | string text => cases hsteps

theorem noNames_params {part : String} (h : NoNames entry)
    (hentry : keyAndParams part entry = .ok (key, params)) : NoNames params := by
  simp only [keyAndParams] at hentry
  split at hentry
  · rename_i key' params'
    obtain ⟨-, rfl⟩ := Prod.mk.inj (Except.ok.inj hentry)
    have hplace : (Value.object [(key', params')]).at? [0] = some params' := rfl
    exact h.at? hplace
  · obtain ⟨-, rfl⟩ := Prod.mk.inj (Except.ok.inj hentry)
    intro text htext
    cases htext
  · cases hentry

theorem noNames_ofValue {fields : Fields} (h : NoNames params)
    (hfields : Params.ofValue key params = .ok fields) : NoNames (.object fields) := by
  cases params with
  | object found =>
    obtain rfl := Except.ok.inj hfields
    exact h
  | null =>
    obtain rfl := Except.ok.inj hfields
    exact nofun
  | list items => cases hfields
  | bool flag => cases hfields
  | number n => cases hfields
  | string text => cases hfields

theorem noNames_matrixBody {fields : Fields} {part activity : String} (h : NoNames (.object fields))
    (hbody : matrixBody fields part activity = .ok body) : NoNames body := by
  rw [matrixBody] at hbody
  split at hbody
  · rename_i found hfind
    obtain rfl := Except.ok.inj hbody
    exact h.find? hfind
  · cases hbody

theorem noNames_without {fields : Fields} {names : List String} (h : NoNames (.object fields)) :
    NoNames (.object (fields.without names)) := by
  intro text htext
  obtain ⟨entry, hmem, htext⟩ := Value.mem_textsInEntries.mp htext
  exact h text (Value.mem_textsInEntries.mpr ⟨entry, List.mem_of_mem_filter hmem, htext⟩)

theorem resolved_of_noNames (h : NoNames body) : resolved body bindings = pure body := by
  rw [resolved, resolveSteps_of_noNames h]
  rfl

section

variable (hrun : Unbinding run)
include hrun

theorem applyMatrix_noNames {fields : Fields} (h : NoNames (.object fields)) :
    applyMatrix run fields table bindings = applyMatrix run fields table bindings' := by
  refine Engine.ofExcept_bind_congr fun body hbody => ?_
  have hplain := noNames_matrixBody h hbody
  refine congrArg (_ >>= ·) (funext fun all => Engine.foldlM_congr fun table binding _ => ?_)
  simp only [resolved_of_noNames hplain, pure_bind]
  exact congrArg (· >>= _) (hrun body table _ _ hplain)

theorem dispatch_noNames {fields : Fields} {conditional : Bool} (h : NoNames (.object fields)) :
    dispatch run key fields table bindings conditional =
      dispatch run key fields table bindings' conditional := by
  unfold dispatch
  split
  · rfl
  · rw [applyMatrix_noNames hrun h]
  · rfl

theorem applyStep_noNames (h : NoNames params) :
    applyStep run key params table bindings = applyStep run key params table bindings' := by
  refine Engine.ofExcept_bind_congr fun fields hfields => ?_
  have hplain := noNames_ofValue h hfields
  split
  · exact dispatch_noNames hrun hplain
  · split
    · exact dispatch_noNames hrun hplain
    · refine Engine.ofExcept_bind_congr fun _ _ => Engine.ofExcept_bind_congr fun _ _ => ?_
      exact congrArg (· >>= _) (dispatch_noNames hrun (noNames_without hplain))

/-- Steps without placeholders do not depend on the bindings around them. -/
theorem applySteps_noNames (h : NoNames body) :
    applySteps run body table bindings = applySteps run body table bindings' := by
  refine Engine.ofExcept_bind_congr fun steps hsteps => Engine.foldlM_congr ?_
  rintro ⟨table, applied⟩ ⟨entry, number⟩ hmem
  have hentry := noNames_entries h hsteps entry (List.fst_mem_of_mem_zipIdx hmem)
  refine Engine.ofExcept_bind_congr fun ⟨key, params⟩ hparams => ?_
  dsimp only
  rw [applyStep_noNames hrun (noNames_params hentry hparams)]

end

/-- This holds however deep matrices lie in matrices. -/
theorem unbinding_perform (depth : Nat) : Unbinding (Task.perform depth) := by
  induction depth with
  | zero => exact fun _ _ _ _ _ => rfl
  | succ depth ih => exact fun _ _ _ _ h => applySteps_noNames ih h

/-! ## A recipe of steps -/

/-- a recipe that consists of steps alone -/
def stepsRecipe (body : Value) : Fields := [("wrangles", body)]

/-- The stages of a recipe that consists of steps alone. -/
theorem stages_stepsRecipe {start : Option Table} :
    stages run (stepsRecipe body) bindings start = (do
      let (result, applied) ← applySteps run body (start.getD {}) bindings
      return (result, { rowsRead := (start.getD {}).length, rowsReturned := result.length,
                        steps := applied })) :=
  rfl

theorem resolve_stepsRecipe :
    Recipe.resolve (.object (stepsRecipe body)) bindings =
      ((resolveSteps readDocument bindings body).map stepsRecipe).mapError
        (·.locate "recipe" "recipe") := by
  have hsection : resolveRecipe readDocument bindings (.object (stepsRecipe body)) =
      (do return .object (stepsRecipe (← resolveSteps readDocument bindings body))) := by
    simp [resolveRecipe, stepsRecipe, resolveSection, sections]
  rw [Recipe.resolve, hsection]
  rcases resolveSteps readDocument bindings body with error | found
  · rfl
  · rfl

/-- A failure without actions after it. -/
theorem attempt_rethrow {α : Type} (x : Engine α) :
    (do match ← x.attempt with
        | .ok result => return result
        | .error error => throw error) = x := by
  refine Engine.ext fun context world => ?_
  rw [Engine.runIn_bind, Engine.runIn_attempt]
  rcases x.runIn context world with ⟨error | a, after⟩
  · by_cases hstops : error.cause.stopsRun
    · simp [hstops]
    · simp [hstops]
  · rfl

/-- What a recipe comes to that consists of steps alone. -/
theorem execute_stepsRecipe {start : Option Table} :
    execute run (.object (stepsRecipe body)) bindings start = (do
      let body ← Engine.ofExcept ((resolveSteps readDocument bindings body).mapError
        (·.locate "recipe" "recipe"))
      stages run (stepsRecipe body) bindings start) := by
  rw [execute, resolve_stepsRecipe]
  rcases resolveSteps readDocument bindings body with error | found
  · rfl
  · refine Eq.trans ?_ (attempt_rethrow (stages run (stepsRecipe found) bindings start))
    change (stages run (stepsRecipe found) bindings start).attempt >>= _ = _ >>= _
    refine Engine.bind_congr fun outcome _ _ _ _ => ?_
    cases outcome with
    | ok result => rfl
    | error error => rfl

/-! ## Steps put in place -/

/-- an entry that runs a recipe of steps alone, given under one of two names -/
def stepsEntry (name : String) (steps : List Value) : Value :=
  nestedEntry (.object [(name, .object (stepsRecipe (.list steps)))])

/-- the tables agree, whatever steps were noted -/
def SameTable {α β : Type} (result : Table × α) (result' : Table × β) : Prop :=
  result.1 = result'.1

theorem nestedSource_steps (hname : name = "name" ∨ name = "recipe") :
    nestedSource [(name, .object (stepsRecipe body))] =
      .ok (.document (.object (stepsRecipe body))) := by
  rcases hname with rfl | rfl
  · rfl
  · rfl

theorem nestedVariables_steps (hname : name = "name" ∨ name = "recipe") :
    nestedVariables [(name, .object (stepsRecipe body))] = .ok [] := by
  rcases hname with rfl | rfl
  · rfl
  · rfl

theorem perform_stepsRecipe (depth : Nat) (body : Value) (given : Fields) (start : Option Table) :
    (Task.recipe (.document (.object (stepsRecipe body))) given start).perform (depth + 1) =
      (do execute (Task.perform depth) (.object (stepsRecipe body)) (← bindingsOf given) start) :=
  rfl

/-- A recipe of steps without placeholders runs them one level deeper, whatever the bindings around
it. -/
theorem nested_steps (hsteps : NoNames (.list steps)) (hname : name = "name" ∨ name = "recipe") :
    nested (Task.perform (depth + 1)) [(name, .object (stepsRecipe (.list steps)))] (some table) =
      (do
        let (result, _) ← applySteps (Task.perform depth) (.list steps) table bindings
        return result) := by
  have hexecute (given : Fields) : execute (Task.perform depth)
      (.object (stepsRecipe (.list steps))) given (some table) =
        stages (Task.perform depth) (stepsRecipe (.list steps)) given (some table) := by
    rw [execute_stepsRecipe, resolveSteps_of_noNames hsteps]
    rfl
  have hrun (given : Fields) : applySteps (Task.perform depth) (.list steps) table given =
      applySteps (Task.perform depth) (.list steps) table bindings :=
    applySteps_noNames (unbinding_perform depth) hsteps
  rw [nested, nestedSource_steps hname, nestedVariables_steps hname]
  simp only [Engine.ofExcept, pure_bind, perform_stepsRecipe, hexecute, stages_stepsRecipe,
    Option.getD_some, hrun, bind_assoc]
  rfl

theorem applyStep_steps (hname : name = "name" ∨ name = "recipe") :
    applyStep run "recipe" (.object [(name, .object (stepsRecipe body))]) table bindings =
      nested run [(name, .object (stepsRecipe body))] (some table) := by
  have happly : applyRecipe run [(name, .object (stepsRecipe body))] table =
      nested run [(name, .object (stepsRecipe body))] (some table) >>= pure := by
    rcases hname with rfl | rfl
    · rfl
    · rfl
  rw [applyStep_recipe, ← bind_pure (nested run _ _), ← happly]
  rcases hname with rfl | rfl
  · rfl
  · rfl

/-- As a step it is these steps, with another place for their failures, and nothing is missing after
it. -/
theorem applyEntry_stepsEntry (hsteps : NoNames (.list steps))
    (hname : name = "name" ∨ name = "recipe") :
    ∃ location,
      applyEntry (Task.perform (depth + 1)) bindings tables (stepsEntry name steps, number) = (do
        let result ← Engine.locating location "recipe" do
          let (result, _) ← applySteps (Task.perform depth) (.list steps) tables.1 bindings
          return result
        return (result.fillMissing, tables.2 ++ ["recipe"])) := by
  have hstep : applyStep (Task.perform (depth + 1)) "recipe"
      (.object [(name, .object (stepsRecipe (.list steps)))]) tables.1 bindings = (do
        let (result, _) ← applySteps (Task.perform depth) (.list steps) tables.1 bindings
        return result) :=
    (applyStep_steps hname).trans (nested_steps hsteps hname)
  exact ⟨_, by rw [← hstep]; rfl⟩

/-- An entry does the same whatever its number, and whatever was applied before it. -/
theorem applyEntry_same (h : SameTable tables tables') :
    SameButPlaces SameTable (applyEntry run bindings tables (entry, number))
      (applyEntry run bindings tables' (entry, number')) := by
  obtain ⟨table, applied⟩ := tables
  obtain ⟨_, applied'⟩ := tables'
  obtain rfl : table = _ := h
  refine SameButPlaces.bind (.refl _) ?_
  rintro ⟨key, params⟩ _ rfl
  refine .bind (.locating (.refl _) ..) ?_
  rintro result _ rfl
  exact .pure rfl

theorem applyEntries_same (h : SameTable tables tables') :
    SameButPlaces SameTable ((steps.zipIdx number).foldlM (applyEntry run bindings) tables)
      ((steps.zipIdx number').foldlM (applyEntry run bindings) tables') := by
  induction steps generalizing number number' tables tables' with
  | nil => exact .pure h
  | cons entry rest ih =>
    rw [List.zipIdx_cons, List.zipIdx_cons, List.foldlM_cons, List.foldlM_cons]
    exact .bind (applyEntry_same h) fun _ _ => ih

/-- After some steps no cell is missing. -/
theorem noNulls_of_steps_ne_nil (hne : steps ≠ []) {context : Context} {world after : World}
    (h : ((steps.zipIdx number).foldlM (applyEntry run bindings) tables).runIn context world =
      (.ok tables', after)) : tables'.1.NoNulls := by
  obtain ⟨entry, rest, rfl⟩ := List.exists_cons_of_ne_nil hne
  rw [List.zipIdx_cons, List.foldlM_cons] at h
  obtain ⟨middle, _, hentry, hrest⟩ := Engine.bind_ok h
  exact noNulls_of_applyEntries hrest (noNulls_of_applyEntry hentry)

/-- A recipe of steps is the same as these steps one level higher. -/
theorem stepsEntry_same (hne : steps ≠ []) (hsteps : NoNames (.list steps))
    (hname : name = "name" ∨ name = "recipe") (h : SameTable tables tables') :
    SameButPlaces SameTable
      (applyEntry (Task.perform (depth + 1)) bindings tables (stepsEntry name steps, number))
      ((steps.zipIdx number').foldlM (applyEntry (Task.perform depth) bindings) tables') := by
  have hsame : SameButPlaces (fun a b => a.1.NoNulls ∧ SameTable a b)
      (applySteps (Task.perform depth) (.list steps) tables.1 bindings)
      ((steps.zipIdx number').foldlM (applyEntry (Task.perform depth) bindings) tables') :=
    .and_left (applyEntries_same h) fun _ _ _ _ => noNulls_of_steps_ne_nil hne
  have hresult : SameButPlaces (fun a b => a.NoNulls ∧ a = b.1)
      (do
        let (result, _) ← applySteps (Task.perform depth) (.list steps) tables.1 bindings
        return result)
      ((steps.zipIdx number').foldlM (applyEntry (Task.perform depth) bindings) tables') := by
    rw [← bind_pure ((steps.zipIdx number').foldlM _ _)]
    exact .bind hsame fun _ _ hab => .pure hab
  obtain ⟨location, hentry⟩ := applyEntry_stepsEntry hsteps hname
  rw [hentry, ← bind_pure ((steps.zipIdx number').foldlM _ _)]
  refine .bind (.locating_left hresult ..) ?_
  rintro result _ ⟨hnulls, rfl⟩
  exact .pure (Table.fillMissing_of_noNulls hnulls)

/-! ## Steps among others -/

/-- Steps with others before and after them. -/
theorem applySteps_around (before middle after : List Value) :
    applySteps run (.list (before ++ (middle ++ after))) table bindings = (do
      let tables ← (before.zipIdx 1).foldlM (applyEntry run bindings) (table, [])
      let tables ← (middle.zipIdx (1 + before.length)).foldlM (applyEntry run bindings) tables
      (after.zipIdx (1 + before.length + middle.length)).foldlM (applyEntry run bindings)
        tables) := by
  change ((before ++ (middle ++ after)).zipIdx 1).foldlM (applyEntry run bindings) (table, []) = _
  rw [List.zipIdx_append, List.zipIdx_append, List.foldlM_append]
  simp only [List.foldlM_append]

/-- steps of which one is run under a limit that is higher by one -/
def deeperAt (depth : Nat) (bindings : Fields) (before : List Value) (entry : Value)
    (after : List Value) (table : Table) : Engine (Table × List String) := do
  let tables ← (before.zipIdx 1).foldlM (applyEntry (Task.perform depth) bindings) (table, [])
  let tables ← applyEntry (Task.perform (depth + 1)) bindings tables (entry, 1 + before.length)
  (after.zipIdx (1 + before.length + 1)).foldlM (applyEntry (Task.perform depth) bindings) tables

theorem applySteps_cons (before after : List Value) :
    applySteps run (.list (before ++ entry :: after)) table bindings = (do
      let tables ← (before.zipIdx 1).foldlM (applyEntry run bindings) (table, [])
      let tables ← applyEntry run bindings tables (entry, 1 + before.length)
      (after.zipIdx (1 + before.length + 1)).foldlM (applyEntry run bindings) tables) := by
  have hsteps : before ++ entry :: after = before ++ ([entry] ++ after) := rfl
  rw [hsteps, applySteps_around]
  simp

variable {before after : List Value}

theorem shallower_deeperAt :
    (applySteps (Task.perform depth) (.list (before ++ entry :: after)) table bindings).Shallower
      (deeperAt depth bindings before entry after table) := by
  have hlimit {α : Type} (task : Task α) :
      (task.perform depth).Shallower (task.perform (depth + 1)) :=
    Task.shallower_perform (Nat.le_succ depth) task
  rw [applySteps_cons]
  exact .bind_right fun _ => .bind_left (shallower_applyEntry hlimit ..)

theorem deeperAt_shallower :
    (deeperAt depth bindings before entry after table).Shallower
      (applySteps (Task.perform (depth + 1)) (.list (before ++ entry :: after)) table
        bindings) := by
  have hlimit {α : Type} (task : Task α) :
      (task.perform depth).Shallower (task.perform (depth + 1)) :=
    Task.shallower_perform (Nat.le_succ depth) task
  rw [applySteps_cons]
  refine .bind (.foldlM (shallower_applyEntry hlimit bindings) _ _) fun _ => ?_
  exact .bind_right fun _ => .foldlM (shallower_applyEntry hlimit bindings) _ _

section

variable (hne : steps ≠ []) (hsteps : NoNames (.list steps))
  (hname : name = "name" ∨ name = "recipe")
include hne hsteps hname

theorem deeperAt_same :
    SameButPlaces SameTable
      (deeperAt depth bindings before (stepsEntry name steps) after table)
      (applySteps (Task.perform depth) (.list (before ++ (steps ++ after))) table bindings) := by
  rw [applySteps_around]
  refine .bind (.refl _) ?_
  rintro tables _ rfl
  exact .bind (stepsEntry_same hne hsteps hname rfl) fun _ _ => applyEntries_same

/-- Under the same limit the steps in place do what the recipe does. -/
theorem applySteps_inPlace :
    Follows SameTable
      (applySteps (Task.perform depth) (.list (before ++ stepsEntry name steps :: after)) table
        bindings)
      (applySteps (Task.perform depth) (.list (before ++ (steps ++ after))) table bindings) :=
  .of_shallower_left shallower_deeperAt (deeperAt_same hne hsteps hname)

/-- Under a limit that is higher by one the recipe does what the steps in place do. -/
theorem applySteps_outOfPlace :
    Follows SameTable
      (applySteps (Task.perform depth) (.list (before ++ (steps ++ after))) table bindings)
      (applySteps (Task.perform (depth + 1)) (.list (before ++ stepsEntry name steps :: after))
        table bindings) :=
  .of_shallower_right ((deeperAt_same hne hsteps hname).symm fun _ _ => Eq.symm) deeperAt_shallower

end

/-! ## Steps among others in a recipe -/

theorem resolveSteps_around {middle : List Value} (h : NoNames (.list middle)) :
    resolveSteps readDocument bindings (.list (before ++ (middle ++ after))) = (do
      let before ← before.mapM (resolveSteps readDocument bindings)
      let after ← after.mapM (resolveSteps readDocument bindings)
      return .list (before ++ (middle ++ after))) := by
  have hmiddle : middle.mapM (resolveSteps readDocument bindings) = .ok middle := by
    have hself : middle.mapM (resolveSteps readDocument bindings) = middle.mapM pure :=
      mapM_congr fun entry hmem => resolveSteps_of_noNames (h.item hmem)
    rw [hself, List.mapM_pure, List.map_id']
    rfl
  change resolveEntries _ _ _ = _
  rw [resolveEntries, resolveItems_eq_mapM, List.mapM_append, List.mapM_append]
  change (do return Value.list (← (do
    let before ← before.mapM (resolveSteps readDocument bindings)
    let rest ← (do
      let middle ← middle.mapM (resolveSteps readDocument bindings)
      let after ← after.mapM (resolveSteps readDocument bindings)
      return middle ++ after)
    return before ++ rest))) = _
  simp only [hmiddle, bind_assoc, pure_bind]
  rfl

theorem noNames_stepsEntry (h : NoNames (.list steps)) :
    NoNames (.list [stepsEntry name steps]) := by
  simpa [NoNames, stepsEntry, nestedEntry, stepsRecipe, Value.texts, Value.textsInItems,
    Value.textsInEntries] using h

/-- Steps among others in a recipe that may have placeholders. -/
theorem execute_around {run run' : Runner} {middle middle' : List Value} {start : Option Table}
    (hmiddle : NoNames (.list middle)) (hmiddle' : NoNames (.list middle'))
    (h : ∀ before after, Follows SameTable
      (applySteps run (.list (before ++ (middle ++ after))) (start.getD {}) bindings)
      (applySteps run' (.list (before ++ (middle' ++ after))) (start.getD {}) bindings)) :
    Follows SameTable
      (execute run (.object (stepsRecipe (.list (before ++ (middle ++ after))))) bindings start)
      (execute run' (.object (stepsRecipe (.list (before ++ (middle' ++ after))))) bindings
        start) := by
  rw [execute_stepsRecipe, execute_stepsRecipe, resolveSteps_around hmiddle,
    resolveSteps_around hmiddle']
  rcases before.mapM (resolveSteps readDocument bindings) with error | before'
  · exact .throw _
  rcases after.mapM (resolveSteps readDocument bindings) with error | after'
  · exact .throw _
  exact .bind_pure (h before' after') fun _ _ => id

theorem follows_of_zero {α β : Type} {alike : α → β → Prop} (task : Task α) (y : Engine β) :
    Follows alike (task.perform 0) y :=
  ⟨fun _ world => .inl ⟨.of .nesting, world, rfl, rfl⟩⟩

end Recipe

end TableRecipe
