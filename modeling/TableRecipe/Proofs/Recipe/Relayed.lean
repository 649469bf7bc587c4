import Mathlib.Data.List.Forall2
import TableRecipe.Proofs.Fields
import TableRecipe.Proofs.Recipe.Course

/-!
# Failures that are passed on

What an entry of a recipe does may ask for tasks. It passes their failures on as they are. So if
these are turned into others, then its own failures stay the same and no others do: this tells
whether it failed by itself.

* `Recipe.changing` — a way to carry out tasks with their failures changed;
* `Engine.Relays` — a part of a run beside the same part with the failures of its tasks changed;
* `Recipe.Asks` — the tasks that an entry asks for;
* `Engine.FailsItself`, `Engine.failsItself_or_asked` — a failure is that of the part or that of a
  task.
-/

namespace TableRecipe

variable {α β γ : Type}

/-- whether failures are changed to failures that stop a run just if those did -/
def KeepsStops (change : Error → Error) : Prop :=
  ∀ error, (change error).cause.stopsRun = error.cause.stopsRun

namespace Recipe

/-- carries out tasks, with their failures changed -/
def changing (change : Error → Error) (run : Runner) : Runner :=
  fun task => (run task).mapError change

end Recipe

namespace Engine

variable {context : Context} {asked : Error → Prop}

/-- whether a part of a run fails with an error in some world -/
def Fails (context : Context) (x : Engine α) (error : Error) : Prop :=
  ∃ world after, x.runIn context world = (.error error, after)

/-- whether a part of a run fails with an error in a world, whatever the failures of the tasks in it
are turned into -/
def FailsItself (context : Context) (part : Runner → Engine α) (run : Runner) (world : World)
    (error : Error) : Prop :=
  ∃ after, ∀ change, KeepsStops change →
    (part (Recipe.changing change run)).runIn context world = (.error error, after)

/-- two outcomes that are the same, or failures of which the first one was asked for -/
inductive Alike (asked : Error → Prop) : Except Error α → Except Error α → Prop where
  | same (outcome : Except Error α) : Alike asked outcome outcome
  | asked {error other : Error} (h : asked error) (hgoes : other.cause.stopsRun = false) :
    Alike asked (.error error) (.error other)

/-- what two parts of a run come to that differ in the failures asked for alone, unless the first
one stops the run -/
inductive Relayed (asked : Error → Prop) :
    Except Error α × World → Except Error α × World → Prop where
  | stopped {error : Error} {world : World} {other : Except Error α × World}
    (h : error.cause.stopsRun = true) : Relayed asked (.error error, world) other
  | alike {outcome outcome' : Except Error α} {world : World} (h : Alike asked outcome outcome') :
    Relayed asked (outcome, world) (outcome', world)

/-- two parts of a run that differ in the failures asked for alone, wherever they start -/
def Relays (context : Context) (asked : Error → Prop) (x y : Engine α) : Prop :=
  ∀ world, Relayed asked (x.runIn context world) (y.runIn context world)

namespace Relays

theorem refl (x : Engine α) : Relays context asked x x := fun _ => .alike (.same _)

theorem bind {x y : Engine α} {f g : α → Engine β} (h : Relays context asked x y)
    (hf : ∀ a, Relays context asked (f a) (g a)) : Relays context asked (x >>= f) (y >>= g) := by
  intro world
  have hfirst := h world
  rw [runIn_bind, runIn_bind]
  generalize x.runIn context world = first at hfirst
  generalize y.runIn context world = second at hfirst
  cases hfirst with
  | stopped hstops => exact .stopped hstops
  | alike halike =>
    cases halike with
    | same =>
      rename_i outcome after
      cases outcome with
      | ok a => exact hf a after
      | error e => exact .alike (.same _)
    | asked hasked hgoes => exact .alike (.asked hasked hgoes)

theorem ofExcept_bind {x : Except Error α} {f g : α → Engine β}
    (hf : ∀ a, x = .ok a → Relays context asked (f a) (g a)) :
    Relays context asked (ofExcept x >>= f) (ofExcept x >>= g) := by
  cases x with
  | ok a => exact hf a rfl
  | error e => exact .refl _

theorem mapM {f g : α → Engine β} {xs : List α}
    (h : ∀ x ∈ xs, Relays context asked (f x) (g x)) :
    Relays context asked (xs.mapM f) (xs.mapM g) := by
  induction xs with
  | nil => exact .refl _
  | cons x rest ih =>
    rw [List.mapM_cons, List.mapM_cons]
    refine .bind (h x (List.mem_cons_self ..)) fun _ => .bind (ih ?_) fun _ => .refl _
    intro y hy
    exact h y (List.mem_cons_of_mem _ hy)

theorem foldlM {f g : β → α → Engine β} {xs : List α} {start : β}
    (h : ∀ b, ∀ x ∈ xs, Relays context asked (f b x) (g b x)) :
    Relays context asked (xs.foldlM f start) (xs.foldlM g start) := by
  induction xs generalizing start with
  | nil => exact .refl _
  | cons x rest ih =>
    rw [List.foldlM_cons, List.foldlM_cons]
    refine .bind (h start x (List.mem_cons_self ..)) fun _ => ih ?_
    intro b y hy
    exact h b y (List.mem_cons_of_mem _ hy)

/-- Jobs with failures that were asked for leave outcomes that are alike. -/
theorem outcomes {f g : α → Engine β} {xs : List α}
    (h : ∀ x ∈ xs, Relays context asked (f x) (g x)) (world : World) :
    (∃ error after, (outcomes f xs).runIn context world = (.error error, after) ∧
        error.cause.stopsRun = true) ∨
      ∃ first second after, (Engine.outcomes f xs).runIn context world = (.ok first, after) ∧
        (Engine.outcomes g xs).runIn context world = (.ok second, after) ∧
        List.Forall₂ (Alike asked) first second := by
  induction xs generalizing world with
  | nil => exact .inr ⟨[], [], world, rfl, rfl, .nil⟩
  | cons x rest ih =>
    have hx := h x (List.mem_cons_self ..) world
    have hrest := ih fun y hy => h y (List.mem_cons_of_mem _ hy)
    rw [Engine.outcomes, Engine.outcomes, runIn_bind, runIn_bind, runIn_attempt, runIn_attempt]
    generalize (f x).runIn context world = first at hx
    generalize (g x).runIn context world = second at hx
    -- Whatever came of this job, the others start in the same world on both sides.
    have hnext {head head' : Except Error β} (halike : Alike asked head head') (middle : World) :
        (∃ error after, (do return head :: (← Engine.outcomes f rest)).runIn context middle =
            (.error error, after) ∧ error.cause.stopsRun = true) ∨
          ∃ first second after, (do return head :: (← Engine.outcomes f rest)).runIn context middle =
              (.ok first, after) ∧
            (do return head' :: (← Engine.outcomes g rest)).runIn context middle =
              (.ok second, after) ∧ List.Forall₂ (Alike asked) first second := by
      simp only [runIn_bind]
      rcases hrest middle with ⟨error, after, hf, hstops⟩ | ⟨first, second, after, hf, hg, hall⟩
      · exact .inl ⟨error, after, by rw [hf], hstops⟩
      · exact .inr ⟨head :: first, head' :: second, after, by rw [hf]; rfl, by rw [hg]; rfl,
          .cons halike hall⟩
    cases hx with
    | @stopped error after _ hstops => exact .inl ⟨error, after, by simp [hstops], hstops⟩
    | @alike outcome outcome' after halike =>
      cases halike with
      | same =>
        cases outcome with
        | ok a => exact hnext (.same _) after
        | error e =>
          by_cases hstops : e.cause.stopsRun = true
          · exact .inl ⟨e, after, by simp [hstops], hstops⟩
          · simp only [hstops]
            exact hnext (.same _) after
      | @asked e other hasked hgoes =>
        by_cases hstops : e.cause.stopsRun = true
        · exact .inl ⟨e, after, by simp [hstops], hstops⟩
        · simp only [hstops, hgoes]
          exact hnext (.asked hasked hgoes) after

/-- The first failure of outcomes that are alike was asked for, or it is the same. -/
theorem ofOutcomes {first second : List (Except Error α)}
    (h : List.Forall₂ (Alike asked) first second) :
    Relays context asked (first.mapM ofExcept) (second.mapM ofExcept) := by
  induction h with
  | nil => exact .refl _
  | cons hhead _ ih =>
    rw [List.mapM_cons, List.mapM_cons]
    refine .bind (fun world => ?_) fun _ => .bind ih fun _ => .refl _
    rw [runIn_ofExcept, runIn_ofExcept]
    exact .alike hhead

theorem each {f g : α → Engine β} {xs : List α}
    (h : ∀ x ∈ xs, Relays context asked (f x) (g x)) :
    Relays context asked (each xs f) (each xs g) := by
  intro world
  rw [Engine.each, Engine.each, runIn_bind, runIn_bind]
  rcases outcomes h world with ⟨error, after, hf, hstops⟩ | ⟨first, second, after, hf, hg, halike⟩
  · rw [hf]
    exact .stopped hstops
  · rw [hf, hg]
    exact ofOutcomes halike after

/-- A task beside the same task with its failures changed. -/
theorem task {change : Error → Error} (hchange : KeepsStops change) {run : Runner} {task : Task α}
    (h : ∀ error, Fails context (run task) error → asked error) :
    Relays context asked (run task) (Recipe.changing change run task) := by
  intro world
  rw [Recipe.changing, runIn_mapError]
  rcases hrun : (run task).runIn context world with ⟨error | a, after⟩
  · by_cases hstops : error.cause.stopsRun = true
    · exact .stopped hstops
    · refine .alike (.asked (h error ⟨world, after, hrun⟩) ?_)
      rw [hchange error]
      simpa using hstops
  · exact .alike (.same _)

end Relays

/-- A part of a run fails by itself, or because a task that it asks for fails. -/
theorem failsItself_or_asked (part : Runner → Engine α) {run : Runner} {world after : World}
    {error : Error}
    (hrelays : ∀ change, KeepsStops change →
      Relays context asked (part run) (part (Recipe.changing change run)))
    (h : (part run).runIn context world = (.error error, after))
    (hgoes : error.cause.stopsRun = false) :
    FailsItself context part run world error ∨ asked error := by
  by_cases hasked : asked error
  · exact .inr hasked
  · refine .inl ⟨after, ?_⟩
    -- The failure is not that of a task, so both sides have it, however failures are changed.
    intro change hchange
    have hrelayed := hrelays change hchange world
    rw [h] at hrelayed
    generalize (part (Recipe.changing change run)).runIn context world = other at hrelayed ⊢
    cases hrelayed with
    | stopped hstops => exact absurd hstops (by simp [hgoes])
    | alike halike =>
      cases halike with
      | same => rfl
      | asked h => exact absurd h hasked

end Engine

/-! ## The tasks that an entry asks for -/

namespace Recipe

open Engine

variable {context : Context} {run : Runner} {bindings params : Fields} {key : String}
  {table : Table} {given : Option Table} {change : Error → Error} {part : Part}
  {entry value : Value} {number : Nat}

/-- whether a part is an action -/
def Part.IsAction : Part → Prop
  | .action _ _ | .repeated _ => True
  | _ => False

/-- the entries that read from a combination of sources -/
def combining : List String := ["join", "union", "concatenate"]

/-- a task that a part of a run asks for, with an entry of the name `key` under the bindings around
it: the recipe that it holds, one of the sources that it combines, or the part of a recipe that it
repeats -/
inductive Asks (bindings : Fields) : Part → (key : String) → (params : Fields) → {α : Type} →
    Task α → Prop where
  | recipe {part : Part} {params given : Fields} {source : Source} {table : Option Table}
    (hsource : nestedSource params = .ok source) (hgiven : nestedVariables params = .ok given) :
    Asks bindings part "recipe" params (.recipe source given table)
  | source {entry : Value} {key : String} {params : Fields} {items : List Value} {item : Value}
    {table : Option Table} (hkey : key ∈ combining) (hsources : sources key params = .ok items)
    (hmem : item ∈ items) :
    Asks bindings (.read entry) key params (.readEntry item table bindings)
  | read {entry : Value} {params binding : Fields} {body value : Value} {table : Option Table}
    (hbody : matrixBody params "read" "read" = .ok body)
    (hvalue : Placeholder.resolveSteps Placeholder.readDocument (Fields.extend bindings binding)
      body = .ok value) :
    Asks bindings (.read entry) "matrix" params (.read value table (Fields.extend bindings binding))
  | steps {entry : Value} {number : Nat} {params binding : Fields} {body value : Value}
    {table : Table} (hbody : matrixBody params "wrangles" "wrangle" = .ok body)
    (hvalue : Placeholder.resolveSteps Placeholder.readDocument (Fields.extend bindings binding)
      body = .ok value) :
    Asks bindings (.step entry number) "matrix" params
      (.steps value table (Fields.extend bindings binding))
  | write {entry : Value} {params binding : Fields} {body value : Value} {table : Table}
    (hbody : matrixBody params "write" "write" = .ok body)
    (hvalue : Placeholder.resolveSteps Placeholder.readDocument (Fields.extend bindings binding)
      body = .ok value) :
    Asks bindings (.write entry) "matrix" params
      (.write value table (Fields.extend bindings binding))
  | act {part : Part} {params binding : Fields} {body value : Value} (haction : part.IsAction)
    (hbody : matrixBody params "run" "run" = .ok body)
    (hvalue : Placeholder.resolveSteps Placeholder.readDocument (Fields.extend bindings binding)
      body = .ok value) :
    Asks bindings part "matrix" params (.act value (Fields.extend bindings binding))

/-- whether a failure is that of a task that a part of a run asks for, with an entry of the name
`key` and the parameters `value` -/
def AskedBy (context : Context) (run : Runner) (bindings : Fields) (part : Part) (key : String)
    (value : Value) (error : Error) : Prop :=
  ∃ (params : Fields) (α : Type) (task : Task α), Params.ofValue key value = .ok params ∧
    Asks bindings part key params task ∧ Fails context (run task) error

/-- The parameters that choose a part of a table do not bear on the tasks. -/
theorem Asks.of_without {α : Type} {task : Task α}
    (h : Asks bindings (.write entry) key (params.without projectionParams) task) :
    Asks bindings (.write entry) key params task := by
  have hfind {name : String} (hname : name ∉ projectionParams) :
      Fields.find? name (params.without projectionParams) = Fields.find? name params := by
    rw [Fields.find?_without, if_neg hname]
  generalize hkept : params.without projectionParams = kept at h
  cases h with
  | recipe hsource hgiven =>
    subst hkept
    rw [nestedSource, hfind (by decide), hfind (by decide)] at hsource
    rw [nestedVariables, hfind (by decide)] at hgiven
    exact .recipe hsource hgiven
  | write hbody hvalue =>
    subst hkept
    rw [matrixBody, hfind (by decide)] at hbody
    exact .write hbody hvalue
  | act haction => exact haction.elim

/-- What an entry reads from is told by its name. -/
theorem of_originOf {origin : Origin} {world after : World}
    (h : (originOf key).runIn context world = (.ok origin, after)) :
    (origin = .combination → key ∈ combining) ∧ (origin = .matrix → key = "matrix") ∧
      (origin = .recipe → key = "recipe") := by
  unfold originOf at h
  split at h
  iterate 5
    · obtain ⟨rfl, -⟩ := pure_ok h
      simp [combining]
  split at h
  · obtain ⟨rfl, -⟩ := pure_ok h
    simp
  · obtain ⟨connector, _, -, h⟩ := bind_ok h
    obtain ⟨rfl, -⟩ := pure_ok h
    simp

theorem relays_eachBinding {α : Type} {asked : Error → Prop} {body : Value}
    {job job' : Value → Fields → Engine α}
    (hjob : ∀ value binding, Placeholder.resolveSteps Placeholder.readDocument
        (Fields.extend bindings binding) body = .ok value →
      Relays context asked (job value (Fields.extend bindings binding))
        (job' value (Fields.extend bindings binding))) :
    Relays context asked (eachBinding params given bindings body job)
      (eachBinding params given bindings body job') := by
  apply Relays.bind (.refl _)
  intro all
  apply Relays.each
  intro binding _
  apply Relays.ofExcept_bind
  intro value hvalue
  exact hjob value binding hvalue

/-- Only recipes and matrices ask for tasks among the steps, and both reshape rows. -/
theorem dispatch_changing (hkey : key ∉ reshaping) (conditional : Bool) :
    dispatch (changing change run) key params table bindings conditional =
      dispatch run key params table bindings conditional := by
  simp only [dispatch]
  split
  · simp [reshaping] at hkey
  · simp [reshaping] at hkey
  · rfl

section

variable (hchange : KeepsStops change)
include hchange

theorem relays_asked {α : Type} {task : Task α} (hparams : Params.ofValue key value = .ok params)
    (h : Asks bindings part key params task) :
    Relays context (AskedBy context run bindings part key value) (run task)
      (changing change run task) :=
  .task hchange fun _ hfails => ⟨params, α, task, hparams, h, hfails⟩

theorem relays_nested (hparams : Params.ofValue "recipe" value = .ok params)
    (source : Option Table) :
    Relays context (AskedBy context run bindings part "recipe" value) (nested run params source)
      (nested (changing change run) params source) := by
  apply Relays.ofExcept_bind
  intro found hsource
  apply Relays.ofExcept_bind
  intro own hgiven
  exact .bind (relays_asked hchange hparams (.recipe hsource hgiven)) fun _ => .refl _

theorem relays_readOrigin {origin : Origin} {world after : World}
    (hparams : Params.ofValue key value = .ok params)
    (horigin : (originOf key).runIn context world = (.ok origin, after)) :
    Relays context (AskedBy context run bindings (.read entry) key value)
      (readOrigin run key params given bindings origin)
      (readOrigin (changing change run) key params given bindings origin) := by
  obtain ⟨hcombination, hmatrix, hrecipe⟩ := of_originOf horigin
  cases origin with
  | combination =>
    apply Relays.ofExcept_bind
    intro items hitems
    refine .bind (.mapM ?_) fun _ => .refl _
    intro item hmem
    exact relays_asked hchange hparams (.source (hcombination rfl) hitems hmem)
  | matrix =>
    obtain rfl := hmatrix rfl
    apply Relays.ofExcept_bind
    intro body hbody
    refine .bind (relays_eachBinding ?_) fun _ => .refl _
    intro value binding hvalue
    exact relays_asked hchange hparams (.read hbody hvalue)
  | recipe =>
    obtain rfl := hrecipe rfl
    exact relays_nested hchange hparams none
  | function name => exact .refl _
  | connector connector => exact .refl _

theorem relays_dispatch (hparams : Params.ofValue key value = .ok params) (conditional : Bool) :
    Relays context (AskedBy context run bindings (.step entry number) key value)
      (dispatch run key params table bindings conditional)
      (dispatch (changing change run) key params table bindings conditional) := by
  simp only [dispatch]
  split
  · split
    · exact .refl _
    · exact .ofExcept_bind fun _ _ => .bind (relays_nested hchange hparams _) fun _ => .refl _
  · split
    · exact .refl _
    · apply Relays.ofExcept_bind
      intro body hbody
      apply Relays.bind (.refl _)
      intro all
      apply Relays.foldlM
      intro before binding _
      apply Relays.ofExcept_bind
      intro value hvalue
      exact .bind (relays_asked hchange hparams (.steps hbody hvalue)) fun _ => .refl _
  · exact .refl _

theorem relays_applyStep :
    Relays context (AskedBy context run bindings (.step entry number) key value)
      (applyStep run key value table bindings)
      (applyStep (changing change run) key value table bindings) := by
  apply Relays.ofExcept_bind
  intro params hparams
  split
  · exact relays_dispatch hchange hparams false
  · by_cases hkey : reshaping.contains key
    · rw [if_pos hkey, if_pos hkey]
      exact relays_dispatch hchange hparams true
    · rw [if_neg hkey, if_neg hkey]
      have hkey : key ∉ reshaping := by simpa using hkey
      simp only [applySelected, dispatch_changing hkey]
      exact .refl _

theorem relays_writePart (hparams : Params.ofValue key value = .ok params) :
    Relays context (AskedBy context run bindings (.write entry) key value)
      (writePart run key params table bindings)
      (writePart (changing change run) key params table bindings) := by
  apply Relays.ofExcept_bind
  intro chosen _
  refine .bind ?_ fun _ => .refl _
  simp only [writeTo]
  split
  · exact .refl _
  · apply Relays.ofExcept_bind
    intro body hbody
    refine .bind (relays_eachBinding ?_) fun _ => .refl _
    intro value binding hvalue
    exact relays_asked hchange hparams (Asks.write hbody hvalue).of_without
  · refine .bind ?_ fun _ => .refl _
    apply Relays.ofExcept_bind
    intro source hsource
    apply Relays.ofExcept_bind
    intro own hgiven
    refine .bind (relays_asked hchange hparams ?_) fun _ => .refl _
    exact (Asks.recipe hsource hgiven).of_without
  · exact .refl _

theorem relays_act (haction : part.IsAction) :
    Relays context (AskedBy context run bindings part key value) (act run key value bindings)
      (act (changing change run) key value bindings) := by
  apply Relays.ofExcept_bind
  intro params hparams
  split
  · apply Relays.ofExcept_bind
    intro body hbody
    refine .bind (relays_eachBinding ?_) fun _ => .refl _
    intro value binding hvalue
    exact relays_asked hchange hparams (.act haction hbody hvalue)
  · exact .bind (relays_nested hchange hparams none) fun _ => .refl _
  · exact .refl _

end

end Recipe

end TableRecipe
