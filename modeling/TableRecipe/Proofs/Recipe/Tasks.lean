import TableRecipe.Proofs.Fields
import TableRecipe.Proofs.Recipe.Reached

/-!
# Tasks that a run asks for

A run asks for no other tasks than those whose part of a recipe it has reached. So two ways to
carry out tasks lead to the same run if they agree on these.

* `Recipe.Reaches` — the tasks whose part of a recipe was reached;
* `Recipe.performWith_congr`, `Recipe.execute_congr` — ways to carry out tasks that agree on them;
* `Recipe.refusing`, `Recipe.execute_refusing` — a run in which all others are refused.
-/

namespace TableRecipe

/-- whether a task is to run a recipe -/
def Task.isRecipe {α : Type} : Task α → Bool
  | recipe .. => true
  | _ => false

namespace Recipe

open Placeholder

variable {document : Value} {outer bindings : Fields} {earlier passes : List Fields}
  {run run' : Runner} {table : Table} {source : Option Table} {α : Type}

/-! ## What was reached -/

/-- a part of a recipe that was reached -/
def ReachedPart (document : Value) (outer : Fields) (passes : List Fields) (part : Value) : Prop :=
  ∃ place, Reached document outer place part passes

/-- parameters whose values were all reached -/
def ReachedParams (document : Value) (outer : Fields) (passes : List Fields) (params : Fields) :
    Prop :=
  ∀ name value, Fields.find? name params = some value → ReachedPart document outer passes value

/-- the tasks whose part of a recipe was reached; a recipe within the recipe begins anew -/
def Reaches (document : Value) (outer : Fields) : {α : Type} → Task α → Prop
  | _, .recipe .. => True
  | _, .read body _ bindings => ∃ earlier, ReachedPart document outer (bindings :: earlier) body
  | _, .readEntry entry _ bindings =>
    ∃ earlier, ReachedPart document outer (bindings :: earlier) entry
  | _, .steps body _ bindings => ∃ earlier, ReachedPart document outer (bindings :: earlier) body
  | _, .write body _ bindings => ∃ earlier, ReachedPart document outer (bindings :: earlier) body
  | _, .act actions bindings => ∃ earlier, ReachedPart document outer (bindings :: earlier) actions

theorem ReachedPart.part {value part : Value} {place : List Nat}
    (h : ReachedPart document outer passes value) (hpart : value.at? place = some part) :
    ReachedPart document outer passes part := by
  obtain ⟨start, hreached⟩ := h
  exact ⟨start ++ place, hreached.part hpart⟩

theorem ReachedPart.toParams {params : Fields}
    (h : ReachedPart document outer passes (.object params)) :
    ReachedParams document outer passes params := by
  intro name value hfind
  obtain ⟨position, hposition⟩ := Value.at?_of_find? hfind
  exact h.part hposition

/-- a section whose entries were all reached -/
def ReachedEntries (document : Value) (outer : Fields) (passes : List Fields) (name : String)
    (body : Value) : Prop :=
  ∀ items, entries name body = .ok items → ∀ entry ∈ items, ReachedPart document outer passes entry

theorem ReachedPart.toEntries {body : Value} (h : ReachedPart document outer passes body)
    (name : String) : ReachedEntries document outer passes name body := by
  intro items hentries entry hmem
  cases body with
  | list found =>
    obtain rfl := Except.ok.inj hentries
    obtain ⟨position, hposition⟩ := List.mem_iff_getElem?.mp hmem
    have hplace : (Value.list found).at? [position] = some entry := by
      rw [Value.at?_cons, Value.parts, hposition]
      rfl
    exact h.part hplace
  | object fields =>
    obtain rfl := Except.ok.inj hentries
    obtain rfl := List.mem_singleton.mp hmem
    exact h
  | null =>
    obtain rfl := Except.ok.inj hentries
    cases hmem
  | bool flag => cases hentries
  | number n => cases hentries
  | string text => cases hentries

/-- The parameters of an entry that was reached. -/
theorem ReachedPart.paramsOf {entry params : Value} {part key step : String} {fields : Fields}
    (h : ReachedPart document outer passes entry)
    (hentry : keyAndParams part entry = .ok (key, params))
    (hparams : Params.ofValue step params = .ok fields) :
    ReachedParams document outer passes fields := by
  simp only [keyAndParams] at hentry
  split at hentry
  · rename_i key' params'
    obtain ⟨-, rfl⟩ := Prod.mk.inj (Except.ok.inj hentry)
    have hplace : (Value.object [(key', params')]).at? [0] = some params' := rfl
    have hreached := h.part hplace
    cases params' with
    | object found =>
      obtain rfl := Except.ok.inj hparams
      exact hreached.toParams
    | null =>
      obtain rfl := Except.ok.inj hparams
      exact nofun
    | list items => cases hparams
    | bool flag => cases hparams
    | number n => cases hparams
    | string text => cases hparams
  · obtain ⟨rfl, rfl⟩ := Prod.mk.inj (Except.ok.inj hentry)
    obtain rfl := Except.ok.inj hparams
    exact nofun
  · cases hentry

theorem ReachedParams.without {params : Fields} {names : List String}
    (h : ReachedParams document outer passes params) :
    ReachedParams document outer passes (params.without names) := by
  intro name value hfind
  rw [Fields.find?_without] at hfind
  split at hfind
  · cases hfind
  · exact h name value hfind

theorem ReachedParams.matrixBody {params : Fields} {name activity : String} {body : Value}
    (h : ReachedParams document outer passes params)
    (hbody : matrixBody params name activity = .ok body) :
    ReachedPart document outer passes body := by
  rw [Recipe.matrixBody] at hbody
  split at hbody
  · rename_i found hfind
    obtain rfl := Except.ok.inj hbody
    exact h name found hfind
  · cases hbody

theorem ReachedParams.sources {params : Fields} {key : String} {items : List Value}
    (h : ReachedParams document outer passes params) (hitems : sources key params = .ok items) :
    ∀ entry ∈ items, ReachedPart document outer passes entry := by
  rw [Recipe.sources] at hitems
  split at hitems
  · cases hitems
  · cases hitems
  · rename_i found hfind
    obtain rfl := Except.ok.inj hitems
    exact (h _ _ hfind).toEntries "read" _ rfl
  · cases hitems

/-! ## Ways to carry out tasks -/

/-- two ways to carry out tasks agree on those whose part of a recipe was reached -/
def AgreeOn (document : Value) (outer : Fields) (run run' : Runner) : Prop :=
  ∀ (α : Type) (task : Task α), Reaches document outer task → run task = run' task

/-- A body is resolved again for every binding of its matrix. -/
theorem eachBinding_congr {params : Fields} {body : Value} {job job' : Value → Fields → Engine α}
    (hbody : ReachedPart document outer (bindings :: earlier) body)
    (hjob : ∀ value bindings, (∃ earlier, ReachedPart document outer (bindings :: earlier) value) →
      job value bindings = job' value bindings) :
    eachBinding params source bindings body job = eachBinding params source bindings body job' := by
  refine Engine.bind_congr fun all context world world' hall => Engine.each_congr ?_
  intro binding hmem
  refine Engine.ofExcept_bind_congr fun value hvalue => hjob value _ ?_
  obtain ⟨place, hreached⟩ := hbody
  exact ⟨_, place, hreached.body binding (.matrix hall hmem) hvalue⟩

section

variable (hagree : AgreeOn document outer run run')
include hagree

theorem nested_congr (params : Fields) (source : Option Table) :
    nested run params source = nested run' params source := by
  refine Engine.ofExcept_bind_congr fun found _ => Engine.ofExcept_bind_congr fun given _ => ?_
  rw [hagree _ (.recipe found given source) trivial]

/-! ## Steps -/

theorem applyMatrix_congr {params : Fields}
    (hparams : ReachedParams document outer (bindings :: earlier) params) :
    applyMatrix run params table bindings = applyMatrix run' params table bindings := by
  refine Engine.ofExcept_bind_congr fun body hbody => ?_
  refine Engine.bind_congr fun all context world world' hall => Engine.foldlM_congr ?_
  intro table binding hmem
  refine Engine.ofExcept_bind_congr fun value hvalue => ?_
  obtain ⟨place, hreached⟩ := hparams.matrixBody hbody
  have hreaches : ∃ earlier, ReachedPart document outer
      (Fields.extend bindings binding :: earlier) value :=
    ⟨_, place, hreached.body binding (.matrix hall hmem) hvalue⟩
  rw [hagree _ (.steps value table (Fields.extend bindings binding)) hreaches]

theorem dispatch_congr {key : String} {params : Fields} {conditional : Bool}
    (hparams : ReachedParams document outer (bindings :: earlier) params) :
    dispatch run key params table bindings conditional =
      dispatch run' key params table bindings conditional := by
  simp only [dispatch]
  split
  · simp only [applyRecipe]
    rw [nested_congr hagree]
  · rw [applyMatrix_congr hagree hparams]
  · rfl

theorem applyStep_congr {key : String} {params : Value}
    (hparams : ∀ fields, Params.ofValue key params = .ok fields →
      ReachedParams document outer (bindings :: earlier) fields) :
    applyStep run key params table bindings = applyStep run' key params table bindings := by
  refine Engine.ofExcept_bind_congr fun fields hfields => ?_
  have hreached := hparams fields hfields
  split
  · rw [dispatch_congr hagree hreached]
  · split
    · rw [dispatch_congr hagree hreached]
    · refine Engine.ofExcept_bind_congr fun text _ => ?_
      refine Engine.ofExcept_bind_congr fun selected _ => ?_
      dsimp only
      rw [dispatch_congr hagree hreached.without]

theorem applySteps_congr {body : Value}
    (hbody : ReachedEntries document outer (bindings :: earlier) "wrangles" body) :
    applySteps run body table bindings = applySteps run' body table bindings := by
  refine Engine.ofExcept_bind_congr fun items hitems => Engine.foldlM_congr ?_
  rintro ⟨table, applied⟩ ⟨entry, number⟩ hmem
  have hentry := hbody items hitems entry (List.fst_mem_of_mem_zipIdx hmem)
  refine Engine.ofExcept_bind_congr fun found hfound => ?_
  obtain ⟨key, params⟩ := found
  simp only
  rw [applyStep_congr hagree fun fields hfields => hentry.paramsOf hfound hfields]

/-! ## Reading -/

theorem readCombined_congr {key : String} {params : Fields}
    (hparams : ReachedParams document outer (bindings :: earlier) params) :
    readCombined run key params source bindings = readCombined run' key params source bindings := by
  refine Engine.ofExcept_bind_congr fun entries hentries => ?_
  have hreached := hparams.sources hentries
  rw [mapM_congr fun entry hmem =>
    hagree _ (.readEntry entry source bindings) ⟨earlier, hreached entry hmem⟩]

theorem readMatrix_congr {params : Fields}
    (hparams : ReachedParams document outer (bindings :: earlier) params) :
    readMatrix run params source bindings = readMatrix run' params source bindings := by
  refine Engine.ofExcept_bind_congr fun body hbody => ?_
  rw [eachBinding_congr (hparams.matrixBody hbody) fun value bindings hvalue =>
    hagree _ (.read value source bindings) hvalue]

theorem readEntry_congr {entry : Value}
    (hentry : ReachedPart document outer (bindings :: earlier) entry) :
    readEntry run entry source bindings = readEntry run' entry source bindings := by
  refine Engine.ofExcept_bind_congr fun found hfound => ?_
  obtain ⟨key, params⟩ := found
  refine Engine.ofExcept_bind_congr fun fields hfields => ?_
  have hparams := hentry.paramsOf hfound hfields
  refine Engine.bind_congr fun origin _ _ _ _ => ?_
  have horigin : readOrigin run key fields source bindings origin =
      readOrigin run' key fields source bindings origin := by
    cases origin with
    | combination => exact readCombined_congr hagree hparams
    | matrix => exact readMatrix_congr hagree hparams
    | recipe => exact nested_congr hagree fields none
    | function name => rfl
    | connector connector => rfl
  rw [horigin]

theorem readSection_congr {body : Value}
    (hbody : ReachedEntries document outer (bindings :: earlier) "read" body) :
    readSection run body source bindings = readSection run' body source bindings := by
  refine Engine.ofExcept_bind_congr fun items hitems => ?_
  split
  · rfl
  · rename_i entry
    exact readEntry_congr hagree (hbody _ hitems entry (List.mem_singleton_self _))
  · rfl

/-! ## Writing -/

theorem writeTo_congr {key : String} {params : Fields}
    (hparams : ReachedParams document outer (bindings :: earlier) params) :
    writeTo run key params table bindings = writeTo run' key params table bindings := by
  simp only [writeTo]
  split
  · rfl
  · refine Engine.ofExcept_bind_congr fun body hbody => ?_
    rw [eachBinding_congr (hparams.matrixBody hbody) fun value bindings hvalue =>
      hagree _ (.write value table bindings) hvalue]
  · rw [nested_congr hagree]
  · rfl

theorem writeSection_congr {body : Value}
    (hbody : ReachedEntries document outer (bindings :: earlier) "write" body) :
    writeSection run body table bindings = writeSection run' body table bindings := by
  refine Engine.ofExcept_bind_congr fun items hitems => ?_
  have hentries : items.mapM (writeEntry run table bindings) =
      items.mapM (writeEntry run' table bindings) := by
    refine mapM_congr fun entry hmem => ?_
    refine Engine.ofExcept_bind_congr fun found hfound => ?_
    obtain ⟨key, params⟩ := found
    refine Engine.ofExcept_bind_congr fun fields hfields => ?_
    have hparams := (hbody items hitems entry hmem).paramsOf hfound hfields
    have hpart : writePart run key fields table bindings =
        writePart run' key fields table bindings := by
      refine Engine.ofExcept_bind_congr fun part _ => ?_
      rw [writeTo_congr hagree hparams.without]
    rw [hpart]
  rw [hentries]

/-! ## Hooks -/

theorem act_congr {key : String} {params : Value}
    (hparams : ∀ fields, Params.ofValue key params = .ok fields →
      ReachedParams document outer (bindings :: earlier) fields) :
    act run key params bindings = act run' key params bindings := by
  refine Engine.ofExcept_bind_congr fun fields hfields => ?_
  have hreached := hparams fields hfields
  split
  · refine Engine.ofExcept_bind_congr fun body hbody => ?_
    rw [eachBinding_congr (hreached.matrixBody hbody) fun value bindings hvalue =>
      hagree _ (.act value bindings) hvalue]
  · rw [nested_congr hagree]
  · rfl

theorem actAll_congr {actions : Value}
    (hactions : ReachedEntries document outer (bindings :: earlier) "run" actions) :
    actAll run actions bindings = actAll run' actions bindings := by
  refine Engine.ofExcept_bind_congr fun items hitems => ?_
  refine congrArg (· >>= _) (Engine.forIn_congr fun action hmem _ => ?_)
  refine Engine.ofExcept_bind_congr fun found hfound => ?_
  obtain ⟨key, params⟩ := found
  dsimp only
  have hreached := hactions _ hitems action hmem
  rw [act_congr hagree fun fields hfields => hreached.paramsOf hfound hfields]

theorem runHook_congr {phase : String} {action : Value}
    (haction : ReachedPart document outer (bindings :: earlier) action) :
    runHook run phase bindings action = runHook run' phase bindings action := by
  refine Engine.ofExcept_bind_congr fun found hfound => ?_
  obtain ⟨key, params⟩ := found
  dsimp only
  rw [act_congr hagree fun fields hfields => haction.paramsOf hfound hfields]

end

/-! ## The recipe -/

section

variable {recipe : Fields} (hresolve : Recipe.resolve document outer = .ok recipe)
include hresolve

theorem reached_of_find? {name : String} {value : Value}
    (hfind : Fields.find? name recipe = some value) :
    ReachedPart document outer [outer] value := by
  have hrecipe : ReachedPart document outer [outer] (.object recipe) := ⟨[], .recipe hresolve⟩
  exact hrecipe.toParams name value hfind

theorem reachedEntries_sectionOf (name : String) :
    ReachedEntries document outer [outer] name (sectionOf recipe name) := by
  intro items hitems
  rw [sectionOf] at hitems
  rcases hfind : Fields.find? name recipe with _ | body <;> rw [hfind] at hitems
  · obtain rfl := Except.ok.inj hitems
    exact nofun
  · exact (reached_of_find? hresolve hfind).toEntries name items hitems

/-- The actions of a phase are reached, under the names that they have of their own. -/
theorem reached_of_hooks {own : Fields} {phase : String} {actions : List Value}
    {context : Context} {world world' : World} (hown : OwnNames own)
    (h : (hooks recipe phase (Fields.extend outer own)).runIn context world =
      (.ok actions, world')) :
    ∀ action ∈ actions, ReachedPart document outer [Fields.extend outer own, outer] action := by
  rw [hooks] at h
  split at h
  · obtain ⟨rfl, -⟩ := Engine.pure_ok h
    exact nofun
  · rename_i body hbody
    obtain ⟨value, hvalue, h⟩ := Engine.ofExcept_bind_ok h
    obtain ⟨phases, hphases, hbody⟩ := Option.bind_eq_some_iff.mp hbody
    have hkept : ReachedPart document outer [outer] body := by
      cases phases with
      | object entries => exact (reached_of_find? hresolve hphases).toParams phase body hbody
      | null => cases hbody
      | bool flag => cases hbody
      | number n => cases hbody
      | string text => cases hbody
      | list items => cases hbody
    obtain ⟨place, hreached⟩ := hkept
    have hagain : ReachedPart document outer [Fields.extend outer own, outer] value :=
      ⟨place, hreached.body own hown hvalue⟩
    exact hagain.toEntries phase actions (Engine.ofExcept_ok h).1

section

variable (hagree : AgreeOn document outer run run')
include hagree

theorem runHooks_congr {phase : String} :
    runHooks run recipe phase outer = runHooks run' recipe phase outer := by
  refine Engine.bind_congr fun actions context world world' hactions => ?_
  refine congrArg (· >>= _) (Engine.forIn_congr fun action hmem _ => ?_)
  have hnone : OwnNames [] := .none
  have hreached := reached_of_hooks hresolve hnone hactions action hmem
  exact congrArg (· >>= _) (runHook_congr hagree hreached)

theorem runFailureHooks_congr {error : Error} :
    runFailureHooks run recipe outer error = runFailureHooks run' recipe outer error := by
  refine Engine.bind_congr fun outcome context world world' houtcome => ?_
  cases outcome with
  | error e => rfl
  | ok actions =>
    refine congrArg (· >>= _) (Engine.forIn_congr fun action hmem _ => ?_)
    have hreached := reached_of_hooks hresolve (.failure error) (Engine.attempt_ok houtcome)
      action hmem
    have hhook : runHook run "on_failure" _ action = runHook run' "on_failure" _ action :=
      runHook_congr hagree hreached
    exact congrArg (fun hook : Engine Unit => hook.attempt >>= _) hhook

theorem stages_congr :
    stages run recipe outer source = stages run' recipe outer source := by
  rw [stages]
  rw [runHooks_congr hresolve hagree, runHooks_congr hresolve hagree,
    readSection_congr hagree (reachedEntries_sectionOf hresolve "read")]
  refine congrArg (_ >>= ·) (funext fun _ => congrArg (_ >>= ·) (funext fun source => ?_))
  rw [applySteps_congr hagree (reachedEntries_sectionOf hresolve "wrangles")]
  refine congrArg (_ >>= ·) (funext fun ⟨changed, steps⟩ => ?_)
  dsimp only
  rw [writeSection_congr hagree (reachedEntries_sectionOf hresolve "write")]

end

end

/-- Ways to carry out tasks that agree on what is reached run a recipe alike. -/
theorem execute_congr (hagree : AgreeOn document outer run run') :
    execute run document outer source = execute run' document outer source := by
  refine Engine.ofExcept_bind_congr fun recipe hresolve => ?_
  rw [stages_congr hresolve hagree]
  refine congrArg (_ >>= ·) (funext fun outcome => ?_)
  cases outcome with
  | ok result => rfl
  | error e =>
    dsimp only
    rw [runFailureHooks_congr hresolve hagree]

/-- Tasks whose part of a recipe was reached ask for such tasks again. -/
theorem performWith_congr (hagree : AgreeOn document outer run run') {task : Task α}
    (hreaches : Reaches document outer task) (hrecipe : ¬ task.isRecipe) :
    task.performWith run = task.performWith run' := by
  cases task with
  | recipe source given table => exact (hrecipe rfl).elim
  | read body table bindings =>
    obtain ⟨earlier, hbody⟩ := hreaches
    exact readSection_congr hagree (hbody.toEntries "read")
  | readEntry entry table bindings =>
    obtain ⟨earlier, hentry⟩ := hreaches
    exact readEntry_congr hagree hentry
  | steps body table bindings =>
    obtain ⟨earlier, hbody⟩ := hreaches
    exact applySteps_congr hagree (hbody.toEntries "wrangles")
  | write body table bindings =>
    obtain ⟨earlier, hbody⟩ := hreaches
    exact writeSection_congr hagree (hbody.toEntries "write")
  | act actions bindings =>
    obtain ⟨earlier, hactions⟩ := hreaches
    exact actAll_congr hagree (hactions.toEntries "run")

open Classical in
/-- a run that refuses all tasks whose part of a recipe was not reached; recipes within the recipe
are run as ever -/
noncomputable def refusing {α : Type} (document : Value) (outer : Fields) :
    (depth : Nat) → Task α → Engine α
  | 0, task => task.perform 0
  | depth + 1, task =>
    if task.isRecipe then task.perform (depth + 1)
    else if Reaches document outer task then task.performWith (refusing document outer depth)
    else throw (.of .nesting)

theorem agreeOn_refusing (document : Value) (outer : Fields) (depth : Nat) :
    AgreeOn document outer (Task.perform depth) (refusing document outer depth) := by
  induction depth with
  | zero => exact fun _ _ _ => rfl
  | succ depth ih =>
    intro α task hreaches
    change task.perform (depth + 1) = refusing document outer (depth + 1) task
    rw [refusing]
    by_cases hrecipe : task.isRecipe
    · simp [hrecipe]
    · simp only [hrecipe, Bool.false_eq_true, if_false, hreaches, if_true]
      exact performWith_congr ih hreaches hrecipe

/-- The run of a recipe asks for nothing but what it reached, however deep. -/
theorem execute_refusing (document : Value) (outer : Fields) (depth : Nat)
    (source : Option Table) :
    execute (Task.perform depth) document outer source =
      execute (refusing document outer depth) document outer source :=
  execute_congr (agreeOn_refusing document outer depth)

end Recipe

end TableRecipe
