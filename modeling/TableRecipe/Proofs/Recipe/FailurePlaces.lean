import TableRecipe.Proofs.Recipe.Relayed

/-!
# The places of failures

A failure comes from an innermost entry: it lies in another one by way of a task, and that one may
lie in a third. The failure has the place of the innermost entry, with three exceptions, in which
it has the place of the entry around it, if there is one: the part of a source that an entry reads
cannot be chosen, the connector that it reads from is unknown, or the parameters of an entry that
reads or writes are no mapping.

* `Error.locateAt` — a failure with a place, unless it has one;
* `Recipe.Raises` — what an entry raises itself, and whether it tells its place;
* `Recipe.Fault`, `Recipe.Fault.eq_locateAt` — where in a task a failure comes from, and the place
  that it gets on its way out;
* `Recipe.place_of_failure` — the place that a failure has.
-/

namespace TableRecipe

/-! ## Places -/

/-- the place of an entry -/
structure Place where
  /-- where the entry is -/
  location : String
  /-- the name of the entry -/
  key : String
  deriving DecidableEq, Repr

namespace Error

variable {error : Error}

/-- adds a place and the hint for it, if there is a place, unless the failure has them already -/
def locateAt (error : Error) : Option Place → Error
  | none => error
  | some place => error.locate place.location place.key

@[simp] theorem cause_locate (location step : String) :
    (error.locate location step).cause = error.cause := by
  rw [locate, enrich]
  split <;> rfl

@[simp] theorem cause_locateAt (place : Option Place) :
    (error.locateAt place).cause = error.cause := by
  cases place with
  | none => rfl
  | some place => exact cause_locate ..

theorem isEnriched_locate (location step : String) : (error.locate location step).isEnriched := by
  rw [locate, enrich]
  split
  · assumption
  · rfl

theorem locate_of_isEnriched (h : error.isEnriched) (location step : String) :
    error.locate location step = error := by
  rw [locate, enrich, if_pos h]

theorem locate_of_not_isEnriched (h : error.isEnriched = false) (location step : String) :
    error.locate location step = ⟨error.cause, some location, some (error.cause.hint step)⟩ := by
  rw [locate, enrich, h]
  rfl

/-- Of two places the inner one is kept. -/
theorem locateAt_locateAt (inner outer : Option Place) :
    (error.locateAt inner).locateAt outer = error.locateAt (inner.or outer) := by
  cases inner with
  | none => rfl
  | some place =>
    cases outer with
    | none => rfl
    | some other => exact locate_of_isEnriched (isEnriched_locate ..) ..

end Error

/-- the place that a failure has: of the places from the innermost entry outwards the first one, or
the second one if the innermost entry does not tell its own -/
def toldPlace (path : List Place) (tells : Bool) : Option Place :=
  (if tells then path else path.tail).head?

theorem toldPlace_append {path : List Place} {tells : Bool} (outer : List Place)
    (h : tells = false → path ≠ []) :
    toldPlace (path ++ outer) tells = (toldPlace path tells).or outer.head? := by
  cases tells with
  | true => simp [toldPlace, List.head?_append]
  | false => simp [toldPlace, List.tail_append_of_ne_nil (h rfl), List.head?_append]

theorem toldPlace_toList (place : Option Place) (tells : Bool) :
    toldPlace place.toList tells = if tells then place else none := by
  cases place <;> cases tells <;> rfl

namespace Recipe

variable {α : Type} {context : Context} {run : Runner} {bindings : Fields} {given : Option Table}
  {progress : Progress} {world after : World} {part : Part} {key : String} {error : Error}

/-! ## What a task has to do -/

/-- what a task has to do -/
structure Work where
  /-- the parts to be carried out -/
  parts : List Part
  /-- the bindings for all of them -/
  bindings : Fields
  /-- the table that is given -/
  given : Option Table := none
  /-- how far the task is when it begins -/
  start : Progress

/-- what a task has to do; a recipe must be obtained for that, and its placeholders replaced -/
def workOf : Task α → Engine Work
  | .recipe source given table => do
    let document ← load source
    let bindings ← bindingsOf given
    let recipe ← Engine.ofExcept (resolve document bindings)
    return { parts := parts recipe bindings, bindings, given := table, start := .start table }
  | .read body table bindings =>
    return { parts := readParts body, bindings, given := table, start := .start table }
  | .readEntry entry table bindings =>
    return { parts := [.read entry], bindings, given := table, start := .start table }
  | .steps body table bindings =>
    return { parts := stepParts body, bindings, start := .start (some table) }
  | .write body table bindings =>
    return { parts := writeParts body, bindings, start := .start (some table) }
  | .act actions bindings =>
    return { parts := partsOf (·.map .repeated) (entries "run" actions), bindings,
             start := .start none }

theorem carryOutAll_repeated {actions : Value} :
    carryOutAll run bindings given progress (partsOf (·.map .repeated) (entries "run" actions)) =
      (do actAll run actions bindings; return progress) := by
  rw [actAll]
  cases entries "run" actions with
  | error e => rfl
  | ok items =>
    refine (carryOutAll_map (fun entry => do
      let found ← Engine.ofExcept (keyAndParams "run" entry)
      act run found.1 found.2 bindings) (fun entry => ?_) items).trans ?_
    · simp only [Part.carryOut, bind_assoc]
    · simp only [bind_assoc]
      rfl

theorem bindingsOf_ok (given : Fields) :
    ∃ bindings, (bindingsOf given).runIn context world = (.ok bindings, world) :=
  ⟨_, rfl⟩

/-- A recipe fails because it cannot be obtained or resolved, or because one of its parts fails. -/
theorem broken_of_obtainAndExecute {source : Source} {own : Fields}
    (hrun : ∀ {α : Type} (task : Task α), (run task).Appends)
    (h : (obtainAndExecute run source own given).runIn context world = (.error error, after))
    (hgoes : error.cause.stopsRun = false) :
    (∃ after, (workOf (.recipe source own given)).runIn context world = (.error error, after)) ∨
      ∃ recipe bindings begun effects failed,
        (workOf (.recipe source own given)).runIn context world =
          (.ok { parts := parts recipe bindings, bindings, given, start := .start given }, begun) ∧
        Broken run bindings given context (parts recipe bindings) (.start given) begun error effects
          failed := by
  rw [workOf]
  rw [obtainAndExecute, Engine.runIn_bind] at h
  rcases hload : (load source).runIn context world with ⟨e | document, loaded⟩
  · rw [hload] at h
    obtain ⟨he, rfl⟩ := Prod.mk.inj h
    obtain rfl := Except.error.inj he
    exact .inl ⟨_, by rw [Engine.runIn_bind, hload]⟩
  obtain ⟨bindings, hbindings⟩ := @bindingsOf_ok context loaded own
  rw [hload] at h
  dsimp only at h
  rw [Engine.runIn_bind, hbindings] at h
  dsimp only at h
  simp only [Engine.runIn_bind, hload, hbindings, Engine.runIn_ofExcept]
  rcases hresolve : resolve document bindings with e | recipe
  · rw [execute, hresolve] at h
    obtain ⟨he, rfl⟩ := Prod.mk.inj h
    obtain rfl := Except.error.inj he
    exact .inl ⟨_, rfl⟩
  · obtain ⟨effects, hcourse⟩ := course_of_execute hrun hresolve h
    cases hcourse with
    | failure hbroken => exact .inr ⟨recipe, bindings, loaded, _, _, rfl, hbroken⟩
    | stopped _ hstops => exact absurd hstops (by simp [hgoes])
    | stoppedLater _ _ hhalted => exact absurd hhalted.stopsRun (by simp [hgoes])

/-- A task fails because what it has to do cannot be told, or because one of its parts fails. -/
theorem broken_of_performWith {task : Task α}
    (hrun : ∀ {α : Type} (task : Task α), (run task).Appends)
    (h : (task.performWith run).runIn context world = (.error error, after))
    (hgoes : error.cause.stopsRun = false) :
    (∃ after, (workOf task).runIn context world = (.error error, after)) ∨
      ∃ work begun effects failed, (workOf task).runIn context world = (.ok work, begun) ∧
        Broken run work.bindings work.given context work.parts work.start begun error effects
          failed := by
  -- All tasks but recipes know without any effect what they have to do.
  have hbroken {work : Work} (hwork : workOf task = pure work)
      (hparts : (carryOutAll run work.bindings work.given work.start work.parts).runIn context world =
        (.error error, after)) :
      ∃ work begun effects failed, (workOf task).runIn context world = (.ok work, begun) ∧
        Broken run work.bindings work.given context work.parts work.start begun error effects
          failed := by
    obtain ⟨effects, h⟩ := passed_or_broken hrun hparts
    exact ⟨work, world, effects, after, by rw [hwork]; rfl, h⟩
  cases task with
  | recipe source own given =>
    rcases broken_of_obtainAndExecute hrun h hgoes with
      h | ⟨recipe, bindings, begun, effects, failed, hwork, h⟩
    · exact .inl h
    · exact .inr ⟨_, begun, effects, failed, hwork, h⟩
  | read body table bindings =>
    refine .inr (hbroken rfl ?_)
    rw [carryOutAll_readParts]
    exact Engine.bind_pure_error.mpr h
  | readEntry entry table bindings =>
    refine .inr (hbroken rfl ?_)
    simp only [carryOutAll, List.foldlM_cons, List.foldlM_nil, bind_pure]
    exact Engine.bind_pure_error.mpr h
  | steps body table bindings =>
    refine .inr (hbroken rfl ?_)
    rw [carryOutAll_stepParts rfl]
    exact Engine.bind_pure_error.mpr h
  | write body table bindings =>
    refine .inr (hbroken rfl ?_)
    rw [carryOutAll_writeParts rfl]
    change (writeSection run body table bindings).runIn context world = _ at h
    rw [writeSection] at h
    cases hentries : entries "write" body with
    | error e =>
      rw [hentries] at h
      obtain ⟨he, rfl⟩ := Prod.mk.inj h
      obtain rfl := Except.error.inj he
      rfl
    | ok targets =>
      rw [hentries] at h
      exact Engine.bind_pure_error.mpr (Engine.bind_pure_error.mp h)
  | act actions bindings =>
    refine .inr (hbroken rfl ?_)
    rw [carryOutAll_repeated]
    exact Engine.bind_pure_error.mpr h

/-- A part fails after the parts before it were carried out. -/
theorem Broken.exists_part {parts : List Part} {effects : List Effect}
    (h : Broken run bindings given context parts progress world error effects after) :
    ∃ before part rest earlier middle between, parts = before ++ part :: rest ∧
      Passed run bindings given context before progress world earlier middle between ∧
      (part.carryOut run bindings given middle).runIn context between = (.error error, after) := by
  induction h with
  | here h => exact ⟨[], _, _, [], _, _, rfl, .none, h.runIn_eq⟩
  | later h _ ih =>
    obtain ⟨before, part, rest, earlier, middle, between, rfl, hpassed, hpart⟩ := ih
    exact ⟨_ :: before, part, rest, _, middle, between, rfl, .next h hpassed, hpart⟩

/-! ## What an entry raises -/

namespace Part

/-- the name and the parameters of the entry of a part, if they can be told -/
def head : Part → Except Error (String × Value)
  | action phase entry => keyAndParams phase entry
  | repeated entry => keyAndParams "run" entry
  | read entry => keyAndParams "read" entry
  | step entry _ => keyAndParams "wrangles" entry
  | write entry => keyAndParams "write" entry
  | refused error => .error error

/-- the place of the entry of a part, given its name; an action that a matrix repeats has none -/
def place? (key : String) : Part → Option Place
  | action phase _ => some { location := s!"{phase} ({key})", key }
  | read _ => some { location := s!"read ({key})", key }
  | step _ number => some { location := s!"wrangle #{number} ({key})", key }
  | write _ => some { location := s!"write ({key})", key }
  | repeated _ | refused _ => none

end Part

section

variable (run : Runner) (context : Context) (bindings : Fields) (given : Option Table)
  (progress : Progress) (world : World)

/-- what the entry of a part raises itself, given its name and its parameters, and whether it tells
its place -/
inductive Raises : Part → (key : String) → (params : Value) → (tells : Bool) → Error → Prop where
  | action {part : Part} {key : String} {params : Value} {error : Error} (haction : part.IsAction)
    (h : Engine.FailsItself context (fun run => act run key params bindings) run world error) :
    Raises part key params true error
  | step {entry params : Value} {number : Nat} {key : String} {error : Error}
    (h : Engine.FailsItself context
      (fun run => applyStep run key params progress.table bindings) run world error) :
    Raises (.step entry number) key params true error
  | write {entry params : Value} {key : String} {fields : Fields} {error : Error}
    (hparams : Params.ofValue key params = .ok fields)
    (h : Engine.FailsItself context
      (fun run => writePart run key fields progress.table bindings) run world error) :
    Raises (.write entry) key params true error
  | read {entry params : Value} {key : String} {fields : Fields} {origin : Origin} {begun : World}
    {error : Error} (hparams : Params.ofValue key params = .ok fields)
    (horigin : (originOf key).runIn context world = (.ok origin, begun))
    (h : Engine.FailsItself context
      (fun run => readOrigin run key fields given bindings origin) run begun error) :
    Raises (.read entry) key params true error
  /-- the parameters of an entry that writes are no mapping -/
  | writeParams {entry params : Value} {key : String} {error : Error}
    (hparams : Params.ofValue key params = .error error) :
    Raises (.write entry) key params false error
  /-- the parameters of an entry that reads are no mapping -/
  | readParams {entry params : Value} {key : String} {error : Error}
    (hparams : Params.ofValue key params = .error error) :
    Raises (.read entry) key params false error
  /-- the connector that an entry reads from is unknown -/
  | connector {entry params : Value} {key : String} {fields : Fields} {after : World}
    {error : Error} (hparams : Params.ofValue key params = .ok fields)
    (horigin : (originOf key).runIn context world = (.error error, after)) :
    Raises (.read entry) key params false error
  /-- the part of a source that an entry reads cannot be chosen -/
  | project {entry params : Value} {key : String} {fields : Fields} {origin : Origin}
    {begun after : World} {table : Table} {error : Error}
    (hparams : Params.ofValue key params = .ok fields)
    (horigin : (originOf key).runIn context world = (.ok origin, begun))
    (hread : (readOrigin run key fields given bindings origin).runIn context begun =
      (.ok table, after))
    (hproject : project table fields = .error error) :
    Raises (.read entry) key params false error

end

theorem Raises.isSome_place? {params : Value} {raised : Error}
    (h : Raises run context bindings given progress world part key params false raised) :
    (part.place? key).isSome := by
  cases h <;> rfl

/-- What tells its place fails by itself, or because a task fails that it asks for. -/
theorem failsItself_or_asked_of_locating {asked : Error → Prop} {location step : String}
    (work : Runner → Engine α)
    (hrelays : ∀ change, KeepsStops change →
      Engine.Relays context asked (work run) (work (changing change run)))
    (h : ((work run).locating location step).runIn context world = (.error error, after))
    (hgoes : error.cause.stopsRun = false) :
    ∃ raised, (Engine.FailsItself context work run world raised ∨ asked raised) ∧
      error = raised.locate location step := by
  obtain ⟨raised, hwork, rfl⟩ := Engine.locating_error h
  rw [Error.cause_locate] at hgoes
  exact ⟨raised, Engine.failsItself_or_asked work hrelays hwork hgoes, rfl⟩

/-- A part fails because the name of its entry cannot be told, because the entry fails by itself, or
because a task fails that the entry asks for. -/
theorem raises_or_asked
    (h : (part.carryOut run bindings given progress).runIn context world = (.error error, after))
    (hgoes : error.cause.stopsRun = false) :
    part.head = .error error ∨ ∃ key params, part.head = .ok (key, params) ∧
      ((∃ tells raised,
          Raises run context bindings given progress world part key params tells raised ∧
          error = raised.locateAt (if tells then part.place? key else none)) ∨
        ∃ raised, AskedBy context run bindings part key params raised ∧
          error = raised.locateAt (part.place? key)) := by
  cases part with
  | refused raised =>
    obtain rfl := Except.error.inj (congrArg Prod.fst h)
    exact .inl rfl
  | action phase entry =>
    have haction : (Part.action phase entry).IsAction := trivial
    rw [Part.carryOut, runHook, bind_assoc] at h
    rcases Engine.ofExcept_bind_error h with hhead | ⟨⟨key, params⟩, hhead, h⟩
    · exact .inl hhead
    refine .inr ⟨key, params, hhead, ?_⟩
    obtain ⟨raised, hitself | hasked, rfl⟩ := failsItself_or_asked_of_locating
      (fun run => act run key params bindings) (fun _ hchange => relays_act hchange haction)
      (Engine.bind_pure_error.mp h) hgoes
    · exact .inl ⟨true, raised, .action haction hitself, rfl⟩
    · exact .inr ⟨raised, hasked, rfl⟩
  | repeated entry =>
    have haction : (Part.repeated entry).IsAction := trivial
    rcases Engine.ofExcept_bind_error h with hhead | ⟨⟨key, params⟩, hhead, h⟩
    · exact .inl hhead
    refine .inr ⟨key, params, hhead, ?_⟩
    rcases Engine.failsItself_or_asked (fun run => act run key params bindings)
      (fun _ hchange => relays_act hchange haction) (Engine.bind_pure_error.mp h) hgoes with
      hitself | hasked
    · exact .inl ⟨true, error, .action haction hitself, rfl⟩
    · exact .inr ⟨error, hasked, rfl⟩
  | step entry number =>
    rw [Part.carryOut, applyEntry, bind_assoc] at h
    rcases Engine.ofExcept_bind_error h with hhead | ⟨⟨key, params⟩, hhead, h⟩
    · exact .inl hhead
    rw [bind_assoc] at h
    rcases Engine.bind_error h with h | ⟨result, _, -, h⟩
    · refine .inr ⟨key, params, hhead, ?_⟩
      obtain ⟨raised, hitself | hasked, rfl⟩ := failsItself_or_asked_of_locating
        (fun run => applyStep run key params progress.table bindings)
        (fun _ hchange => relays_applyStep hchange) h hgoes
      · exact .inl ⟨true, raised, .step hitself, rfl⟩
      · exact .inr ⟨raised, hasked, rfl⟩
    · cases congrArg Prod.fst h
  | read entry =>
    rw [Part.carryOut, readEntry, bind_assoc] at h
    rcases Engine.ofExcept_bind_error h with hhead | ⟨⟨key, params⟩, hhead, h⟩
    · exact .inl hhead
    refine .inr ⟨key, params, hhead, ?_⟩
    have h := Engine.bind_pure_error.mp h
    rcases Engine.ofExcept_bind_error h with hparams | ⟨fields, hparams, h⟩
    · exact .inl ⟨false, error, .readParams hparams, rfl⟩
    rcases Engine.bind_error h with horigin | ⟨origin, begun, horigin, h⟩
    · exact .inl ⟨false, error, .connector hparams horigin, rfl⟩
    rcases Engine.bind_error h with h | ⟨table, done, hread, h⟩
    · obtain ⟨raised, hitself | hasked, rfl⟩ := failsItself_or_asked_of_locating
        (fun run => readOrigin run key fields given bindings origin)
        (fun _ hchange => relays_readOrigin hchange hparams horigin) h hgoes
      · exact .inl ⟨true, raised, .read hparams horigin hitself, rfl⟩
      · exact .inr ⟨raised, hasked, rfl⟩
    · rw [Engine.runIn_ofExcept] at h
      have hproject := congrArg Prod.fst h
      exact .inl ⟨false, error, .project hparams horigin (Engine.locating_ok hread) hproject, rfl⟩
  | write entry =>
    rw [Part.carryOut, writeEntry, bind_assoc] at h
    rcases Engine.ofExcept_bind_error h with hhead | ⟨⟨key, params⟩, hhead, h⟩
    · exact .inl hhead
    refine .inr ⟨key, params, hhead, ?_⟩
    have h := Engine.bind_pure_error.mp h
    rcases Engine.ofExcept_bind_error h with hparams | ⟨fields, hparams, h⟩
    · exact .inl ⟨false, error, .writeParams hparams, rfl⟩
    obtain ⟨raised, hitself | hasked, rfl⟩ := failsItself_or_asked_of_locating
      (fun run => writePart run key fields progress.table bindings)
      (fun _ hchange => relays_writePart hchange hparams) h hgoes
    · exact .inl ⟨true, raised, .write hparams hitself, rfl⟩
    · exact .inr ⟨raised, hasked, rfl⟩

/-! ## Where a failure comes from -/

/-- whether a task, carried out from a world, comes to a part that fails: with the bindings and the
table given, how far the task came before, the world then, and the failure -/
inductive BreaksAt (run : Runner) (context : Context) (task : Task α) (world : World) :
    Part → Fields → Option Table → Progress → World → Error → Prop where
  | intro {work : Work} {before rest : List Part} {part : Part} {effects : List Effect}
    {progress : Progress} {begun middle after : World} {error : Error}
    (hwork : (workOf task).runIn context world = (.ok work, begun))
    (hparts : work.parts = before ++ part :: rest)
    (hpassed : Passed run work.bindings work.given context before work.start begun effects progress
      middle)
    (hfails : (part.carryOut run work.bindings work.given progress).runIn context middle =
      (.error error, after)) :
    BreaksAt run context task world part work.bindings work.given progress middle error

/-- where in a task a failure comes from: the places of the entries around it from the innermost one
outwards, whether that one tells its place, what was raised there, and what became of it -/
inductive Fault (context : Context) : (depth : Nat) → {α : Type} → Task α → World → List Place →
    (tells : Bool) → (raised error : Error) → Prop where
  /-- what the task has to do cannot be told -/
  | work {depth : Nat} {α : Type} {task : Task α} {world after : World} {raised : Error}
    (h : (workOf task).runIn context world = (.error raised, after)) :
    Fault context (depth + 1) task world [] true raised raised
  /-- the name of an entry cannot be told -/
  | head {depth : Nat} {α : Type} {task : Task α} {world middle : World} {part : Part}
    {bindings : Fields} {given : Option Table} {progress : Progress} {raised : Error}
    (hpart : BreaksAt (Task.perform depth) context task world part bindings given progress middle
      raised)
    (hhead : part.head = .error raised) :
    Fault context (depth + 1) task world [] true raised raised
  /-- an entry fails by itself -/
  | entry {depth : Nat} {α : Type} {task : Task α} {world middle : World} {part : Part}
    {bindings : Fields} {given : Option Table} {progress : Progress} {key : String}
    {params : Value} {tells : Bool} {raised : Error}
    (hpart : BreaksAt (Task.perform depth) context task world part bindings given progress middle
      (raised.locateAt (if tells then part.place? key else none)))
    (hhead : part.head = .ok (key, params))
    (h : Raises (Task.perform depth) context bindings given progress middle part key params tells
      raised) :
    Fault context (depth + 1) task world (part.place? key).toList tells raised
      (raised.locateAt (if tells then part.place? key else none))
  /-- a task fails that an entry asks for -/
  | task {depth : Nat} {α β : Type} {task : Task α} {inner : Task β}
    {world middle start done : World} {part : Part} {bindings : Fields} {given : Option Table}
    {progress : Progress} {key : String} {params : Value} {fields : Fields} {path : List Place}
    {tells : Bool} {raised failure : Error}
    (hpart : BreaksAt (Task.perform depth) context task world part bindings given progress middle
      (failure.locateAt (part.place? key)))
    (hhead : part.head = .ok (key, params)) (hparams : Params.ofValue key params = .ok fields)
    (hasks : Asks bindings part key fields inner)
    (hfails : (inner.perform depth).runIn context start = (.error failure, done))
    (h : Fault context depth inner start path tells raised failure) :
    Fault context (depth + 1) task world (path ++ (part.place? key).toList) tells raised
      (failure.locateAt (part.place? key))

namespace Fault

variable {depth : Nat} {task : Task α} {path : List Place} {tells : Bool} {raised : Error}

/-- An entry that does not tell its place has one. -/
theorem path_ne_nil (h : Fault context depth task world path tells raised error)
    (htells : tells = false) : path ≠ [] := by
  induction h with
  | work => cases htells
  | head => cases htells
  | entry _ _ h =>
    subst htells
    obtain ⟨place, hplace⟩ := Option.isSome_iff_exists.mp h.isSome_place?
    simp [hplace]
  | task _ _ _ _ _ _ ih => simp [ih htells]

/-- What was raised gets the place that is told: the places further out do not change it. -/
theorem eq_locateAt (h : Fault context depth task world path tells raised error) :
    error = raised.locateAt (toldPlace path tells) := by
  induction h with
  | work => rfl
  | head => rfl
  | entry => rw [toldPlace_toList]
  | @task _ _ _ _ _ _ _ _ _ part _ _ _ key _ _ _ _ _ _ _ _ _ _ _ h ih =>
    rw [ih, Error.locateAt_locateAt, toldPlace_append _ h.path_ne_nil]
    cases part.place? key <;> rfl

end Fault

/-- Every failure comes from somewhere, by induction on how deep it may lie. -/
theorem exists_fault {depth : Nat} {task : Task α}
    (h : (task.perform depth).runIn context world = (.error error, after))
    (hgoes : error.cause.stopsRun = false) :
    ∃ path tells raised, Fault context depth task world path tells raised error := by
  induction depth generalizing α task world after error with
  | zero =>
    obtain rfl := Except.error.inj (congrArg Prod.fst h)
    cases hgoes
  | succ depth ih =>
    rcases broken_of_performWith (fun task => task.appends_perform depth) h hgoes with
      ⟨_, h⟩ | ⟨work, begun, effects, failed, hwork, hbroken⟩
    · exact ⟨[], true, error, .work h⟩
    obtain ⟨before, part, rest, _, progress, middle, hparts, hpassed, hfails⟩ := hbroken.exists_part
    have hpart := BreaksAt.intro hwork hparts hpassed hfails
    rcases raises_or_asked hfails hgoes with
      hhead | ⟨key, params, hhead, ⟨tells, raised, hraises, rfl⟩ | hasked⟩
    · exact ⟨[], true, error, .head hpart hhead⟩
    · exact ⟨_, tells, raised, .entry hpart hhead hraises⟩
    · obtain ⟨failure, ⟨fields, β, inner, hparams, hasks, start, done, hinner⟩, rfl⟩ := hasked
      rw [Error.cause_locateAt] at hgoes
      -- The inner task fails without stopping the run as well, and may have told a place already.
      obtain ⟨path, tells, raised, hfault⟩ := ih hinner hgoes
      exact ⟨_, tells, raised, .task hpart hhead hparams hasks hinner hfault⟩

/-- **The place of a failure.** A task that fails does so because of an innermost entry, however
deep that one lies: in nested recipes, in matrices, in combined sources. The cause is the one that
was raised there. The failure has the place of that entry and a hint for it, unless these were
raised already. But an entry that reads does not tell its place if the part of its source cannot be
chosen, if it reads from an unknown connector, or if its parameters are no mapping, which holds for
an entry that writes as well; then the failure has the place of the entry around it, and none if
there is no such entry. -/
theorem place_of_failure {depth : Nat} {task : Task α}
    (h : (task.perform depth).runIn context world = (.error error, after))
    (hgoes : error.cause.stopsRun = false) :
    ∃ path tells raised, Fault context depth task world path tells raised error ∧
      error.cause = raised.cause ∧ error = raised.locateAt (toldPlace path tells) ∧
      ∀ place, toldPlace path tells = some place → error.isEnriched ∧
        (raised.isEnriched = false → error.location = some place.location ∧
          error.suggestion = some (raised.cause.hint place.key)) := by
  obtain ⟨path, tells, raised, hfault⟩ := exists_fault h hgoes
  have herror := hfault.eq_locateAt
  refine ⟨path, tells, raised, hfault, ?_, herror, ?_⟩
  · rw [herror, Error.cause_locateAt]
  · intro place hplace
    rw [herror, hplace]
    refine ⟨Error.isEnriched_locate .., ?_⟩
    intro hbare
    rw [Error.locateAt, Error.locate_of_not_isEnriched hbare]
    exact ⟨rfl, rfl⟩

/-- a union of two recipes without sections; a column is chosen of the second one -/
def chosenInUnion : Fields :=
  [("read", .object [("union", .object [("sources", .list [
    .object [("recipe", .object [("name", .object [])])],
    .object [("recipe", .object [("name", .object []), ("columns", .string "b")])]])])])]

/-- the failure to choose the column -/
def notChosen : Error where
  cause := .unknownColumn "b"
  location := some "read (union)"
  suggestion := some ((Cause.unknownColumn "b").hint "union")

theorem place_of_failure_chosenInUnion :
    ∃ path tells raised,
      Fault {} 3 (.recipe (.document (.object chosenInUnion)) [] none) {} path tells raised
        notChosen ∧
      notChosen.cause = raised.cause ∧ notChosen = raised.locateAt (toldPlace path tells) ∧
      ∀ place, toldPlace path tells = some place → notChosen.isEnriched ∧
        (raised.isEnriched = false → notChosen.location = some place.location ∧
          notChosen.suggestion = some (raised.cause.hint place.key)) := by
  have hrun : ((Task.recipe (.document (.object chosenInUnion)) [] none).perform 3).runIn {} {} =
      (.error notChosen, {}) := by
    decide +kernel
  exact place_of_failure hrun rfl

/-- a recipe without sections, of which a column is chosen -/
def chosenAlone : Fields :=
  [("read", .object [("recipe", .object [("name", .object []), ("columns", .string "b")])])]

/-- The part of a source cannot be chosen, and the failure has neither a place nor a hint. -/
theorem chosen_part_without_place :
    ((Task.recipe (.document (.object chosenAlone)) [] none).perform 2).runIn {} {} =
      (.error { cause := .unknownColumn "b", location := none, suggestion := none }, {}) := by
  decide +kernel

end Recipe

end TableRecipe
