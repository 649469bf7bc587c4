import TableRecipe.Proofs.Outcome
import TableRecipe.Recipe.Run

/-!
# Effects are never undone

Whatever a part of a run does to its surroundings is noted after all that was done before, also if
the part fails later on. So the effects of a run are those of its parts in the order in which they
were carried out.

* `Engine.Appends` — a part of a run that leaves the effects before it as they are;
* `Engine.ComesTo` — what such a part comes to, with its effects;
* `Engine.Appends.bind`, `Engine.Appends.attempt`, … — the ways in which parts are put together;
* `Task.appends_perform` — every task appends its effects, however deep its parts lie.
-/

namespace TableRecipe

variable {α β γ : Type}

namespace Engine

/-- a part of a run whose effects come after all effects so far -/
structure Appends (x : Engine α) : Prop where
  keeps_trace : ∀ context world, world.trace <+: (x.runIn context world).2.trace

/-- what a part of a run comes to in a world: its outcome, its effects after all effects so far,
and the world after it -/
structure ComesTo (x : Engine α) (context : Context) (world : World) (outcome : Except Error α)
    (effects : List Effect) (after : World) : Prop where
  runIn_eq : x.runIn context world = (outcome, after)
  trace_eq : after.trace = world.trace ++ effects

namespace Appends

theorem comesTo {x : Engine α} {context : Context} {world after : World}
    {outcome : Except Error α} (h : x.Appends) (hrun : x.runIn context world = (outcome, after)) :
    ∃ effects, x.ComesTo context world outcome effects after := by
  have hprefix := h.keeps_trace context world
  rw [hrun] at hprefix
  obtain ⟨effects, heffects⟩ := hprefix
  exact ⟨effects, hrun, heffects.symm⟩

/-! ## Parts put together -/

theorem of_trace_eq {x : Engine α}
    (h : ∀ context world, (x.runIn context world).2.trace = world.trace) : x.Appends :=
  ⟨fun context world => (h context world).symm ▸ List.prefix_rfl⟩

theorem pure (a : α) : (pure a : Engine α).Appends := .of_trace_eq fun _ _ => rfl

theorem throw (e : Error) : (throw e : Engine α).Appends := .of_trace_eq fun _ _ => rfl

theorem read : (read : Engine Context).Appends := .of_trace_eq fun _ _ => rfl

theorem get : (get : Engine World).Appends := .of_trace_eq fun _ _ => rfl

theorem ofExcept (x : Except Error α) : (ofExcept x).Appends := by
  cases x with
  | ok a => exact .pure a
  | error e => exact .throw e

theorem record (effect : Effect) : (record effect).Appends :=
  ⟨fun _ _ => List.prefix_append _ _⟩

/-- What follows a part comes after the effects of the part. -/
theorem bind {x : Engine α} {f : α → Engine β} (hx : x.Appends) (hf : ∀ a, (f a).Appends) :
    (x >>= f).Appends := by
  refine ⟨fun context world => ?_⟩
  have hfirst := hx.keeps_trace context world
  rw [runIn_bind]
  rcases hrun : x.runIn context world with ⟨_ | a, middle⟩ <;> rw [hrun] at hfirst
  · exact hfirst
  · exact hfirst.trans ((hf a).keeps_trace context middle)

theorem ofExcept_bind {x : Except Error α} {f : α → Engine β} (hf : ∀ a, (f a).Appends) :
    (Engine.ofExcept x >>= f).Appends :=
  .bind (.ofExcept x) hf

theorem attempt {x : Engine α} (hx : x.Appends) : x.attempt.Appends := by
  refine ⟨fun context world => ?_⟩
  have hprefix := hx.keeps_trace context world
  rw [runIn_attempt]
  rcases hrun : x.runIn context world with ⟨e | a, after⟩ <;> rw [hrun] at hprefix
  · dsimp only
    split
    · exact hprefix
    · exact hprefix
  · exact hprefix

theorem mapError {x : Engine α} (change : Error → Error) (hx : x.Appends) :
    (x.mapError change).Appends := by
  refine ⟨fun context world => ?_⟩
  have hprefix := hx.keeps_trace context world
  rw [runIn_mapError]
  rcases hrun : x.runIn context world with ⟨_ | a, after⟩ <;> rw [hrun] at hprefix
  · exact hprefix
  · exact hprefix

theorem ite {p : Prop} [Decidable p] {x y : Engine α} (hx : x.Appends) (hy : y.Appends) :
    (if p then x else y).Appends := by
  split
  · exact hx
  · exact hy

theorem mapM {f : α → Engine β} (hf : ∀ a, (f a).Appends) (xs : List α) : (xs.mapM f).Appends := by
  induction xs with
  | nil => exact .pure []
  | cons x rest ih =>
    rw [List.mapM_cons]
    exact .bind (hf x) fun _ => .bind ih fun _ => .pure _

theorem foldlM {f : β → α → Engine β} (hf : ∀ b a, (f b a).Appends) (xs : List α) (start : β) :
    (xs.foldlM f start).Appends := by
  induction xs generalizing start with
  | nil => exact .pure start
  | cons x rest ih =>
    rw [List.foldlM_cons]
    exact .bind (hf start x) ih

theorem forM {f : α → Engine PUnit} (hf : ∀ a, (f a).Appends) (xs : List α) :
    (xs.forM f).Appends := by
  induction xs with
  | nil => exact .pure _
  | cons x rest ih => exact .bind (hf x) fun _ => ih

theorem forIn {f : α → β → Engine (ForInStep β)} (hf : ∀ a b, (f a b).Appends) (xs : List α)
    (start : β) : (forIn xs start f).Appends := by
  induction xs generalizing start with
  | nil => exact .pure start
  | cons x rest ih =>
    rw [List.forIn_cons]
    refine .bind (hf x start) fun step => ?_
    cases step with
    | done b => exact .pure b
    | yield b => exact ih b

/-- The jobs of a matrix are noted one after the other, failed ones among them. -/
theorem each {job : α → Engine β} (hjob : ∀ a, (job a).Appends) (xs : List α) :
    (each xs job).Appends := by
  have houtcomes : (outcomes job xs).Appends := by
    induction xs with
    | nil => exact .pure []
    | cons x rest ih => exact .bind (hjob x).attempt fun _ => .bind ih fun _ => .pure _
  exact .bind houtcomes fun _ => .mapM .ofExcept _

/-! ## Calls upon the surroundings -/

theorem call (function : CustomFunction) (table : Option Table) (arguments : Fields) :
    (call function table arguments).Appends :=
  .bind (.record _) fun _ => .ofExcept _

theorem function (name : String) : (function name).Appends := .bind .read fun _ => .ofExcept _

theorem connector (name : String) : (connector name).Appends := .bind .read fun _ => .ofExcept _

theorem post (request : Request) (payload : Value) : (post request payload).Appends :=
  ⟨fun _ _ => List.prefix_append _ _⟩

theorem page (url : String) : (page url).Appends := ⟨fun _ _ => List.prefix_append _ _⟩

theorem draw (choose : Draws → Nat → α) : (draw choose).Appends := .of_trace_eq fun _ _ => rfl

theorem files : files.Appends := .of_trace_eq fun _ _ => rfl

theorem setFiles (files : FileSystem) : (setFiles files).Appends := .of_trace_eq fun _ _ => rfl

end Appends

end Engine

open Engine

/-! ## Custom functions and remote services -/

namespace CustomFunction

variable (function : CustomFunction)

theorem appends_callAlone (params : Fields) : (function.callAlone params).Appends := by
  refine .bind (.call ..) fun output => ?_
  cases output with
  | value value => exact .pure _
  | table table => exact .pure _

theorem appends_callForRow (arguments params : Fields) :
    (function.callForRow arguments params).Appends := by
  refine .bind (.attempt (.call ..)) fun outcome => ?_
  cases outcome with
  | ok output => exact .pure _
  | error first =>
    refine .bind (.attempt (.call ..)) fun outcome => ?_
    cases outcome with
    | ok output => exact .pure _
    | error second => exact .throw first

theorem appends_invoke (table : Table) (params : Fields) :
    (function.invoke table params).Appends := by
  refine .ite (.bind (.call ..) fun output => ?_) (.ofExcept_bind fun ⟨input, output⟩ => ?_)
  · cases output with
    | value value => exact .throw _
    | table table => exact .pure _
  · refine .bind (.mapM (fun row => ?_) _) fun _ => .ofExcept _
    exact .bind (appends_callForRow function _ _) fun _ => .ofExcept _

end CustomFunction

namespace Remote

variable (request : Request)

theorem appends_wait (number : Nat) : (wait number).Appends :=
  .bind .read fun _ => .ite (.bind (.throw _) fun _ => .record _) (.record _)

theorem appends_attempt (payload : Value) (total left number : Nat) :
    (attempt request payload total left number).Appends := by
  induction left generalizing number with
  | zero => exact .throw _
  | succ left ih =>
    refine .bind (.post request payload) fun answer => ?_
    cases verdict request total answer with
    | done result => exact .ofExcept result
    | again last =>
      refine .ite (.bind (.throw _) fun _ => ?_) ?_
      · exact .bind (appends_wait number) fun _ => ih _
      · exact .bind (appends_wait number) fun _ => ih _

theorem appends_send (payload : Value) : (send request payload).Appends :=
  .bind .read fun _ => appends_attempt request payload _ _ _

theorem appends_sendChunks (answers : Answers) (chunks : List (List Value)) :
    (sendChunks request answers chunks).Appends := by
  induction chunks generalizing answers with
  | nil => exact .pure _
  | cons chunk rest ih => exact .bind (appends_send request _) fun _ => .ofExcept_bind ih

end Remote

/-! ## Steps, matrices and connectors -/

theorem Step.appends_apply (step : Step) (table : Table) : (step.apply table).Appends := by
  cases step with
  | requestBatch request input output size =>
    refine .ofExcept_bind fun columns => ?_
    split
    · refine .ofExcept_bind fun items => .bind .read fun context => ?_
      exact .bind (Remote.appends_sendChunks request _ _) fun _ => .ofExcept _
    · exact .throw _
  | requestRow request input output =>
    refine .ofExcept_bind fun columns => .bind ?_ fun _ => .ofExcept _
    exact .each (Remote.appends_send request) _
  | rename input output names =>
    cases names with
    | nil => exact .ofExcept _
    | cons => exact .ofExcept _
  | convertCase => exact .ofExcept _
  | convertType => exact .ofExcept _
  | copy => exact .ofExcept _
  | drop => exact .ofExcept _
  | selectColumns => exact .ofExcept _
  | filter => exact .ofExcept _
  | mergeConcatenate => exact .ofExcept _
  | selectHead => exact .pure _
  | reindex => exact .pure _

theorem Matrix.appends_candidates (table : Option Table) (value : Value) :
    (candidates table value).Appends := by
  cases value with
  | string text =>
    change (candidatesOfText text table).Appends
    rw [candidatesOfText]
    split
    · split
      · exact .ofExcept _
      · exact .throw _
    · refine .bind .files fun files => .bind ?_ fun _ => .pure _
      cases files.list? _ with
      | ok names => exact .pure _
      | error failure => exact .throw _
    · split
      · refine .bind (.function _) fun function => ?_
        refine .bind (function.appends_callAlone []) fun result => ?_
        split
        · exact .pure _
        · exact .pure _
      · exact .pure _
  | list items => exact .pure _
  | null => exact .pure _
  | bool flag => exact .pure _
  | number n => exact .pure _
  | object fields => exact .pure _

theorem Matrix.appends_bindings (params : Fields) (table : Option Table) :
    (Matrix.bindings params table).Appends := by
  rw [Matrix.bindings]
  split
  · refine .ofExcept_bind fun strategy => .bind (.mapM ?_ _) fun _ => .pure _
    exact fun _ => .bind (appends_candidates table _) fun _ => .pure _
  · exact .throw _

theorem Sample.appends_read (params : Fields) : (Sample.read params).Appends := by
  have hgenerate (template : Template) : (generate template).Appends := by
    cases template with
    | constant value => exact .pure _
    | word => exact .bind (.draw _) fun _ => .pure _
    | letter => exact .bind (.draw _) fun _ => .pure _
    | truth => exact .bind (.draw _) fun _ => .pure _
    | integer low high => exact .bind (.draw _) fun _ => .pure _
    | decimal low high => exact .bind (.draw _) fun _ => .pure _
    | invalid error => exact .throw error
  refine .ofExcept_bind fun rows => .ofExcept_bind fun values => ?_
  refine .bind (.mapM (fun _ => .bind (.mapM hgenerate _) fun _ => .pure _) _) fun columns => ?_
  exact .ite (.pure _) (.ofExcept _)

namespace Connector

variable (connector : Connector)

theorem appends_read (params : Fields) : (connector.read params).Appends := by
  cases connector with
  | test => exact Sample.appends_read params
  | file =>
    refine .ofExcept_bind fun (path, format) => .bind .files fun files => ?_
    split
    · exact .throw _
    · exact .throw _
    · exact .ofExcept _
  | console => exact .throw _
  | host own =>
    rw [read]
    split
    · exact .throw _
    · exact .bind (.record _) fun _ => .ofExcept _

theorem appends_write (table : Table) (params : Fields) :
    (connector.write table params).Appends := by
  cases connector with
  | test => exact .throw _
  | file =>
    refine .ofExcept_bind fun (path, format) => .bind .files fun files => ?_
    split
    · exact .throw _
    · exact .setFiles _
  | console => exact .bind (.record _) fun _ => .forM (fun _ => .record _) _
  | host own =>
    rw [write]
    split
    · exact .throw _
    · exact .bind (.record _) fun _ => .ofExcept _

theorem appends_act (params : Fields) : (connector.act params).Appends := by
  cases connector with
  | test => exact .throw _
  | file => exact .throw _
  | console => exact .record _
  | host own =>
    rw [act]
    split
    · exact .throw _
    · exact .bind (.record _) fun _ => .ofExcept _

end Connector

/-! ## Tasks -/

namespace Recipe

theorem appends_load (source : Source) : (load source).Appends := by
  cases source with
  | document document => exact .ofExcept _
  | text text =>
    refine .bind ?_ fun _ => .ofExcept _
    refine .ite (.pure _) (.ite ?_ (.ite ?_ (.bind .files fun files => .ite ?_ (.pure _))))
    · refine .bind .read fun context => ?_
      split
      · exact .throw _
      · exact .bind (.record _) fun _ => .ofExcept _
    · refine .bind (.page _) fun answer => ?_
      split
      · exact .throw _
      · exact .ite (.pure _) (.throw _)
    · refine .bind .files fun files => ?_
      split
      · exact .pure _
      · exact .throw _

section

variable {run : Runner} (hrun : ∀ {α : Type} (task : Task α), (run task).Appends)
include hrun

theorem appends_nested (params : Fields) (table : Option Table) :
    (nested run params table).Appends :=
  .ofExcept_bind fun _ => .ofExcept_bind fun _ => .bind (hrun _) fun _ => .pure _

omit hrun in
theorem appends_eachBinding {params bindings : Fields} {table : Option Table} {body : Value}
    {job : Value → Fields → Engine α} (hjob : ∀ body bindings, (job body bindings).Appends) :
    (eachBinding params table bindings body job).Appends :=
  .bind (Matrix.appends_bindings params table) fun _ =>
    .each (fun _ => .ofExcept_bind fun _ => hjob _ _) _

theorem appends_readEntry (entry : Value) (table : Option Table) (bindings : Fields) :
    (readEntry run entry table bindings).Appends := by
  refine .ofExcept_bind fun (key, params) => .ofExcept_bind fun params => ?_
  refine .bind ?_ fun origin => .bind (.mapError _ ?_) fun _ => .ofExcept _
  · unfold originOf
    split
    iterate 5 exact .pure _
    split
    · exact .pure _
    · exact .bind (.connector _) fun _ => .pure _
  · cases origin with
    | combination =>
      exact .ofExcept_bind fun _ => .bind (.mapM (fun _ => hrun _) _) fun _ => .ofExcept _
    | matrix =>
      refine .ofExcept_bind fun _ => .bind (appends_eachBinding fun _ _ => hrun _) fun tables => ?_
      cases tables with
      | nil => exact .pure _
      | cons first others => exact .pure _
    | recipe => exact appends_nested hrun params none
    | function name =>
      exact .bind (.function name) fun _ => .bind (.call ..) fun _ => .ofExcept _
    | connector connector => exact connector.appends_read _

theorem appends_readSection (body : Value) (table : Option Table) (bindings : Fields) :
    (readSection run body table bindings).Appends := by
  refine .ofExcept_bind fun items => ?_
  split
  · exact .pure _
  · exact appends_readEntry hrun _ table bindings
  · exact .throw _

theorem appends_dispatch (key : String) (params : Fields) (table : Table) (bindings : Fields)
    (conditional : Bool) : (dispatch run key params table bindings conditional).Appends := by
  unfold dispatch
  split
  · refine .ite (.throw _) (.ofExcept_bind fun _ => .bind (appends_nested hrun _ _) fun _ => ?_)
    exact .ite (.pure _) (.ofExcept_bind fun _ => .ofExcept _)
  · refine .ite (.throw _) (.ofExcept_bind fun _ => ?_)
    refine .bind (Matrix.appends_bindings _ _) fun _ => .foldlM (fun _ _ => ?_) _ _
    exact .ofExcept_bind fun _ => .bind (hrun _) fun _ => .pure _
  · split
    · exact .bind (.function _) fun function => function.appends_invoke _ _
    · refine .bind .read fun context => .ofExcept_bind fun step => ?_
      exact .ite (.bind (.throw _) fun _ => step.appends_apply _) (step.appends_apply _)

theorem appends_applyEntry (bindings : Fields) (before : Table × List String)
    (entry : Value × Nat) : (applyEntry run bindings before entry).Appends := by
  refine .ofExcept_bind fun (key, params) => .bind (.mapError _ ?_) fun _ => .pure _
  refine .ofExcept_bind fun params => ?_
  split
  · exact appends_dispatch hrun ..
  · refine .ite (appends_dispatch hrun ..) (.ofExcept_bind fun _ => .ofExcept_bind fun _ => ?_)
    exact .bind (appends_dispatch hrun ..) fun _ => .ofExcept _

theorem appends_applySteps (body : Value) (table : Table) (bindings : Fields) :
    (applySteps run body table bindings).Appends :=
  .ofExcept_bind fun _ => .foldlM (appends_applyEntry hrun bindings) _ _

theorem appends_writeEntry (table : Table) (bindings : Fields) (entry : Value) :
    (writeEntry run table bindings entry).Appends := by
  refine .ofExcept_bind fun (key, params) => .ofExcept_bind fun params => .mapError _ ?_
  refine .ofExcept_bind fun part => .bind ?_ fun _ => .pure _
  unfold writeTo
  split
  · exact .pure _
  · exact .ofExcept_bind fun _ => .bind (appends_eachBinding fun _ _ => hrun _) fun _ => .pure _
  · exact .bind (appends_nested hrun _ _) fun _ => .pure _
  · split
    · exact .bind (.function _) fun _ => .bind (.call ..) fun _ => .pure _
    · exact .bind (.connector _) fun connector => connector.appends_write _ _

theorem appends_writeSection (body : Value) (table : Table) (bindings : Fields) :
    (writeSection run body table bindings).Appends :=
  .ofExcept_bind fun _ => .bind (.mapM (appends_writeEntry hrun table bindings) _) fun _ => .pure _

theorem appends_act (key : String) (params : Value) (bindings : Fields) :
    (act run key params bindings).Appends := by
  refine .ofExcept_bind fun params => ?_
  split
  · exact .ofExcept_bind fun _ => .bind (appends_eachBinding fun _ _ => hrun _) fun _ => .pure _
  · exact .bind (appends_nested hrun _ _) fun _ => .pure _
  · split
    · exact .bind (.function _) fun function =>
        .bind (function.appends_callAlone _) fun _ => .pure _
    · exact .bind (.connector _) fun connector => connector.appends_act _

theorem appends_actAll (actions : Value) (bindings : Fields) :
    (actAll run actions bindings).Appends := by
  refine .ofExcept_bind fun items => .bind (.forIn (fun action _ => ?_) _ _) fun _ => .pure _
  exact .ofExcept_bind fun _ => .bind (appends_act hrun ..) fun _ => .pure _

theorem appends_runHook (phase : String) (bindings : Fields) (action : Value) :
    (runHook run phase bindings action).Appends :=
  .ofExcept_bind fun _ => .mapError _ (appends_act hrun ..)

omit hrun in
theorem appends_hooks (recipe : Fields) (phase : String) (bindings : Fields) :
    (hooks recipe phase bindings).Appends := by
  rw [hooks]
  split
  · exact .pure _
  · exact .ofExcept_bind fun _ => .ofExcept _

theorem appends_runHooks (recipe : Fields) (phase : String) (bindings : Fields) :
    (runHooks run recipe phase bindings).Appends := by
  refine .bind (appends_hooks recipe phase bindings) fun actions => ?_
  refine .bind (.forIn (fun action _ => ?_) _ _) fun _ => .pure _
  exact .bind (appends_runHook hrun ..) fun _ => .pure _

theorem appends_runFailureHooks (recipe bindings : Fields) (error : Error) :
    (runFailureHooks run recipe bindings error).Appends := by
  refine .bind (.attempt (appends_hooks ..)) fun outcome => ?_
  cases outcome with
  | error e => exact .pure _
  | ok actions =>
    refine .bind (.forIn (fun action _ => ?_) _ _) fun _ => .pure _
    exact .bind (.attempt (appends_runHook hrun ..)) fun _ => .pure _

theorem appends_stages (recipe bindings : Fields) (table : Option Table) :
    (stages run recipe bindings table).Appends :=
  .bind (appends_runHooks hrun ..) fun _ => .bind (appends_readSection hrun ..) fun _ =>
    .bind (appends_applySteps hrun ..) fun _ => .bind (appends_writeSection hrun ..) fun _ =>
      .bind (appends_runHooks hrun ..) fun _ => .pure _

theorem appends_execute (document : Value) (bindings : Fields) (table : Option Table) :
    (execute run document bindings table).Appends := by
  refine .ofExcept_bind fun recipe => .bind (.attempt (appends_stages hrun ..)) fun outcome => ?_
  cases outcome with
  | ok result => exact .pure _
  | error error => exact .bind (appends_runFailureHooks hrun ..) fun _ => .throw _

/-- A task appends its effects if those that it contains do. -/
theorem appends_performWith (task : Task α) : (task.performWith run).Appends := by
  cases task with
  | recipe source given table =>
    refine .bind (appends_load source) fun document => ?_
    refine .bind (.bind .read fun _ => .pure _) fun _ => appends_execute hrun ..
  | read body table bindings => exact appends_readSection hrun ..
  | readEntry entry table bindings => exact appends_readEntry hrun ..
  | steps body table bindings => exact appends_applySteps hrun ..
  | write body table bindings => exact appends_writeSection hrun ..
  | act actions bindings => exact appends_actAll hrun ..

end

end Recipe

/-- Every task appends its effects, by induction on how deep its parts may lie. -/
theorem Task.appends_perform (depth : Nat) (task : Task α) : (task.perform depth).Appends := by
  induction depth generalizing α with
  | zero => exact .throw _
  | succ depth ih => exact Recipe.appends_performWith (fun task => ih task) task

end TableRecipe
