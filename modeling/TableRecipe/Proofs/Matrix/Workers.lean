import Mathlib.Data.Set.List
import TableRecipe.Proofs.Outcome

/-!
# Workers

The bindings of a matrix may be worked on at the same time. A pool of workers takes them in any
order, a bounded number at once, and the jobs end in any order, in a world that the jobs beside them
have changed meanwhile. All jobs end, whichever of them fail; their outcomes are then gathered in
the order of the bindings.

* `Engine.runIn_each` — jobs one after the other;
* `Pool.Step`, `Pool.Run` — what may happen to a pool next, and what may have happened to it;
* `Pool.Accounted` — a pool tells what has happened to it;
* `Pool.exists_step` — a pool goes on until all jobs have ended;
* `Pool.outcome_of_run` — what comes out does not depend on the order of events, and is what comes
  out if the jobs are done one after the other.
-/

namespace TableRecipe

variable {α β : Type} {context : Context}

/-- Outcomes come to results if and only if each of them is the result at its place. -/
theorem mapM_id_eq_ok {outcomes : List (Except Error β)} {results : List β} :
    outcomes.mapM id = .ok results ↔ outcomes = results.map .ok := by
  induction outcomes generalizing results with
  | nil => cases results <;> simp [pure, Except.pure]
  | cons first rest ih =>
    rw [List.mapM_cons, bind_eq_ok]
    constructor
    · rintro ⟨result, rfl, h⟩
      obtain ⟨others, hothers, h⟩ := bind_eq_ok.mp h
      obtain rfl := pure_eq_ok.mp h
      rw [ih.mp hothers]
      rfl
    · intro h
      cases results with
      | nil => cases h
      | cons result others =>
        obtain ⟨rfl, hothers⟩ := List.cons.inj h
        exact ⟨result, rfl, bind_eq_ok.mpr ⟨others, ih.mpr hothers, rfl⟩⟩

/-! ## One after the other -/

namespace Engine

/-- the world after jobs for some items, one after the other, whether they failed or not -/
def worldAfter (context : Context) (job : α → Engine β) (items : List α) (world : World) : World :=
  items.foldl (fun world item => ((job item).runIn context world).2) world

variable {items : List α} {job : α → Engine β} {outcome : α → Except Error β}
  (hjob : ∀ item ∈ items, ∀ world, ((job item).runIn context world).1 = outcome item)
  (hgoes : ∀ item ∈ items, ∀ e, outcome item = .error e → e.cause.stopsRun = false)

/-- A job that does not stop the run is attempted with its outcome. -/
theorem runIn_attempt_of_goes {x : Engine β} {world : World}
    (h : ∀ e, (x.runIn context world).1 = .error e → e.cause.stopsRun = false) :
    x.attempt.runIn context world =
      (.ok (x.runIn context world).1, (x.runIn context world).2) := by
  rw [runIn_attempt]
  rcases hx : x.runIn context world with ⟨e | result, after⟩
  · have hstops : e.cause.stopsRun = false := h e (by rw [hx])
    simp [hstops]
  · rfl

include hjob hgoes

/-- If no job stops the run, all of them are done. -/
theorem runIn_outcomes (world : World) :
    (outcomes job items).runIn context world =
      (.ok (items.map outcome), worldAfter context job items world) := by
  induction items generalizing world with
  | nil => rfl
  | cons item rest ih =>
    have hitem : ((job item).runIn context world).1 = outcome item :=
      hjob item (List.mem_cons_self ..) world
    have hattempt : (job item).attempt.runIn context world =
        (.ok (outcome item), ((job item).runIn context world).2) := by
      rw [← hitem]
      exact runIn_attempt_of_goes fun e he =>
        hgoes item (List.mem_cons_self ..) e (hitem.symm.trans he)
    have hrest := ih (fun other hmem => hjob other (List.mem_cons_of_mem _ hmem))
      (fun other hmem => hgoes other (List.mem_cons_of_mem _ hmem))
      ((job item).runIn context world).2
    rw [outcomes, runIn_bind, hattempt]
    dsimp only
    rw [runIn_bind, hrest]
    rfl

omit hjob hgoes in
theorem runIn_mapM_ofExcept (results : List (Except Error β)) (world : World) :
    (results.mapM ofExcept : Engine (List β)).runIn context world = (results.mapM id, world) := by
  induction results with
  | nil => rfl
  | cons result rest ih =>
    rw [List.mapM_cons, List.mapM_cons, runIn_bind, runIn_ofExcept]
    cases result with
    | error e => rfl
    | ok value =>
      change ((rest.mapM ofExcept >>= fun values => pure (value :: values)) : Engine _).runIn
        context world = (rest.mapM id >>= fun values => pure (value :: values), world)
      rw [runIn_bind, ih]
      cases rest.mapM id <;> rfl

/-- Jobs that depend on their items alone come to what they come to for each item, in order. -/
theorem runIn_each (world : World) :
    (each items job).runIn context world =
      ((items.map outcome).mapM id, worldAfter context job items world) := by
  rw [each, runIn_bind, runIn_outcomes hjob hgoes]
  exact runIn_mapM_ofExcept _ _

end Engine

/-! ## Pools -/

namespace Pool

/-- how far the job of a binding has come -/
inductive Stage (β : Type) where
  /-- no worker has taken the binding -/
  | waiting
  /-- a worker is busy with the job -/
  | running
  /-- the job has ended -/
  | finished (outcome : Except Error β)

namespace Stage

/-- how often a job has started -/
def starts : Stage β → Nat
  | waiting => 0
  | running | finished _ => 1

/-- how often a job has ended -/
def finishes : Stage β → Nat
  | waiting | running => 0
  | finished _ => 1

/-- whether a worker is busy with the job -/
def isRunning : Stage β → Bool
  | running => true
  | waiting | finished _ => false

/-- whether the job has ended -/
def isFinished : Stage β → Bool
  | finished _ => true
  | waiting | running => false

end Stage

/-- what a worker does: it begins with the binding at a position, or is done with it -/
inductive Event where
  | start (position : Nat)
  | finish (position : Nat)
  deriving DecidableEq, Repr

/-- how many bindings can be worked on at once: there is a worker at least, and none too many -/
def threads (settings : Settings) (bindings : List α) : Nat :=
  min (max settings.workers 1) bindings.length

/-- how many bindings are worked on -/
def busy (pool : List (Stage β)) : Nat := pool.countP Stage.isRunning

/-- how many jobs have ended -/
def ended (pool : List (Stage β)) : Nat := pool.countP Stage.isFinished

section

variable (context : Context) (bindings : List α) (job : α → Engine β)

/-- what may happen to a pool: a worker without a job takes a binding that waits, or a job ends. The
world that it was done in is up to the other jobs. -/
inductive Step (pool : List (Stage β)) : Event → List (Stage β) → Prop where
  | start {position : Nat} (hwaiting : pool[position]? = some .waiting)
    (hfree : busy pool < threads context.settings bindings) :
    Step pool (.start position) (pool.set position .running)
  | finish {position : Nat} {binding : α} (world : World)
    (hrunning : pool[position]? = some .running) (hbinding : bindings[position]? = some binding) :
    Step pool (.finish position)
      (pool.set position (.finished ((job binding).runIn context world).1))

/-- what may have happened to a pool, from the beginning on -/
inductive Run : List Event → List (Stage β) → Prop where
  | fresh : Run [] (List.replicate bindings.length .waiting)
  | step {events : List Event} {pool next : List (Stage β)} {event : Event}
    (hrun : Run events pool) (hstep : Step context bindings job pool event next) :
    Run (events ++ [event]) next

/-- a pool tells how often each job has started and ended, and with which outcome; no more bindings
are worked on than there are workers -/
structure Accounted (events : List Event) (pool : List (Stage β)) : Prop where
  length_eq : pool.length = bindings.length
  busy_le : busy pool ≤ threads context.settings bindings
  starts : ∀ position, events.count (.start position) = (pool[position]?).elim 0 Stage.starts
  finishes : ∀ position, events.count (.finish position) = (pool[position]?).elim 0 Stage.finishes
  length_events : events.length = busy pool + 2 * ended pool
  outcome : ∀ (position : Nat) (result : Except Error β),
    pool[position]? = some (.finished result) →
    ∃ binding world, bindings[position]? = some binding ∧
      result = ((job binding).runIn context world).1

end

variable {bindings : List α} {job : α → Engine β} {outcome : α → Except Error β}
  {events : List Event} {pool next : List (Stage β)} {event : Event}

/-- Among the stages of a pool, one changes. -/
theorem countP_set_stage (p : Stage β → Bool) {position : Nat} {stage : Stage β}
    (h : pool[position]? = some stage) (other : Stage β) :
    (pool.set position other).countP p + (if p stage then 1 else 0) =
      pool.countP p + if p other then 1 else 0 := by
  obtain ⟨hlt, rfl⟩ := List.getElem?_eq_some_iff.mp h
  rw [List.countP_set hlt]
  by_cases hp : p pool[position]
  · have hpos : 0 < pool.countP p := List.countP_pos_iff.mpr ⟨_, List.getElem_mem hlt, hp⟩
    simp only [hp, if_true]
    omega
  · simp [hp]

/-- Events of a kind are counted by the stages if they are counted in the one that changes. -/
theorem count_append_event {make : Nat → Event} {f : Stage β → Nat} {position : Nat}
    {stage other : Stage β}
    (hcount : ∀ place, events.count (make place) = (pool[place]?).elim 0 f)
    (h : pool[position]? = some stage)
    (hevent : ∀ place, (if position = place then f stage else 0) +
      (if event = make place then 1 else 0) = if position = place then f other else 0)
    (place : Nat) : (events ++ [event]).count (make place) =
      ((pool.set position other)[place]?).elim 0 f := by
  obtain ⟨hlt, rfl⟩ := List.getElem?_eq_some_iff.mp h
  have hplace := hevent place
  rw [List.count_append, hcount, List.count_singleton, List.getElem?_set]
  by_cases hposition : position = place
  · subst hposition
    simpa [hlt] using hplace
  · simpa [hposition] using hplace

theorem busy_add_ended_le (pool : List (Stage β)) : busy pool + ended pool ≤ pool.length := by
  induction pool with
  | nil => rfl
  | cons stage rest ih =>
    rw [busy, ended] at ih ⊢
    rw [List.countP_cons, List.countP_cons, List.length_cons]
    cases stage <;> simp only [Stage.isRunning, Stage.isFinished] <;> grind

/-- Every event is accounted for. -/
theorem Accounted.step (h : Accounted context bindings job events pool)
    (hstep : Step context bindings job pool event next) :
    Accounted context bindings job (events ++ [event]) next := by
  have hbusy : pool.countP Stage.isRunning ≤ threads context.settings bindings := h.busy_le
  have hlength : events.length =
      pool.countP Stage.isRunning + 2 * pool.countP Stage.isFinished := h.length_events
  cases hstep with
  | @start position hwaiting hfree =>
    change pool.countP Stage.isRunning < _ at hfree
    have hrunning : (pool.set position .running).countP Stage.isRunning =
        pool.countP Stage.isRunning + 1 := by
      simpa [Stage.isRunning] using countP_set_stage Stage.isRunning hwaiting .running
    have hended : (pool.set position .running).countP Stage.isFinished =
        pool.countP Stage.isFinished := by
      simpa [Stage.isFinished] using countP_set_stage Stage.isFinished hwaiting .running
    refine ⟨(List.length_set ..).trans h.length_eq, ?_, ?_, ?_, ?_, ?_⟩
    · rw [busy, hrunning]
      exact hfree
    · exact count_append_event h.starts hwaiting fun place => by simp [Stage.starts]
    · exact count_append_event h.finishes hwaiting fun place => by simp [Stage.finishes]
    · rw [busy, ended, hrunning, hended, List.length_append, List.length_singleton]
      omega
    · intro place result hplace
      rw [List.getElem?_set] at hplace
      split at hplace
      · split at hplace <;> cases hplace
      · exact h.outcome place result hplace
  | @finish position binding world hstage hbinding =>
    obtain ⟨result, hresult⟩ : ∃ result, result = ((job binding).runIn context world).1 := ⟨_, rfl⟩
    rw [← hresult]
    have hrunning : (pool.set position (.finished result)).countP Stage.isRunning + 1 =
        pool.countP Stage.isRunning := by
      simpa [Stage.isRunning] using countP_set_stage Stage.isRunning hstage (.finished result)
    have hended : (pool.set position (.finished result)).countP Stage.isFinished =
        pool.countP Stage.isFinished + 1 := by
      simpa [Stage.isFinished] using countP_set_stage Stage.isFinished hstage (.finished result)
    refine ⟨(List.length_set ..).trans h.length_eq, ?_, ?_, ?_, ?_, ?_⟩
    · rw [busy]
      omega
    · exact count_append_event h.starts hstage fun place => by simp [Stage.starts]
    · exact count_append_event h.finishes hstage fun place => by simp [Stage.finishes]
    · rw [busy, ended, List.length_append, List.length_singleton]
      omega
    · intro place other hplace
      rw [List.getElem?_set] at hplace
      split at hplace
      · rename_i heq
        subst heq
        split at hplace
        · obtain rfl : result = other := by simpa using hplace
          exact ⟨binding, world, hbinding, hresult⟩
        · cases hplace
      · exact h.outcome place other hplace

/-- Whatever has happened to a pool, it is accounted for. -/
theorem Run.accounted (h : Run context bindings job events pool) :
    Accounted context bindings job events pool := by
  induction h with
  | fresh =>
    have hcount : ∀ p : Stage β → Bool, p .waiting = false →
        (List.replicate bindings.length Stage.waiting).countP p = 0 := by
      intro p hp
      simp [List.countP_replicate, hp]
    have hplace : ∀ (f : Stage β → Nat) (place : Nat), f .waiting = 0 →
        ((List.replicate bindings.length Stage.waiting)[place]?).elim 0 f = 0 := by
      intro f place hf
      rw [List.getElem?_replicate]
      split
      · exact hf
      · rfl
    refine ⟨List.length_replicate .., ?_, fun place => (hplace _ place rfl).symm,
      fun place => (hplace _ place rfl).symm, ?_, ?_⟩
    · rw [busy, hcount _ rfl]
      exact Nat.zero_le _
    · rw [busy, ended, hcount _ rfl, hcount _ rfl]
      rfl
    · intro position result hresult
      rw [List.getElem?_replicate] at hresult
      split at hresult <;> cases hresult
  | step _ hstep ih => exact ih.step hstep

/-! ## What comes out -/

/-- A pool in which not all jobs have ended goes on. -/
theorem exists_step (h : Accounted context bindings job events pool) :
    (∃ outcomes : List (Except Error β), pool = outcomes.map .finished) ∨
      ∃ event next, Step context bindings job pool event next := by
  by_cases hrunning : ∃ position : Nat, pool[position]? = some .running
  · -- a job that was started can end
    obtain ⟨position, hstage⟩ := hrunning
    have hlt := (List.getElem?_eq_some_iff.mp hstage).1
    have hbinding := List.getElem?_eq_getElem (h.length_eq ▸ hlt)
    exact .inr ⟨_, _, .finish {} hstage hbinding⟩
  by_cases hwaiting : ∃ position : Nat, pool[position]? = some .waiting
  · -- all workers are free
    obtain ⟨position, hstage⟩ := hwaiting
    have hlt := (List.getElem?_eq_some_iff.mp hstage).1
    have hfree : busy pool = 0 := by
      refine List.countP_eq_zero.mpr fun stage hmem hrun => ?_
      cases stage with
      | running => exact hrunning (List.mem_iff_getElem?.mp hmem)
      | waiting | finished outcome => cases hrun
    have hbindings := h.length_eq
    refine .inr ⟨_, _, .start hstage ?_⟩
    rw [hfree, threads]
    omega
  · have hfinished : ∀ stage ∈ pool, stage ∈ Set.range (Stage.finished (β := β)) := by
      intro stage hmem
      cases stage with
      | waiting => exact absurd (List.mem_iff_getElem?.mp hmem) hwaiting
      | running => exact absurd (List.mem_iff_getElem?.mp hmem) hrunning
      | finished result => exact ⟨result, rfl⟩
    obtain ⟨outcomes, houtcomes⟩ : pool ∈ Set.range (List.map Stage.finished) := by
      rwa [Set.range_list_map]
    exact .inl ⟨outcomes, houtcomes.symm⟩

/-- The jobs of a pool end with what they come to. -/
theorem eq_map_of_finished {outcomes : List (Except Error β)}
    (hjob : ∀ binding ∈ bindings, ∀ world,
      ((job binding).runIn context world).1 = outcome binding)
    (h : Accounted context bindings job events (outcomes.map .finished)) :
    outcomes = bindings.map outcome := by
  have hlength : outcomes.length = bindings.length := (List.length_map _).symm.trans h.length_eq
  refine List.ext_getElem (by simpa using hlength) fun position hlt _ => ?_
  have hplace : (outcomes.map Stage.finished)[position]? = some (.finished outcomes[position]) := by
    simp [List.getElem?_eq_getElem hlt]
  obtain ⟨binding, world, hbinding, hresult⟩ := h.outcome position _ hplace
  obtain ⟨hlt', rfl⟩ := List.getElem?_eq_some_iff.mp hbinding
  rw [hresult, hjob _ (List.getElem_mem hlt'), List.getElem_map]

/-- **Jobs of a pool.** Take jobs that come to what depends on their bindings alone. However the
workers take the bindings, and in whatever order the jobs end, no more jobs run than there are
workers, each of them starts once at most and does not end before, and the pool goes on until all
have ended. Then every job was done exactly once, whichever failed. The outcomes come to the results
in the order of the bindings, or to the failure of the first binding that fails. If no job stops the
run, this is what the jobs come to one after the other. -/
theorem outcome_of_run
    (hjob : ∀ binding ∈ bindings, ∀ world,
      ((job binding).runIn context world).1 = outcome binding)
    (hrun : Run context bindings job events pool) :
    (busy pool ≤ threads context.settings bindings ∧ events.length ≤ 2 * bindings.length ∧
      ∀ position, events.count (.finish position) ≤ events.count (.start position) ∧
        events.count (.start position) ≤ 1) ∧
    ((∃ outcomes : List (Except Error β), pool = outcomes.map .finished) ∨
      ∃ event next, Step context bindings job pool event next) ∧
    ∀ outcomes : List (Except Error β), pool = outcomes.map .finished →
      (∀ position < bindings.length,
        events.count (.start position) = 1 ∧ events.count (.finish position) = 1) ∧
      (∀ results, outcomes.mapM id = .ok results ↔ bindings.map outcome = results.map .ok) ∧
      (∀ e, outcomes.mapM id = .error e ↔
        ∃ before binding after, bindings = before ++ binding :: after ∧
          (∀ earlier ∈ before, ∃ result, outcome earlier = .ok result) ∧
          outcome binding = .error e) ∧
      ((∀ binding ∈ bindings, ∀ e, outcome binding = .error e → e.cause.stopsRun = false) →
        ∀ world, (Engine.each bindings job).runIn context world =
          (outcomes.mapM id, Engine.worldAfter context job bindings world)) := by
  have haccounted : Accounted context bindings job events pool := hrun.accounted
  refine ⟨⟨haccounted.busy_le, ?_, fun position => ?_⟩, exists_step haccounted, ?_⟩
  · have hlength := haccounted.length_events
    have hstages := busy_add_ended_le pool
    have hbindings := haccounted.length_eq
    omega
  · rw [haccounted.starts, haccounted.finishes]
    cases pool[position]? with
    | none => simp
    | some stage => cases stage <;> simp [Stage.starts, Stage.finishes]
  · rintro outcomes rfl
    obtain rfl := eq_map_of_finished hjob haccounted
    refine ⟨fun position hlt => ?_, fun results => mapM_id_eq_ok, fun e => ?_, ?_⟩
    · rw [haccounted.starts, haccounted.finishes]
      simp [hlt, Stage.starts, Stage.finishes]
    · rw [List.mapM_map]
      exact mapM_eq_error_iff
    · exact fun hgoes => Engine.runIn_each hjob hgoes

/-- the tenfold of a number less than two -/
def tenfold (number : Nat) : Except Error Nat :=
  if number < 2 then .ok (number * 10) else .error (.of (.validation s!"failed {number}"))

/-- notes a number, and then takes it tenfold -/
def noteTenfold (number : Nat) : Engine Nat := do
  Engine.record (.log (toString number))
  Engine.ofExcept (tenfold number)

/-- settings with two workers -/
def twoWorkers : Context where
  settings := Settings.withWorkers {} 2

theorem outcome_of_run_tenfold :
    Run twoWorkers [1, 2, 3] noteTenfold
      [.start 0, .start 1, .finish 1, .start 2, .finish 2, .finish 0]
      [.finished (.ok 10), .finished (tenfold 2), .finished (tenfold 3)] ∧
    (Engine.each [1, 2, 3] noteTenfold).runIn twoWorkers {} =
      (.error (.of (.validation "failed 2")), { trace := [.log "1", .log "2", .log "3"] }) := by
  have hjob : ∀ number ∈ [1, 2, 3], ∀ world,
      ((noteTenfold number).runIn twoWorkers world).1 = tenfold number := by
    intro number _ world
    change ((Engine.ofExcept (tenfold number)).runIn twoWorkers _).1 = _
    rw [Engine.runIn_ofExcept]
  have hgoes : ∀ number ∈ [1, 2, 3], ∀ e, tenfold number = .error e → e.cause.stopsRun = false := by
    intro number _ e he
    rw [tenfold] at he
    split at he
    · cases he
    · obtain rfl := Except.error.inj he
      rfl
  have hrun : Run twoWorkers [1, 2, 3] noteTenfold
      [.start 0, .start 1, .finish 1, .start 2, .finish 2, .finish 0]
      [.finished (.ok 10), .finished (tenfold 2), .finished (tenfold 3)] := by
    have h₁ : Run twoWorkers [1, 2, 3] noteTenfold [.start 0] [.running, .waiting, .waiting] :=
      Run.fresh.step (.start rfl (by decide))
    have h₂ : Run twoWorkers [1, 2, 3] noteTenfold [.start 0, .start 1]
        [.running, .running, .waiting] :=
      h₁.step (.start rfl (by decide))
    have h₃ : Run twoWorkers [1, 2, 3] noteTenfold [.start 0, .start 1, .finish 1]
        [.running, .finished (tenfold 2), .waiting] :=
      h₂.step (@Step.finish _ _ _ _ noteTenfold _ 1 2 {} rfl rfl)
    have h₄ : Run twoWorkers [1, 2, 3] noteTenfold [.start 0, .start 1, .finish 1, .start 2]
        [.running, .finished (tenfold 2), .running] :=
      h₃.step (.start rfl (by decide))
    have h₅ : Run twoWorkers [1, 2, 3] noteTenfold
        [.start 0, .start 1, .finish 1, .start 2, .finish 2]
        [.running, .finished (tenfold 2), .finished (tenfold 3)] :=
      h₄.step (@Step.finish _ _ _ _ noteTenfold _ 2 3 {} rfl rfl)
    exact h₅.step (@Step.finish _ _ _ _ noteTenfold _ 0 1 {} rfl rfl)
  refine ⟨hrun, ?_⟩
  obtain ⟨-, -, hends⟩ := outcome_of_run hjob hrun
  obtain ⟨-, -, -, heach⟩ := hends [.ok 10, tenfold 2, tenfold 3] rfl
  exact heach hgoes {}

end Pool

end TableRecipe
