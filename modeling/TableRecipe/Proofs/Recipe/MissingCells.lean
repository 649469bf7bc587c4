import TableRecipe.Proofs.Recipe.ConditionalStep

/-!
# Missing cells in steps

Missing cells become empty texts after every step, and only then. So the table that a section of
steps starts from decides: it is handed to the first step as it is, and all tables handed to later
steps are filled. A matrix hands on the table that it was handed, so no section in it starts worse
than the section around it.

* `Recipe.Handed` — the table handed to a step of a section;
* `Recipe.noNulls_of_steps` — the table after a section of steps;
* `Recipe.refusingMissing` — a run in which no section starts from a table with missing cells;
* `Recipe.handed_noNulls` — the tables handed to the steps of a section.
-/

namespace TableRecipe

variable {α : Type} {context : Context} {world world' : World} {table seen : Table}

/-- whether the table that a task of a section of steps starts from has no missing cells -/
def Task.StartsFilled : {α : Type} → Task α → Prop
  | _, .steps _ table _ => table.NoNulls
  | _, .recipe _ _ (some table) => table.NoNulls
  | _, _ => True

namespace Recipe

variable {run run' : Runner} {body : Value} {bindings : Fields} {place : Nat}

/-! ## Steps one after the other -/

/-- the table handed to the step at a place of a section, counted from zero: the entry there names
a step, and the entries before it led to the table -/
def Handed (run : Runner) (body : Value) (table : Table) (bindings : Fields) (context : Context)
    (world : World) (place : Nat) (seen : Table) : Prop :=
  ∃ items entry key params applied world', entries "wrangles" body = .ok items ∧
    items[place]? = some entry ∧ keyAndParams "wrangles" entry = .ok (key, params) ∧
    (((items.zipIdx 1).take place).foldlM (applyEntry run bindings) (table, [])).runIn context
      world = (.ok (seen, applied), world')

/-- After an entry no cell is missing, whatever the step left. -/
theorem noNulls_of_applyEntry {before after : Table × List String} {entry : Value × Nat}
    (h : (applyEntry run bindings before entry).runIn context world = (.ok after, world')) :
    after.1.NoNulls := by
  obtain ⟨⟨key, params⟩, -, h⟩ := Engine.ofExcept_bind_ok h
  obtain ⟨result, _, -, h⟩ := Engine.bind_ok h
  obtain ⟨rfl, -⟩ := Engine.pure_ok h
  exact Table.noNulls_fillMissing

/-- Once no cell is missing, none is missing after further entries. -/
theorem noNulls_of_applyEntries {entries : List (Value × Nat)}
    {before after : Table × List String}
    (h : (entries.foldlM (applyEntry run bindings) before).runIn context world =
      (.ok after, world')) (hbefore : before.1.NoNulls) : after.1.NoNulls :=
  Engine.foldlM_ok (fun state => state.1.NoNulls) h hbefore
    fun _ _ _ _ _ _ _ _ hentry => noNulls_of_applyEntry hentry

/-- The first step is handed the table that the section starts from. -/
theorem Handed.eq_start (h : Handed run body table bindings context world 0 seen) :
    seen = table := by
  obtain ⟨_, _, _, _, _, _, -, -, -, hstart⟩ := h
  exact (congrArg Prod.fst (Engine.pure_ok hstart).1).symm

/-- A later step is handed a table without missing cells. -/
theorem Handed.noNulls_of_pos (h : Handed run body table bindings context world place seen)
    (hplace : 0 < place) : seen.NoNulls := by
  obtain ⟨items, entry, _, _, applied, _, -, hentry, -, hbefore⟩ := h
  -- there is an entry before this one, and the table is filled after it
  obtain ⟨place, rfl⟩ := Nat.exists_eq_add_one.mpr hplace
  cases items with
  | nil => simp at hentry
  | cons first rest =>
    rw [List.zipIdx_cons, List.take_succ_cons, List.foldlM_cons] at hbefore
    obtain ⟨middle, _, hfirst, hrest⟩ := Engine.bind_ok hbefore
    exact noNulls_of_applyEntries hrest (noNulls_of_applyEntry hfirst)

/-- A section that starts without missing cells ends without them. -/
theorem noNulls_of_steps {depth : Nat} {result : Table × List String} (htable : table.NoNulls)
    (h : (Task.perform depth (.steps body table bindings)).runIn context world =
      (.ok result, world')) : result.1.NoNulls := by
  cases depth with
  | zero => exact (Engine.throw_ok h).elim
  | succ depth =>
    obtain ⟨items, -, h⟩ := Engine.ofExcept_bind_ok h
    exact noNulls_of_applyEntries h htable

/-! ## Sections within sections -/

/-- two ways to carry out tasks agree on those that start without missing cells, and sections of
steps then end without them -/
structure AgreeOnFilled (run run' : Runner) : Prop where
  /-- they agree -/
  agree : ∀ {α : Type} (task : Task α), task.StartsFilled → run task = run' task
  /-- a section of steps leaves no cell missing -/
  keeps : ∀ {body table bindings context world result world'}, table.NoNulls →
    (run (.steps body table bindings)).runIn context world = (.ok result, world') →
    result.1.NoNulls

namespace AgreeOnFilled

variable (hagree : AgreeOnFilled run run') (htable : table.NoNulls) {params : Fields}
include hagree htable

theorem nested : nested run params (some table) = Recipe.nested run' params (some table) := by
  refine Engine.ofExcept_bind_congr fun source _ => Engine.ofExcept_bind_congr fun given _ => ?_
  simp only [hagree.agree (.recipe source given (some table)) htable]

/-- A matrix starts its section again from the table that the last time left. -/
theorem applyMatrix :
    applyMatrix run params table bindings = Recipe.applyMatrix run' params table bindings := by
  refine Engine.ofExcept_bind_congr fun body _ => Engine.bind_congr fun all _ _ _ _ => ?_
  refine Engine.foldlM_congr_of Table.NoNulls htable ?_ ?_
  · intro table htable binding _
    refine Engine.ofExcept_bind_congr fun value _ => ?_
    simp only [hagree.agree (.steps value table (Fields.extend bindings binding)) htable]
  · intro table htable binding _ after context world world' h
    obtain ⟨value, -, h⟩ := Engine.ofExcept_bind_ok h
    obtain ⟨result, _, hsteps, h⟩ := Engine.bind_ok h
    obtain ⟨rfl, -⟩ := Engine.pure_ok h
    exact hagree.keeps htable hsteps

theorem dispatch {key : String} {conditional : Bool} :
    dispatch run key params table bindings conditional =
      Recipe.dispatch run' key params table bindings conditional := by
  simp only [Recipe.dispatch]
  split
  · simp only [applyRecipe]
    rw [hagree.nested htable]
  · rw [hagree.applyMatrix htable]
  · rfl

theorem applyStep {key : String} {params : Value} :
    applyStep run key params table bindings = Recipe.applyStep run' key params table bindings := by
  refine Engine.ofExcept_bind_congr fun fields _ => ?_
  split
  · rw [hagree.dispatch htable]
  · split
    · rw [hagree.dispatch htable]
    · refine Engine.ofExcept_bind_congr fun text _ => ?_
      refine Engine.ofExcept_bind_congr fun selected hselected => ?_
      -- the rows that a condition selects are rows of the table
      obtain ⟨_, _, -, -, rfl⟩ := Condition.filterText_ok hselected
      dsimp only
      rw [hagree.dispatch (Table.noNulls_filterMask htable)]

theorem applySteps :
    applySteps run body table bindings = Recipe.applySteps run' body table bindings := by
  refine Engine.ofExcept_bind_congr fun items _ => ?_
  refine Engine.foldlM_congr_of (fun state => state.1.NoNulls) htable ?_ ?_
  · rintro ⟨table, applied⟩ htable ⟨entry, number⟩ _
    refine Engine.ofExcept_bind_congr fun found _ => ?_
    obtain ⟨key, params⟩ := found
    dsimp only
    rw [hagree.applyStep htable]
  · exact fun _ _ _ _ _ _ _ _ h => noNulls_of_applyEntry h

end AgreeOnFilled

open Classical in
/-- a run of tasks in which a section of steps, or a recipe as a step, that would start from a
table with missing cells is refused; what runs within a recipe runs as ever -/
noncomputable def refusingMissing {α : Type} : (depth : Nat) → Task α → Engine α
  | 0, task => task.perform 0
  | depth + 1, task =>
    if task.StartsFilled then
      match task with
      | .steps body table bindings => applySteps (refusingMissing depth) body table bindings
      | task => task.perform (depth + 1)
    else throw (.validation "a section of steps starts with missing cells")

theorem agreeOnFilled_refusingMissing (depth : Nat) :
    AgreeOnFilled (Task.perform depth) (refusingMissing depth) := by
  refine ⟨?_, noNulls_of_steps⟩
  induction depth with
  | zero => exact fun _ _ => rfl
  | succ depth ih =>
    intro α task hfilled
    simp only [refusingMissing, hfilled, if_true]
    cases task with
    | steps body table bindings => exact AgreeOnFilled.applySteps ⟨ih, noNulls_of_steps⟩ hfilled
    | recipe source given table => rfl
    | read body table bindings => rfl
    | readEntry entry table bindings => rfl
    | write body table bindings => rfl
    | act actions bindings => rfl

/-! ## The tables handed to steps -/

/-- **Missing cells that steps see.** The first step of a section is handed the table that the
section starts from, and every later one a table without missing cells. So no step of a section is
handed a missing cell if and only if there is none in the table handed to the first. A section that
starts without missing cells hands none to the sections and the recipes in it either: their runs do
not change if starting them with missing cells is refused. -/
theorem handed_noNulls (run : Runner) (body : Value) (table : Table) (bindings : Fields)
    (context : Context) (world : World) :
    (∀ place seen, Handed run body table bindings context world place seen →
      (place = 0 → seen = table) ∧ (0 < place → seen.NoNulls)) ∧
    ((∀ place seen, Handed run body table bindings context world place seen → seen.NoNulls) ↔
      (Handed run body table bindings context world 0 table → table.NoNulls)) ∧
    (table.NoNulls → ∀ depth, Task.perform depth (.steps body table bindings) =
      refusingMissing depth (.steps body table bindings)) := by
  refine ⟨fun place seen h => ⟨?_, h.noNulls_of_pos⟩, ⟨fun h => h 0 table, ?_⟩, ?_⟩
  · rintro rfl
    exact h.eq_start
  · intro hfirst place seen h
    rcases Nat.eq_zero_or_pos place with rfl | hplace
    · obtain rfl := h.eq_start
      exact hfirst h
    · exact h.noNulls_of_pos hplace
  · exact fun htable depth => (agreeOnFilled_refusingMissing depth).agree _ htable

/-- one row with a missing cell -/
def missing : Table := { columns := [⟨"a", [.null]⟩], index := [0] }

/-- a function on tables that answers with a missing cell, whatever table it is given -/
def forgetful : CustomFunction where
  name := "f"
  signature := .ofTables
  call _ _ := .ok (.table missing)

/-- two steps that call the function -/
def forgettingTwice : Value :=
  .list [.object [("custom.f", .object [])], .object [("custom.f", .object [])]]

/-- What the first step forgot, the second does not miss. -/
theorem handed_noNulls_forgettingTwice :
    ∃ seen, Handed (Task.perform 1) forgettingTwice letters [] { functions := [forgetful] } {} 1
      seen ∧ seen.NoNulls := by
  let filled : Table := { columns := [⟨"a", [.string ""]⟩], index := [0] }
  have hhanded : Handed (Task.perform 1) forgettingTwice letters []
      { functions := [forgetful] } {} 1 filled := by
    refine ⟨_, _, _, _, ["custom.f"], { trace := [.call "f" [] (some letters)] }, rfl, rfl, rfl, ?_⟩
    decide +kernel
  obtain ⟨hplaces, -, -⟩ := handed_noNulls (Task.perform 1) forgettingTwice letters []
    { functions := [forgetful] } {}
  exact ⟨filled, hhanded, (hplaces 1 filled hhanded).2 (by decide)⟩

/-- The first step of a recipe is handed the missing cell of the table that the recipe is given. -/
theorem missing_cell_handed_to_first :
    Handed (Task.perform 1) forgettingTwice missing [] { functions := [forgetful] } {} 0 missing ∧
      ¬ missing.NoNulls ∧
      ((Recipe.run (.document (.object [("wrangles", forgettingTwice)])) [] (some missing)).runIn
        { functions := [forgetful] } {}).2.trace.head? = some (.call "f" [] (some missing)) := by
  refine ⟨⟨_, _, _, _, [], {}, rfl, rfl, rfl, rfl⟩, by decide, ?_⟩
  decide +kernel

end Recipe

end TableRecipe
