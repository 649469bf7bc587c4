import Mathlib.Data.List.Basic
import Mathlib.Data.List.Nodup
import TableRecipe.Proofs.Table.Join
import TableRecipe.Proofs.Table.Shape

/-!
# Names stay distinct

Look-ups take the first column of a name, so a second one of the same name would be hidden. Every
operation keeps the names distinct but two: a selection shows a name as often as it is asked to, and
a join puts an ending to the names that both sides have without looking whether one side has the
longer name as well.

* `Table.sideBySide`, `Table.nodup_sideBySide_iff` — the names of a join, and when they are distinct;
* `Table.names_join`, `Table.exists_join` — when two tables can be joined, and the names then;
* `Operation.Repeats` — the operations that show a name twice;
* `Operation.distinctNames_run_iff` — all tables have distinct names unless one of these was done.
-/

namespace TableRecipe

namespace Table

variable {table other result : Table} {name : String} {names left right own others : List String}
  {leftOn rightOn : List String} {kind : JoinKind}

/-! ## Names with endings -/

/-- a name with an ending, if it is among others -/
def ended (ending : String) (others : List String) (name : String) : String :=
  if name ∈ others then name ++ ending else name

/-- the names of two tables side by side, those on both sides told apart by endings -/
def sideBySide (left right : List String) : List String :=
  left.map (ended "_x" right) ++ right.map (ended "_y" left)

/-- whether a name on both sides with one of the endings is a name on one side only: there it stays
as it is -/
def EndingTaken (left right : List String) : Prop :=
  ∃ name ∈ left, name ∈ right ∧ ∃ ending ∈ ["_x", "_y"],
    (name ++ ending ∈ left ↔ name ++ ending ∉ right)

instance : Decidable (EndingTaken left right) :=
  inferInstanceAs (Decidable (∃ name ∈ left, name ∈ right ∧ ∃ ending ∈ ["_x", "_y"], _))

theorem append_x_ne_append_y (first second : String) : first ++ "_x" ≠ second ++ "_y" := by
  intro h
  have hlist := congrArg String.toList h
  rw [String.toList_append, String.toList_append] at hlist
  have hends := List.append_inj_right' hlist (by simp)
  simp at hends

/-- The ending tells the names of a side apart if no name gets the form of one that has no partner. -/
theorem ended_inj {ending : String} {first second : String}
    (h : ∀ name ∈ own, name ∈ others → name ++ ending ∈ own → name ++ ending ∈ others)
    (hfirst : first ∈ own) (hsecond : second ∈ own)
    (heq : ended ending others first = ended ending others second) : first = second := by
  rw [ended, ended] at heq
  split at heq <;> split at heq
  · exact String.append_left_inj ending |>.mp heq
  · rename_i hin hout
    exact absurd (heq ▸ h first hfirst hin (heq ▸ hsecond)) hout
  · rename_i hout hin
    exact absurd (heq ▸ h second hsecond hin (heq ▸ hfirst)) hout
  · exact heq

theorem ended_ne {first second : String}
    (hleft : ∀ name ∈ left, name ∈ right → name ++ "_x" ∈ right → name ++ "_x" ∈ left)
    (hright : ∀ name ∈ right, name ∈ left → name ++ "_y" ∈ left → name ++ "_y" ∈ right)
    (hfirst : first ∈ left) (hsecond : second ∈ right) :
    ended "_x" right first ≠ ended "_y" left second := by
  intro heq
  rw [ended, ended] at heq
  split at heq <;> split at heq
  · exact append_x_ne_append_y _ _ heq
  · rename_i hin hout
    exact hout (heq ▸ hleft first hfirst hin (heq ▸ hsecond))
  · rename_i hout hin
    exact hout (heq ▸ hright second hsecond hin (heq ▸ hfirst))
  · rename_i hout _
    exact hout (heq ▸ hsecond)

theorem ne_append_ending {ending : String} (h : ending ∈ ["_x", "_y"]) : name ≠ name ++ ending := by
  intro heq
  have hlength := congrArg String.length heq
  rw [String.length_append] at hlength
  rcases List.mem_pair.mp h with rfl | rfl <;> exact absurd hlength (by simp)

/-- Two columns come to one name exactly if an ending makes a name that stays as it is. -/
theorem nodup_sideBySide_iff (hleft : left.Nodup) (hright : right.Nodup) :
    (sideBySide left right).Nodup ↔ ¬ EndingTaken left right := by
  rw [sideBySide, List.nodup_append, List.nodup_map_iff_inj_on hleft,
    List.nodup_map_iff_inj_on hright]
  constructor
  · rintro ⟨hinjX, hinjY, hapart⟩ ⟨name, hname, hother, ending, hending, htaken⟩
    have hx : ended "_x" right name = name ++ "_x" := if_pos hother
    have hy : ended "_y" left name = name ++ "_y" := if_pos hname
    -- The taken name stands on one side as it is, and the other column of the clash is on the side
    -- that gets the ending.
    by_cases hin : name ++ ending ∈ left
    · have hstays : ended "_x" right (name ++ ending) = name ++ ending := if_neg (htaken.mp hin)
      rcases List.mem_pair.mp hending with rfl | rfl
      · exact ne_append_ending hending (hinjX _ hname _ hin (hx.trans hstays.symm))
      · refine hapart (name ++ "_y") ?_ (name ++ "_y") ?_ rfl
        · exact List.mem_map.mpr ⟨_, hin, hstays⟩
        · exact List.mem_map.mpr ⟨_, hother, hy⟩
    · have hin' : name ++ ending ∈ right := not_not.mp (mt htaken.mpr hin)
      have hstays : ended "_y" left (name ++ ending) = name ++ ending := if_neg hin
      rcases List.mem_pair.mp hending with rfl | rfl
      · refine hapart (name ++ "_x") ?_ (name ++ "_x") ?_ rfl
        · exact List.mem_map.mpr ⟨_, hname, hx⟩
        · exact List.mem_map.mpr ⟨_, hin', hstays⟩
      · exact ne_append_ending hending (hinjY _ hother _ hin' (hy.trans hstays.symm))
  · intro hfree
    have hboth : ∀ name ∈ left, name ∈ right → ∀ ending ∈ ["_x", "_y"],
        (name ++ ending ∈ left ↔ name ++ ending ∈ right) := by
      intro name hname hother ending hending
      by_contra hone
      exact hfree ⟨name, hname, hother, ending, hending, by tauto⟩
    have hx : "_x" ∈ ["_x", "_y"] := by simp
    have hy : "_y" ∈ ["_x", "_y"] := by simp
    refine ⟨?_, ?_, ?_⟩
    · intro first hfirst second hsecond heq
      exact ended_inj (fun name hname hother => (hboth name hname hother "_x" hx).mp)
        hfirst hsecond heq
    · intro first hfirst second hsecond heq
      exact ended_inj (fun name hother hname => (hboth name hname hother "_y" hy).mpr)
        hfirst hsecond heq
    · intro first hfirst second hsecond heq
      obtain ⟨name, hname, rfl⟩ := List.mem_map.mp hfirst
      obtain ⟨name', hname', rfl⟩ := List.mem_map.mp hsecond
      exact ended_ne (fun name hname hother => (hboth name hname hother "_x" hx).mpr)
        (fun name hother hname => (hboth name hname hother "_y" hy).mp) hname hname' heq

/-! ## The names of a join -/

/-- the right columns that a join shows: a key of one name on both sides is shown on the left -/
def shownColumns (table other : Table) (leftOn rightOn : List String) : List Column :=
  other.columns.zipIdx.filterMap fun (column, place) =>
    if (table.sharedKeys other leftOn rightOn).any (·.2 = place) then none else some column

/-- key columns that two tables can be joined on -/
structure Joinable (table other : Table) (leftOn rightOn : List String) : Prop where
  nonempty : leftOn ≠ []
  length : leftOn.length = rightOn.length
  left : ∀ name ∈ leftOn, table.has name
  right : ∀ name ∈ rightOn, other.has name

theorem has_of_forM_cells
    (h : (names.forM fun name => discard (table.cells name)) = Except.ok ()) :
    ∀ name ∈ names, table.has name := by
  induction names with
  | nil => exact nofun
  | cons name rest ih =>
    rw [List.forM_eq_forM, List.forM_cons] at h
    obtain ⟨_, hname, hrest⟩ := bind_eq_ok.mp h
    refine List.forall_mem_cons.mpr ⟨?_, ih hrest⟩
    rw [has_iff_cells?, Option.isSome_iff_ne_none]
    intro hnone
    rw [Table.cells, hnone] at hname
    cases hname

/-- Two tables are joined if there are key columns, and all of them are there. -/
theorem exists_join : (∃ result, table.join other leftOn rightOn kind = .ok result) ↔
    Joinable table other leftOn rightOn := by
  constructor
  · rintro ⟨result, h⟩
    rw [join] at h
    split at h
    · exact (throw_ne_ok h).elim
    · rename_i hguard
      obtain ⟨_, hleft, h⟩ := bind_eq_ok.mp h
      obtain ⟨_, hright, -⟩ := bind_eq_ok.mp h
      simp only [Bool.or_eq_true, List.isEmpty_iff, decide_eq_true_eq, not_or, not_not] at hguard
      exact ⟨hguard.1, hguard.2, has_of_forM_cells hleft, has_of_forM_cells hright⟩
  · intro h
    have hguard : (leftOn.isEmpty || decide (leftOn.length ≠ rightOn.length)) = false := by
      simp [h.nonempty, h.length]
    rw [join]
    simp only [hguard, forM_cells h.left, forM_cells h.right, keyRows_eq h.left, keyRows_eq h.right]
    exact ⟨_, rfl⟩

/-- The names and the date marks of a join. -/
theorem names_join (h : table.join other leftOn rightOn kind = .ok result) :
    result.names =
        sideBySide table.names ((shownColumns table other leftOn rightOn).map (·.name)) ∧
      result.dates = uniteNames table.dates other.dates := by
  have hreturns : Returns (fun result : Table => result.names =
        sideBySide table.names ((shownColumns table other leftOn rightOn).map (·.name)) ∧
      result.dates = uniteNames table.dates other.dates)
      (table.join other leftOn rightOn kind) := by
    refine .ite (.bind fun _ h => (throw_ne_ok h).elim) (.bind fun _ _ => .bind fun _ _ => ?_)
    refine .bind fun leftKeys _ => .bind fun rightKeys _ => .pure ⟨?_, rfl⟩
    rw [Table.names, List.map_append, List.map_map, List.map_map, sideBySide, Table.names,
      List.map_map, List.map_map]
    refine congrArg₂ (· ++ ·) (map_zipIdx_eq_map fun place column _ => ?_) ?_
    · have hany (columns : List Column) : columns.any (·.name = column.name) = true ↔
          column.name ∈ columns.map (·.name) := by simp
      exact ite_congr (propext (hany _)) (fun _ => rfl) fun _ => rfl
    · refine List.map_congr_left fun column _ => ?_
      simp [ended, has_iff_mem_names, Table.names]
  exact hreturns result h

/-- the names of the right table but for keys that are paired with themselves -/
def unpaired (other : Table) (on : List (String × String)) : List String :=
  other.names.filter fun name => !on.contains (name, name)

theorem names_shownColumns (hother : other.DistinctNames) (hleft : ∀ name ∈ leftOn, table.has name) :
    (shownColumns table other leftOn rightOn).map (·.name) = other.unpaired (leftOn.zip rightOn) := by
  rw [shownColumns, filterMap_sharedKeys hother hleft, unpaired, Table.names, List.filter_map]
  simp [Function.comp_def]

/-- The names of a join are distinct exactly if no ending makes a name that is taken. -/
theorem distinctNames_join (hdistinct : table.DistinctNames) (hother : other.DistinctNames) :
    Returns DistinctNames (table.join other leftOn rightOn kind) ↔
      (Joinable table other leftOn rightOn →
        ¬ EndingTaken table.names (other.unpaired (leftOn.zip rightOn))) := by
  have hunpaired : (other.unpaired (leftOn.zip rightOn)).Nodup := List.Nodup.filter _ hother
  constructor
  · intro h hjoinable
    obtain ⟨result, hresult⟩ := exists_join.mpr hjoinable
    have hnames := h result hresult
    rw [DistinctNames, (names_join hresult).1, names_shownColumns hother hjoinable.left] at hnames
    exact (nodup_sideBySide_iff hdistinct hunpaired).mp hnames
  · intro h result hresult
    have hjoinable := exists_join.mp ⟨result, hresult⟩
    rw [DistinctNames, (names_join hresult).1, names_shownColumns hother hjoinable.left]
    exact (nodup_sideBySide_iff hdistinct hunpaired).mpr (h hjoinable)

/-! ## The names of other tables -/

/-- Columns are selected if all of them are there. -/
theorem select_eq_ok :
    table.select names = .ok result ↔ (∀ name ∈ names, table.has name) ∧
      result =
        { columns := names.map fun name => ⟨name, (table.cells? name).getD []⟩
          index := table.index
          dates := table.dates.filter names.contains } := by
  have hselect (hhas : ∀ name ∈ names, table.has name) : table.select names = .ok
      { columns := names.map fun name => ⟨name, (table.cells? name).getD []⟩
        index := table.index
        dates := table.dates.filter names.contains } := by
    have hcolumns : (names.mapM fun name => do
          return (⟨name, ← table.cells name⟩ : Column) : Except Error (List Column)) =
        .ok (names.map fun name => ⟨name, (table.cells? name).getD []⟩) := by
      rw [mapM_congr fun name hname => by rw [cells_of_has (hhas name hname)]]
      exact List.mapM_pure
    rw [select, hcolumns]
    rfl
  constructor
  · intro h
    have hhas : ∀ name ∈ names, table.has name := by
      intro name hname
      obtain ⟨columns, hcolumns, -⟩ := bind_eq_ok.mp h
      obtain ⟨place, hplace⟩ := List.mem_iff_getElem?.mp hname
      obtain ⟨column, -, hcolumn⟩ := (mapM_ok hcolumns).2 place name hplace
      obtain ⟨cells, hcells, -⟩ := bind_eq_ok.mp hcolumn
      rw [has_iff_cells?, cells_eq_ok.mp hcells]
      rfl
    exact ⟨hhas, Except.ok.inj (h.symm.trans (hselect hhas))⟩
  · rintro ⟨hhas, rfl⟩
    exact hselect hhas

theorem names_select (h : table.select names = .ok result) : result.names = names := by
  obtain ⟨-, rfl⟩ := select_eq_ok.mp h
  simp [Table.names, Function.comp_def]

/-- Names that are added unless they are there do not repeat. -/
theorem nodup_foldl_add {seen : List String} (h : seen.Nodup) :
    (names.foldl (fun seen name => if seen.contains name then seen else seen ++ [name])
      seen).Nodup := by
  induction names generalizing seen with
  | nil => exact h
  | cons name rest ih =>
    rw [List.foldl_cons]
    refine ih ?_
    split
    · exact h
    · rename_i hnew
      rw [← List.concat_eq_append]
      exact h.concat (mt List.contains_iff_mem.mpr hnew)

theorem distinctNames_ofIndex (index : List Nat) : (ofIndex index).DistinctNames := List.nodup_nil

theorem distinctNames_ofRows (rows : List Fields) : (ofRows rows).DistinctNames := by
  rw [DistinctNames, Table.names, ofRows, List.map_map]
  simpa [Function.comp_def, distinctNames] using nodup_foldl_add List.nodup_nil

theorem distinctNames_union (h : table.DistinctNames) (other : Table) :
    (table.union other).DistinctNames := by
  rw [union]
  split
  · simpa [DistinctNames, Table.names, Function.comp_def] using nodup_foldl_add h
  · exact distinctNames_ofRows _

theorem distinctNames_takeRows (h : table.DistinctNames) (positions : List Nat) :
    (table.takeRows positions).DistinctNames := by
  simpa [DistinctNames, Table.names, takeRows, Function.comp_def] using h

theorem distinctNames_fillMissing (h : table.DistinctNames) : table.fillMissing.DistinctNames := by
  simpa [DistinctNames, Table.names, fillMissing, Function.comp_def] using h

theorem distinctNames_markDate (h : table.DistinctNames) (name : String) :
    (table.markDate name).DistinctNames := by
  rwa [DistinctNames, Table.names, columns_markDate]

end Table

namespace Edit

variable {name source target : String}

/-- A column is inserted only under a name that is not there. -/
theorem keeps_setColumn_distinctNames (name : String) (cells : List Value) :
    (setColumn name cells).Keeps Table.DistinctNames := by
  refine .get_bind fun table h => ?_
  by_cases hlength : cells.length = (indexFor table cells).length
  · rw [if_pos hlength, run_set, Table.DistinctNames, Table.names, names_putCells]
    split
    · rw [List.append_nil]
      exact h
    · rename_i hnew
      rw [← List.concat_eq_append]
      exact h.concat (mt Table.has_iff_mem_names.mpr hnew)
  · rw [if_neg hlength, run_throw]
    exact h

theorem keeps_dropColumn_distinctNames (name : String) :
    (dropColumn name).Keeps Table.DistinctNames :=
  .dropColumn fun _ h _ => h.sublist (List.Sublist.map _ List.eraseP_sublist)

/-- A new name repeats none of those that are left. -/
theorem keeps_renameColumn_distinctNames (source target : String) :
    (renameColumn source target).Keeps Table.DistinctNames := by
  refine .renameColumn fun table h _ htarget hsource => ?_
  have hnew : target ∉ table.names := mt Table.has_iff_mem_names.mpr (by simp [htarget])
  have hperm := perm_names_renameFirst target (Table.has_iff_mem_names.mp hsource)
  refine hperm.symm.nodup (List.nodup_cons.mpr ⟨?_, h.erase source⟩)
  exact fun hmem => hnew (List.mem_of_mem_erase hmem)

end Edit

/-! ## Operations that show a name twice -/

namespace Operation

variable {tables : List Table}

/-- whether an operation makes a table that shows a name twice: a selection that asks for it, or a
join in which an ending makes a name that is taken -/
def Repeats (tables : List Table) : Operation → Prop
  | select place names => ∃ table, tables[place]? = some table ∧
      (∀ name ∈ names, table.has name) ∧ ¬ names.Nodup
  | join place other leftOn rightOn _ => ∃ first second, tables[place]? = some first ∧
      tables[other]? = some second ∧ Table.Joinable first second leftOn rightOn ∧
      Table.EndingTaken first.names (second.unpaired (leftOn.zip rightOn))
  | _ => False

/-- Distinct names stay distinct unless the operation shows a name twice. -/
theorem distinctNames_step_iff (operation : Operation)
    (h : ∀ table ∈ tables, table.DistinctNames) :
    (∀ table ∈ step tables operation, table.DistinctNames) ↔ ¬ Repeats tables operation := by
  have hat (place : Nat) (table : Table) (htable : tables[place]? = some table) :
      table.DistinctNames := h table (List.mem_of_getElem? htable)
  cases operation with
  | ofColumns columns =>
    refine iff_of_true (forall_withMade.mpr ⟨h, fun _ hmade => ?_⟩) id
    exact Table.holds_ofColumns Edit.keeps_setColumn_distinctNames (Table.distinctNames_ofIndex [])
      hmade
  | ofRows rows =>
    exact iff_of_true (forall_withMade.mpr ⟨h, .pure (Table.distinctNames_ofRows rows)⟩) id
  | ofIndex index =>
    exact iff_of_true (forall_withMade.mpr ⟨h, .pure (Table.distinctNames_ofIndex index)⟩) id
  | select place names =>
    refine forall_withDerived.trans ⟨?_, fun hfree => ⟨h, fun table htable result hresult => ?_⟩⟩
    · rintro ⟨-, hselect⟩ ⟨table, htable, hhas, hrepeats⟩
      obtain ⟨result, hresult⟩ : ∃ result, table.select names = .ok result :=
        ⟨_, Table.select_eq_ok.mpr ⟨hhas, rfl⟩⟩
      exact hrepeats (Table.names_select hresult ▸ hselect table htable result hresult)
    · by_contra hrepeats
      rw [Table.DistinctNames, Table.names_select hresult] at hrepeats
      exact hfree ⟨table, htable, (Table.select_eq_ok.mp hresult).1, hrepeats⟩
  | takeRows place positions =>
    refine iff_of_true (forall_withDerived.mpr ⟨h, fun table htable => .pure ?_⟩) id
    exact Table.distinctNames_takeRows (hat place table htable) positions
  | filterMask place mask =>
    refine iff_of_true (forall_withDerived.mpr ⟨h, fun table htable => .pure ?_⟩) id
    exact Table.distinctNames_takeRows (hat place table htable) _
  | union place other =>
    refine iff_of_true (forall_withCombined.mpr ⟨h, fun first second hfirst _ => .pure ?_⟩) id
    exact Table.distinctNames_union (hat place first hfirst) second
  | concatenate place other =>
    refine iff_of_true (forall_withCombined.mpr ⟨h, fun _ _ _ _ _ hmade => ?_⟩) id
    exact Table.holds_concatenate Edit.keeps_setColumn_distinctNames
      (fun _ => Table.distinctNames_markDate) (Table.distinctNames_ofIndex _) hmade
  | join place other leftOn rightOn kind =>
    refine forall_withCombined.trans ⟨?_, fun hfree => ⟨h, fun first second hfirst hsecond => ?_⟩⟩
    · rintro ⟨-, hjoin⟩ ⟨first, second, hfirst, hsecond, hjoinable, htaken⟩
      exact (Table.distinctNames_join (hat place first hfirst) (hat other second hsecond)).mp
        (hjoin first second hfirst hsecond) hjoinable htaken
    · refine (Table.distinctNames_join (hat place first hfirst) (hat other second hsecond)).mpr ?_
      exact fun hjoinable htaken => hfree ⟨first, second, hfirst, hsecond, hjoinable, htaken⟩
  | setColumn place name cells =>
    exact iff_of_true (forall_withChanged h (Edit.keeps_setColumn_distinctNames name cells)) id
  | dropColumn place name =>
    exact iff_of_true (forall_withChanged h (Edit.keeps_dropColumn_distinctNames name)) id
  | dropColumns place names =>
    refine iff_of_true (forall_withChanged h ?_) id
    exact .dropColumns Edit.keeps_dropColumn_distinctNames names
  | renameColumn place source target =>
    exact iff_of_true (forall_withChanged h (Edit.keeps_renameColumn_distinctNames source target)) id
  | markDate place name =>
    exact iff_of_true
      (forall_withChanged h fun _ htable => Table.distinctNames_markDate htable name) id
  | resetIndex place => exact iff_of_true (forall_withChanged h fun _ htable => htable) id
  | fillMissing place =>
    exact iff_of_true
      (forall_withChanged h fun _ htable => Table.distinctNames_fillMissing htable) id

/-- The tables at hand after one more operation. -/
theorem run_take_succ {operations : List Operation} {number : Nat} {operation : Operation}
    (h : operations[number]? = some operation) :
    run tables (operations.take (number + 1)) =
      step (run tables (operations.take number)) operation := by
  rw [List.take_add_one, h, run, List.foldl_append]
  rfl

/-- **Distinct names.** If the names of every table are distinct in the beginning, they are so after
every operation exactly if none of the operations shows a name twice: a selection that asks for a
name twice, or a join in which a name of both tables with its ending is a name of one of them. -/
theorem distinctNames_run_iff (operations : List Operation)
    (h : ∀ table ∈ tables, table.DistinctNames) :
    (∀ number, ∀ table ∈ run tables (operations.take number), table.DistinctNames) ↔
      ∀ number operation, operations[number]? = some operation →
        ¬ Repeats (run tables (operations.take number)) operation := by
  constructor
  · intro hall number operation hoperation
    refine (distinctNames_step_iff operation (hall number)).mp ?_
    rw [← run_take_succ hoperation]
    exact hall (number + 1)
  · intro hfree number
    induction number with
    | zero => exact h
    | succ number ih =>
      rcases hoperation : operations[number]? with _ | operation
      · have hend : operations.length ≤ number := List.getElem?_eq_none_iff.mp hoperation
        rwa [List.take_of_length_le (Nat.le_succ_of_le hend), ← List.take_of_length_le hend]
      · rw [run_take_succ hoperation]
        exact (distinctNames_step_iff operation ih).mpr (hfree number operation hoperation)

/-- a table with a column that looks like one with an ending -/
def marked : Table where
  columns := [⟨"key", [.ofInt 1]⟩, ⟨"a", [.string "left"]⟩, ⟨"a_x", [.string "more"]⟩]
  index := [0]

/-- a table that shares a name beside the key -/
def shared : Table where
  columns := [⟨"key", [.ofInt 1]⟩, ⟨"a", [.string "right"]⟩]
  index := [0]

/-- the column that looks like one with an ending is renamed before the two tables are joined -/
def renamedThenJoined : List Operation :=
  [.renameColumn 0 "a_x" "b", .join 0 1 ["key"] ["key"] .outer]

theorem distinctNames_run_iff_renamedThenJoined :
    (∀ table ∈ [marked, shared], table.DistinctNames) ∧
      (run [marked, shared] renamedThenJoined).map Table.names =
        [["key", "a", "b"], ["key", "a"], ["key", "a_x", "b", "a_y"]] ∧
      ∀ number, ∀ table ∈ run [marked, shared] (renamedThenJoined.take number),
        table.DistinctNames := by
  have hstart : ∀ table ∈ [marked, shared], table.DistinctNames := by
    simp [Table.DistinctNames, Table.names, marked, shared]
  refine ⟨hstart, by decide +kernel, (distinctNames_run_iff renamedThenJoined hstart).mpr ?_⟩
  rintro (_ | _ | number) operation hoperation
  · obtain rfl := Option.some.inj hoperation
    exact id
  · obtain rfl := Option.some.inj hoperation
    rintro ⟨first, second, hfirst, hsecond, -, htaken⟩
    have hrun : run [marked, shared] (renamedThenJoined.take 1) =
        [marked.renamed "a_x" "b", shared] := by decide +kernel
    simp only [zero_add, hrun] at hfirst hsecond
    obtain rfl := Option.some.inj hfirst
    obtain rfl := Option.some.inj hsecond
    revert htaken
    decide +kernel
  · cases hoperation

/-- Two columns come to the name `a_x`: one that has it, and one that gets it. -/
theorem ending_taken_in_join :
    marked.DistinctNames ∧ shared.DistinctNames ∧
      (marked.join shared ["key"] ["key"] .inner).map Table.names =
        .ok ["key", "a_x", "a_x", "a_y"] ∧
      ¬ ["key", "a_x", "a_x", "a_y"].Nodup := by
  simp only [Table.DistinctNames]
  decide +kernel

end Operation

end TableRecipe
