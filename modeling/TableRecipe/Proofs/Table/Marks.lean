import Mathlib.Data.List.Basic
import Mathlib.Data.List.InsertIdx
import Mathlib.Data.List.NodupEquivFin
import TableRecipe.Proofs.Table.Names
import TableRecipe.Proofs.Table.Union

/-!
# Date marks travel with columns

A table keeps its date marks as names beside the columns, and every operation changes them on its
own. They travel with the columns if every mark of the result is the name of a column, and a column
is marked whenever one of the columns it was built from was.

* `Table.marks` — which columns of a table are marked;
* `Derivation` — a table made of another table, or of two;
* `Derivation.sourceMarks` — which columns of the result come from marked columns;
* `Derivation.MovesMarks` — when a mark comes to stand for another column, or for none;
* `Derivation.marks_travel_iff` — the marks travel with the columns but for that.
-/

namespace TableRecipe

namespace Table

variable {table other result : Table} {name : String} {names : List String} {place : Nat}
  {column : Column} {leftOn rightOn : List String} {kind : JoinKind}

/-- for every column, whether it is marked as a date -/
def marks (table : Table) : List Bool := table.columns.map fun column => table.isDate column.name

/-- whether several columns have the name -/
def Repeated (table : Table) (name : String) : Prop := 1 < table.names.count name

/-- whether the marks of a table are names of columns, and mark the columns given -/
def MarkedAs (marks : List Bool) (table : Table) : Prop :=
  table.dates ⊆ table.names ∧ table.marks = marks

theorem marks_eq : table.marks = table.names.map table.isDate := by
  rw [marks, names, List.map_map]
  rfl

theorem isDate_iff : table.isDate name = true ↔ name ∈ table.dates := List.contains_iff_mem

/-! ## Parts of a table -/

theorem markedAs_select (h : table.select names = .ok result) :
    result.MarkedAs (names.map table.isDate) := by
  obtain ⟨-, rfl⟩ := select_eq_ok.mp h
  refine ⟨fun name hname => ?_, ?_⟩
  · simpa [Table.names, Function.comp_def] using (List.mem_filter.mp hname).2
  · rw [marks, List.map_map]
    refine List.map_congr_left fun name hname => ?_
    simp [isDate, hname]

theorem markedAs_takeRows (hdates : table.dates ⊆ table.names) (positions : List Nat) :
    (table.takeRows positions).MarkedAs table.marks := by
  have hnames : (table.takeRows positions).names = table.names := by
    simp [Table.names, takeRows, Function.comp_def]
  refine ⟨?_, ?_⟩
  · rw [hnames]
    exact hdates
  · rw [marks_eq, hnames, marks_eq]
    rfl

/-! ## A column less, a column renamed -/

theorem edit_dropColumn_ok (h : table.edit (discard (Edit.dropColumn name)) = .ok result) :
    result = table.dropped name := by
  have hrun : discard (Edit.dropColumn name) = Edit.dropColumn name >>= fun _ => pure () := rfl
  rw [edit, hrun, Edit.run_bind, Edit.run_dropColumn] at h
  rcases hcells : table.cells name with _ | cells <;> rw [hcells] at h
  · cases h
  · exact (Except.ok.inj h).symm

/-- The marks but for that of the first column of a name. -/
theorem marks_eraseIdx : (match table.position? name with
      | some place => table.marks.eraseIdx place
      | none => table.marks) = (table.names.erase name).map table.isDate := by
  have hposition : table.names.findIdx? (· == name) = table.position? name := by
    rw [Table.names, List.findIdx?_map]
    exact congrArg (List.findIdx? · table.columns) (funext fun column => beq_eq_decide _ _)
  rw [List.erase_eq_eraseP', List.eraseP_eq_eraseIdx, hposition, marks_eq]
  cases table.position? name with
  | some place => exact List.eraseIdx_map ..
  | none => rfl

theorem mem_erase_iff_repeated : name ∈ table.names.erase name ↔ table.Repeated name := by
  rw [← List.count_pos_iff, List.count_erase_self, Repeated]
  omega

/-- The first column of the name goes, and the mark with it: another column of the name would lose
its mark. -/
theorem markedAs_dropped_iff (hdates : table.dates ⊆ table.names) :
    (table.dropped name).MarkedAs ((table.names.erase name).map table.isDate) ↔
      ¬ (table.isDate name = true ∧ table.Repeated name) := by
  have hkept (other : String) : (table.dropped name).isDate other = true ↔
      other ∈ table.dates ∧ other ≠ name := by
    simp [isDate_iff, dropped]
  have hsubset : (table.dropped name).dates ⊆ (table.dropped name).names := by
    intro other hother
    obtain ⟨hmem, hne⟩ := (hkept other).mp (isDate_iff.mpr hother)
    rw [names_dropped]
    exact (List.mem_erase_of_ne hne).mpr (hdates hmem)
  rw [MarkedAs, and_iff_right hsubset, marks_eq, names_dropped, List.map_inj_left]
  refine ⟨?_, fun h other hother => ?_⟩
  · rintro hmarks ⟨hdate, hrepeated⟩
    have hsame := hmarks name (mem_erase_iff_repeated.mpr hrepeated)
    exact ((hkept name).mp (hsame.trans hdate)).2 rfl
  · rw [Bool.eq_iff_iff, hkept, isDate_iff]
    refine and_iff_left_of_imp fun hmem heq => ?_
    subst heq
    exact h ⟨isDate_iff.mpr hmem, mem_erase_iff_repeated.mp hother⟩

/-- Under marks that agree but for the old name and the new one, renaming the first column of a name
keeps what the columns are marked as, unless there is another column of the old name. -/
theorem map_renameFirst_eq_iff {source target : String} {before after : String → Bool}
    {columns : List Column} (hnew : target ∉ columns.map (·.name))
    (htarget : after target = before source)
    (hothers : ∀ name, name ≠ source → name ≠ target → after name = before name) :
    (Edit.renameFirst source target columns).map (fun column => after column.name) =
        columns.map (fun column => before column.name) ↔
      (1 < (columns.map (·.name)).count source → after source = before source) := by
  induction columns with
  | nil => simp [Edit.renameFirst]
  | cons column rest ih =>
    obtain ⟨hne, hnew⟩ := not_or.mp (mt List.mem_cons.mpr hnew)
    by_cases hsource : column.name = source
    · rw [Edit.renameFirst, if_pos hsource, List.map_cons, List.map_cons, List.map_cons, htarget,
        hsource, List.cons_inj_right, List.count_cons_self, Nat.lt_add_left_iff_pos,
        List.count_pos_iff, List.map_inj_left]
      constructor
      · intro h hmem
        obtain ⟨other, hother, rfl⟩ := List.mem_map.mp hmem
        exact h other hother
      · intro h other hother
        have hmem := List.mem_map_of_mem (f := fun column : Column => column.name) hother
        by_cases hother' : other.name = source
        · rw [hother']
          exact h (hother' ▸ hmem)
        · exact hothers _ hother' fun heq => hnew (heq ▸ hmem)
    · rw [Edit.renameFirst, if_neg hsource, List.map_cons, List.map_cons, List.map_cons,
        hothers _ hsource (Ne.symm hne), List.cons_inj_right, List.count_cons_of_ne hsource]
      exact ih hnew

/-- The mark goes to the new name: another column of the old name would lose its mark. -/
theorem markedAs_renamed_iff {source target : String} (hdates : table.dates ⊆ table.names)
    (hne : source ≠ target) (htarget : table.has target = false)
    (hsource : table.has source = true) :
    (table.renamed source target).MarkedAs table.marks ↔
      ¬ (table.isDate source = true ∧ table.Repeated source) := by
  have hnew : target ∉ table.names := mt has_iff_mem_names.mpr (by simp [htarget])
  have hnames : (table.renamed source target).names.Perm (target :: table.names.erase source) :=
    Edit.perm_names_renameFirst target (has_iff_mem_names.mp hsource)
  have hkept (other : String) : (table.renamed source target).isDate other = true ↔
      if table.isDate source then other = target ∨ (table.isDate other = true ∧ other ≠ source)
      else table.isDate other = true := by
    by_cases hdate : table.isDate source <;>
      simp [isDate_iff, renamed, hdate, mem_insertName]
  have hunmarked : table.isDate target = false := by
    rw [Bool.eq_false_iff, ne_eq, isDate_iff]
    exact fun h => hnew (hdates h)
  have hsubset : (table.renamed source target).dates ⊆ (table.renamed source target).names := by
    intro other hother
    rw [hnames.mem_iff, List.mem_cons]
    by_cases heq : other = target
    · exact .inl heq
    · have hmem := (hkept other).mp (isDate_iff.mpr hother)
      by_cases hdate : table.isDate source
      · obtain ⟨hmem, hne⟩ := (if_pos hdate ▸ hmem).resolve_left heq
        exact .inr ((List.mem_erase_of_ne hne).mpr (hdates (isDate_iff.mp hmem)))
      · rw [if_neg hdate] at hmem
        have hother : other ≠ source := fun heq => hdate (heq ▸ hmem)
        exact .inr ((List.mem_erase_of_ne hother).mpr (hdates (isDate_iff.mp hmem)))
  have hmoved : (table.renamed source target).isDate target = table.isDate source := by
    rw [Bool.eq_iff_iff, hkept, hunmarked]
    by_cases hdate : table.isDate source <;> simp [hdate]
  have hothers : ∀ name, name ≠ source → name ≠ target →
      (table.renamed source target).isDate name = table.isDate name := by
    intro name hsource htarget
    rw [Bool.eq_iff_iff, hkept]
    by_cases hdate : table.isDate source <;> simp [hdate, hsource, htarget]
  rw [MarkedAs, and_iff_right hsubset]
  refine (map_renameFirst_eq_iff hnew hmoved hothers).trans ?_
  -- the mark of the old name is gone if there was one
  have hsame : (table.renamed source target).isDate source = table.isDate source ↔
      ¬ table.isDate source = true := by
    rw [Bool.eq_iff_iff, hkept]
    by_cases hdate : table.isDate source <;> simp [hdate, hne]
  rw [hsame, not_and', Repeated, Table.names]

/-! ## Columns beside columns -/

/-- A new column takes its mark with it. -/
theorem isDate_inserted {cells : List Value} {wider : Table} (hdates : table.dates ⊆ table.names)
    (hnew : table.has name = false) (h : table.edit (Edit.setColumn name cells) = .ok wider)
    (mark : Bool) (other : String) :
    (if mark then wider.markDate name else wider).isDate other =
      if other = name then mark else table.isDate other := by
  have hwider : wider.isDate other = table.isDate other := by rw [isDate, dates_of_setColumn h, isDate]
  have hunmarked : table.isDate name = false := by
    rw [Bool.eq_false_iff, ne_eq, isDate_iff]
    exact fun hmem => absurd (has_iff_mem_names.mpr (hdates hmem)) (by simp [hnew])
  cases mark with
  | false =>
    rw [if_neg Bool.false_ne_true, hwider]
    split
    · rename_i heq
      rw [heq, hunmarked]
    · rfl
  | true =>
    rw [if_pos rfl, Bool.eq_iff_iff, isDate_iff, mem_dates_markDate, ← isDate_iff, hwider]
    simp only [has_of_setColumn h, and_true]
    split <;> rename_i heq <;> simp [heq]

theorem names_inserted {cells : List Value} {wider : Table} (hnew : table.has name = false)
    (h : table.edit (Edit.setColumn name cells) = .ok wider) (mark : Bool) :
    (if mark then wider.markDate name else wider).names = table.names ++ [name] := by
  have hwider : wider.names = table.names ++ [name] := by
    obtain ⟨-, rfl⟩ := edit_setColumn_ok.mp h
    rw [has] at hnew
    rw [Table.names, Edit.names_putCells, hnew]
    rfl
  cases mark with
  | false => exact hwider
  | true => rw [if_pos rfl, Table.names, columns_markDate, ← Table.names, hwider]

/-- The columns of a table are added with their marks, and those there were keep theirs. -/
theorem addColumns_ok {rows : Nat} {source : Table} {columns : List Column}
    (hdates : table.dates ⊆ table.names)
    (h : addColumns rows source columns table = .ok result) :
    result.dates ⊆ result.names ∧ result.names = table.names ++ columns.map (·.name) ∧
      (∀ name ∈ table.names, result.isDate name = table.isDate name) ∧
      ∀ column ∈ columns, result.isDate column.name = source.isDate column.name := by
  induction columns generalizing table with
  | nil =>
    obtain rfl := Except.ok.inj h
    exact ⟨hdates, (List.append_nil _).symm, fun _ _ => rfl, nofun⟩
  | cons column rest ih =>
    rw [addColumns] at h
    split at h
    · exact (throw_ne_ok h).elim
    · rename_i hnew
      obtain ⟨wider, hwider, h⟩ := bind_eq_ok.mp h
      have hnew : table.has column.name = false := by simpa using hnew
      have hmarks := isDate_inserted hdates hnew hwider (source.isDate column.name)
      have hnames := names_inserted hnew hwider (source.isDate column.name)
      generalize (if source.isDate column.name then wider.markDate column.name else wider) =
        next at h hmarks hnames
      have hnext : next.dates ⊆ next.names := by
        intro name hname
        have hmark := isDate_iff.mpr hname
        rw [hmarks] at hmark
        rw [hnames, List.mem_append, List.mem_singleton]
        by_cases heq : name = column.name
        · exact .inr heq
        · rw [if_neg heq] at hmark
          exact .inl (hdates (isDate_iff.mp hmark))
      obtain ⟨hresult, hall, hbefore, hrest⟩ := ih hnext h
      refine ⟨hresult, by simp [hall, hnames], fun name hname => ?_, ?_⟩
      · have hne : name ≠ column.name := fun heq =>
          absurd (has_iff_mem_names.mpr (heq ▸ hname)) (by simp [hnew])
        rw [hbefore name (by simp [hnames, hname]), hmarks, if_neg hne]
      · refine List.forall_mem_cons.mpr ⟨?_, hrest⟩
        rw [hbefore column.name (by simp [hnames]), hmarks, if_pos rfl]

theorem markedAs_concatenate (h : table.concatenate other = .ok result) :
    result.MarkedAs (table.marks ++ other.marks) := by
  obtain ⟨combined, hcombined, h⟩ := bind_eq_ok.mp h
  obtain ⟨hdates, hnames, -, hfirst⟩ := addColumns_ok (List.nil_subset _) hcombined
  obtain ⟨hresult, hall, hbefore, hsecond⟩ := addColumns_ok hdates h
  refine ⟨hresult, ?_⟩
  have hleft : combined.names = table.names := by rw [hnames]; rfl
  rw [marks_eq, hall, List.map_append, hleft, marks, marks, Table.names, List.map_map, List.map_map]
  refine congrArg₂ (· ++ ·) (List.map_congr_left fun column hmem => ?_)
    (List.map_congr_left fun column hmem => hsecond column hmem)
  rw [← hfirst column hmem]
  exact hbefore _ (hleft ▸ List.mem_map_of_mem hmem)

/-! ## Rows below rows -/

theorem mem_foldl_add {seen : List String} :
    name ∈ names.foldl (fun seen name => if seen.contains name then seen else seen ++ [name]) seen ↔
      name ∈ seen ∨ name ∈ names := by
  induction names generalizing seen with
  | nil => simp
  | cons first rest ih =>
    rw [List.foldl_cons, ih]
    split <;> rename_i hfirst
    · have hmem : first ∈ seen := List.contains_iff_mem.mp hfirst
      grind
    · simp [or_assoc]

theorem mem_names_rows : (∃ row ∈ table.rows, name ∈ row.names) ↔
    table.length ≠ 0 ∧ name ∈ table.names := by
  have hrow (position : Nat) : name ∈ (table.row position).names ↔ name ∈ table.names := by
    rw [row, Fields.ofPairs, Fields.mem_names_extend]
    simp [Fields.names, Table.names]
  simp only [rows, List.mem_map, List.mem_range, exists_exists_and_eq_and, hrow, exists_and_right]
  apply and_congr_left
  intro _
  constructor
  · rintro ⟨position, h⟩
    exact Nat.ne_zero_of_lt h
  · intro h
    exact ⟨0, Nat.pos_of_ne_zero h⟩

theorem names_union : (table.union other).names =
    if (table.rows ++ other.rows).isEmpty then
      other.names.foldl (fun seen name => if seen.contains name then seen else seen ++ [name])
        table.names
    else distinctNames ((table.rows ++ other.rows).flatMap Fields.names) := by
  rw [union]
  split <;> simp [Table.names, ofRows, Function.comp_def]

/-- The names that come out are those of the tables that have rows. -/
theorem mem_names_union : name ∈ (table.union other).names ↔ name ∈ shownNames table other := by
  have hempty : (table.rows ++ other.rows).isEmpty = true ↔ table.length = 0 ∧ other.length = 0 := by
    rw [List.isEmpty_iff_length_eq_zero, List.length_append, length_rows, length_rows]
    omega
  have hunited : name ∈ unitedNames table other ↔ name ∈ table.names ∨ name ∈ other.names := by
    rw [unitedNames, List.mem_append, mem_unseen]
    tauto
  rw [shownNames, names_union]
  by_cases hrows : table.length = 0 ∧ other.length = 0
  · rw [if_pos (hempty.mpr hrows), mem_foldl_add]
    simp [hrows, hunited]
  · have hcome : name ∈ distinctNames ((table.rows ++ other.rows).flatMap Fields.names) ↔
        (table.length ≠ 0 ∧ name ∈ table.names) ∨ (other.length ≠ 0 ∧ name ∈ other.names) := by
      rw [← mem_names_rows, ← mem_names_rows, distinctNames, mem_foldl_add, List.mem_flatMap]
      simp [or_and_right, exists_or]
    rw [if_neg (mt hempty.mp hrows), hcome]
    by_cases hleft : table.length = 0 <;> by_cases hright : other.length = 0 <;>
      simp_all

/-- A mark is left behind exactly if no row shows its column. -/
theorem markedAs_union_iff (hdates : table.dates ⊆ table.names)
    (hother : other.dates ⊆ other.names) :
    (table.union other).MarkedAs
        ((table.union other).names.map fun name => table.isDate name || other.isDate name) ↔
      KeepsMarks table other := by
  have hunion : (table.union other).dates = uniteNames table.dates other.dates := rfl
  have hmarks : (table.union other).marks =
      (table.union other).names.map fun name => table.isDate name || other.isDate name := by
    rw [marks_eq]
    refine List.map_congr_left fun name _ => ?_
    rw [Bool.eq_iff_iff, Bool.or_eq_true, isDate_iff, isDate_iff, isDate_iff, hunion,
      mem_uniteNames]
  rw [MarkedAs, and_iff_left hmarks, ← dates_subset_shownNames_iff hdates hother, hunion]
  simp only [List.subset_def, mem_names_union]

/-! ## Rows that agree -/

variable {on : List (String × String)}

/-- whether a place is that of the first column of a name that is paired with itself -/
def isKeyPlace (table : Table) (on : List (String × String)) (place : Nat) : Bool :=
  on.any fun pair => pair.1 = pair.2 ∧ table.position? pair.1 = some place

/-- the right columns that a join shows: all but the keys that are shown on the left -/
def keptColumns (other : Table) (on : List (String × String)) : List Column :=
  (other.columns.zipIdx.filter fun (_, place) => !other.isKeyPlace on place).map (·.1)

/-- the names of the right columns that a join shows -/
def keptNames (other : Table) (on : List (String × String)) : List String :=
  (other.keptColumns on).map (·.name)

/-- for every column of a join, whether a column that it was built from was marked: a key that has
one name on both sides is built from the columns of both -/
def joinedMarks (table other : Table) (on : List (String × String)) : List Bool :=
  (table.columns.zipIdx.map fun (column, place) =>
    table.isDate column.name || (table.isKeyPlace on place && other.isDate column.name)) ++
  (other.keptNames on).map other.isDate

/-- whether a name is marked in one of two tables -/
def MarkedIn (table other : Table) (name : String) : Prop :=
  name ∈ table.dates ∨ name ∈ other.dates

/-- whether a join has a mark that does not fit its columns: that of a name which both sides have
beside the keys, or of such a name with an ending; or that of a key that only the right side marks,
if the left side has several columns of the name -/
def MisfitsInJoin (table other : Table) (on : List (String × String)) : Prop :=
  (∃ name ∈ table.names, name ∈ other.keptNames on ∧
    ∃ ending ∈ ["", "_x", "_y"], MarkedIn table other (name ++ ending)) ∨
  ∃ name ∈ other.dates, name ∉ table.dates ∧ table.Repeated name

theorem isKeyPlace_iff : table.isKeyPlace on place = true ↔
    ∃ name, (name, name) ∈ on ∧ table.position? name = some place := by
  rw [isKeyPlace, List.any_eq_true]
  constructor
  · rintro ⟨⟨left, right⟩, hmem, hplace⟩
    obtain ⟨heq, hplace⟩ := of_decide_eq_true hplace
    exact ⟨left, (show left = right from heq) ▸ hmem, hplace⟩
  · rintro ⟨name, hmem, hplace⟩
    exact ⟨(name, name), hmem, decide_eq_true ⟨rfl, hplace⟩⟩

theorem shownColumns_eq (h : Joinable table other leftOn rightOn) :
    shownColumns table other leftOn rightOn = other.keptColumns (leftOn.zip rightOn) := by
  have hshared (place : Nat) : (table.sharedKeys other leftOn rightOn).any (·.2 = place) =
      other.isKeyPlace (leftOn.zip rightOn) place := by
    rw [Bool.eq_iff_iff, isKeyPlace_iff, List.any_eq_true]
    constructor
    · rintro ⟨⟨first, second⟩, hmem, hsecond⟩
      obtain ⟨name, hon, -, hplace⟩ := mem_sharedKeys.mp hmem
      exact ⟨name, hon, of_decide_eq_true hsecond ▸ hplace⟩
    · rintro ⟨name, hon, hplace⟩
      obtain ⟨first, hfirst⟩ := exists_position? (h.left _ (List.of_mem_zip hon).1)
      exact ⟨(first, place), mem_sharedKeys.mpr ⟨name, hon, hfirst, hplace⟩, by simp⟩
  rw [shownColumns, keptColumns, ← List.filterMap_eq_map, List.filterMap_filter]
  apply List.filterMap_congr
  rintro ⟨column, place⟩ -
  simp only [hshared, Function.comp_apply]
  by_cases hkey : other.isKeyPlace (leftOn.zip rightOn) place <;> simp [hkey]

theorem name_of_position? (h : table.position? name = some place)
    (hcolumn : table.columns[place]? = some column) : column.name = name := by
  obtain ⟨hlt, hthere, -⟩ := List.findIdx?_eq_some_iff_getElem.mp h
  obtain rfl : table.columns[place] = column :=
    Option.some.inj ((List.getElem?_eq_getElem hlt).symm.trans hcolumn)
  exact of_decide_eq_true hthere

/-- A name of several columns stands at another place than that of the first. -/
theorem repeated_iff : table.Repeated name ↔ ∃ place column, table.columns[place]? = some column ∧
    column.name = name ∧ table.position? name ≠ some place := by
  rw [Repeated, ← Nat.succ_le_iff, ← List.duplicate_iff_two_le_count,
    List.duplicate_iff_exists_distinct_get]
  constructor
  · rintro ⟨⟨first, hfirst⟩, ⟨later, hlater⟩, hlt, hname, hname'⟩
    have hlater' : later < table.columns.length := by simpa [Table.names] using hlater
    refine ⟨later, table.columns[later], List.getElem?_eq_getElem hlater',
      by simpa [Table.names] using hname'.symm, fun hposition => ?_⟩
    obtain ⟨_, _, hbefore⟩ := List.findIdx?_eq_some_iff_getElem.mp hposition
    exact hbefore first hlt (by simpa [Table.names] using hname.symm)
  · rintro ⟨later, column, hcolumn, rfl, hplace⟩
    obtain ⟨hlater, rfl⟩ := List.getElem?_eq_some_iff.mp hcolumn
    obtain ⟨first, hfirst⟩ := exists_position? (has_iff_mem_names.mpr
      (List.mem_map_of_mem (f := Column.name) (List.getElem_mem hlater)))
    obtain ⟨hlt, hthere, hbefore⟩ := List.findIdx?_eq_some_iff_getElem.mp hfirst
    have hne : first ≠ later := fun heq => hplace (heq ▸ hfirst)
    have hle : ¬ later < first := fun hlt => by simpa using hbefore later hlt
    refine ⟨⟨first, by simpa [Table.names] using hlt⟩, ⟨later, by simpa [Table.names] using hlater⟩,
      ?_, ?_, ?_⟩
    · exact Nat.lt_of_le_of_ne (Nat.le_of_not_lt hle) hne
    · simpa [Table.names] using (of_decide_eq_true hthere).symm
    · simp [Table.names]

/-- A right column that is not shown is a key that is shown on the left. -/
theorem mem_on_of_not_kept (hname : name ∈ other.names)
    (h : name ∉ other.keptNames on) : (name, name) ∈ on := by
  obtain ⟨column, hcolumn, rfl⟩ := List.mem_map.mp hname
  obtain ⟨place, hplace⟩ := List.mem_iff_getElem?.mp hcolumn
  by_contra hon
  refine h (List.mem_map.mpr ⟨column, List.mem_map.mpr ⟨(column, place), ?_, rfl⟩, rfl⟩)
  refine List.mem_filter.mpr ⟨List.mem_zipIdx_iff_getElem?.mpr hplace, ?_⟩
  rw [Bool.not_eq_true', Bool.eq_false_iff, ne_eq, isKeyPlace_iff]
  rintro ⟨name, hmem, hfirst⟩
  exact hon (name_of_position? hfirst hplace ▸ hmem)

/-- what it means that the marks of a join fit its columns -/
structure FitInJoin (table other : Table) (on : List (String × String)) : Prop where
  known : ∀ name, MarkedIn table other name →
    name ∈ sideBySide table.names (other.keptNames on)
  left : ∀ place column, table.columns[place]? = some column →
    (MarkedIn table other (ended "_x" (other.keptNames on) column.name) ↔
      column.name ∈ table.dates ∨ (table.isKeyPlace on place = true ∧ column.name ∈ other.dates))
  right : ∀ name ∈ other.keptNames on,
    (MarkedIn table other (ended "_y" table.names name) ↔ name ∈ other.dates)

theorem markedAs_join_iff_fit (h : table.join other leftOn rightOn kind = .ok result) :
    result.MarkedAs (joinedMarks table other (leftOn.zip rightOn)) ↔
      FitInJoin table other (leftOn.zip rightOn) := by
  obtain ⟨hnames, hdates⟩ := names_join h
  rw [shownColumns_eq (exists_join.mp ⟨result, h⟩), ← keptNames] at hnames
  generalize leftOn.zip rightOn = on at hnames
  have hmarked (name : String) : result.isDate name = true ↔ MarkedIn table other name := by
    rw [isDate_iff, hdates, mem_uniteNames, MarkedIn]
  have hknown : result.dates ⊆ result.names ↔ ∀ name, MarkedIn table other name →
      name ∈ sideBySide table.names (other.keptNames on) := by
    rw [hnames]
    exact forall_congr' fun name => by rw [← isDate_iff, hmarked]
  have hleft : (table.names.map (result.isDate ∘ ended "_x" (other.keptNames on))) =
      (table.columns.zipIdx.map fun (column, place) =>
        table.isDate column.name || (table.isKeyPlace on place && other.isDate column.name)) ↔
      ∀ place column, table.columns[place]? = some column →
        (MarkedIn table other (ended "_x" (other.keptNames on) column.name) ↔
          column.name ∈ table.dates ∨
            (table.isKeyPlace on place = true ∧ column.name ∈ other.dates)) := by
    rw [Table.names, List.map_map, eq_comm, map_zipIdx_eq_map_iff]
    refine forall₃_congr fun place column _ => ?_
    rw [eq_comm, Bool.eq_iff_iff, Function.comp_apply, Function.comp_apply, hmarked,
      Bool.or_eq_true, Bool.and_eq_true, isDate_iff, isDate_iff]
  have hright : (other.keptNames on).map (result.isDate ∘ ended "_y" table.names) =
        (other.keptNames on).map other.isDate ↔
      ∀ name ∈ other.keptNames on,
        (MarkedIn table other (ended "_y" table.names name) ↔ name ∈ other.dates) := by
    rw [List.map_inj_left]
    refine forall₂_congr fun name _ => ?_
    rw [Bool.eq_iff_iff, Function.comp_apply, hmarked, isDate_iff]
  rw [MarkedAs, hknown, marks_eq, hnames, sideBySide, joinedMarks, List.map_append, List.map_map,
    List.map_map]
  constructor
  · rintro ⟨hknown, heq⟩
    obtain ⟨hsame, hsame'⟩ := List.append_inj heq (by simp [Table.names])
    exact ⟨hknown, hleft.mp hsame, hright.mp hsame'⟩
  · intro h
    exact ⟨h.known, congrArg₂ (· ++ ·) (hleft.mpr h.left) (hright.mpr h.right)⟩

namespace FitInJoin

theorem marked_of_x (h : FitInJoin table other on) (hname : name ∈ table.names)
    (hkept : name ∈ other.keptNames on) (hmarked : MarkedIn table other (name ++ "_x")) :
    MarkedIn table other name := by
  obtain ⟨column, hcolumn, rfl⟩ := List.mem_map.mp hname
  obtain ⟨place, hplace⟩ := List.mem_iff_getElem?.mp hcolumn
  have hleft := h.left place column hplace
  rw [ended, if_pos hkept] at hleft
  exact (hleft.mp hmarked).imp_right And.right

theorem marked_of_y (h : FitInJoin table other on) (hname : name ∈ table.names)
    (hkept : name ∈ other.keptNames on) (hmarked : MarkedIn table other (name ++ "_y")) :
    MarkedIn table other name := by
  have hright := h.right name hkept
  rw [ended, if_pos hname] at hright
  exact .inr (hright.mp hmarked)

/-- No name on both sides beside the keys is marked: its mark could only be that of a column which
gets the name by an ending, so a shorter name on both sides would be marked. -/
theorem not_markedIn (h : FitInJoin table other on) (hname : name ∈ table.names)
    (hkept : name ∈ other.keptNames on) : ¬ MarkedIn table other name := by
  induction hlength : name.length using Nat.strongRecOn generalizing name with
  | ind length ih =>
    intro hmarked
    have hshorter {short ending : String} (heq : short ++ ending = name)
        (hpos : 0 < ending.length) : short.length < length := by
      rw [← hlength, ← heq, String.length_append]
      exact Nat.lt_add_of_pos_right hpos
    rcases List.mem_append.mp (h.known name hmarked) with hside | hside
    · obtain ⟨short, hshort, heq⟩ := List.mem_map.mp hside
      by_cases hboth : short ∈ other.keptNames on
      · rw [ended, if_pos hboth] at heq
        exact ih short.length (hshorter heq (by decide)) hshort hboth rfl
          (h.marked_of_x hshort hboth (heq ▸ hmarked))
      · rw [ended, if_neg hboth] at heq
        exact hboth (heq ▸ hkept)
    · obtain ⟨short, hshort, heq⟩ := List.mem_map.mp hside
      by_cases hboth : short ∈ table.names
      · rw [ended, if_pos hboth] at heq
        exact ih short.length (hshorter heq (by decide)) hboth hshort rfl
          (h.marked_of_y hboth hshort (heq ▸ hmarked))
      · rw [ended, if_neg hboth] at heq
        exact hboth (heq ▸ hname)

/-- A key that only the right side marks stands at one place of the left side. -/
theorem not_repeated (h : FitInJoin table other on) (hname : name ∈ other.dates)
    (hunmarked : name ∉ table.dates) : ¬ table.Repeated name := by
  intro hrepeated
  have hmem : name ∈ table.names := List.count_pos_iff.mp (Nat.zero_lt_of_lt hrepeated)
  have hkept : name ∉ other.keptNames on := fun hkept => h.not_markedIn hmem hkept (.inr hname)
  obtain ⟨place, column, hplace, rfl, hlater⟩ := repeated_iff.mp hrepeated
  have hleft := h.left place column hplace
  rw [ended, if_neg hkept] at hleft
  rcases hleft.mp (.inr hname) with hdate | ⟨hkey, -⟩
  · exact hunmarked hdate
  · obtain ⟨name, -, hfirst⟩ := isKeyPlace_iff.mp hkey
    rw [name_of_position? hfirst hplace] at hlater
    exact hlater hfirst

end FitInJoin

/-- The marks fit if no name that both sides have beside the keys is marked. -/
theorem fitInJoin_of_not_misfits (hdates : table.dates ⊆ table.names)
    (hother : other.dates ⊆ other.names) (hon : ∀ name, (name, name) ∈ on → name ∈ table.names)
    (h : ¬ MisfitsInJoin table other on) : FitInJoin table other on := by
  obtain ⟨hcommon, hkeys⟩ := not_or.mp h
  have hfree (name : String) (hname : name ∈ table.names) (hkept : name ∈ other.keptNames on)
      (ending : String) (hending : ending ∈ ["", "_x", "_y"]) :
      ¬ MarkedIn table other (name ++ ending) :=
    fun hmarked => hcommon ⟨name, hname, hkept, ending, hending, hmarked⟩
  have hself (name : String) (hname : name ∈ table.names) (hkept : name ∈ other.keptNames on) :
      ¬ MarkedIn table other name := by
    simpa using hfree name hname hkept "" (by simp)
  refine ⟨fun name hmarked => ?_, fun place column hplace => ?_, fun name hkept => ?_⟩
  · rw [sideBySide, List.mem_append, List.mem_map, List.mem_map]
    by_cases hkept : name ∈ other.keptNames on
    · have hname : name ∉ table.names := fun hname => hself name hname hkept hmarked
      exact .inr ⟨name, hkept, if_neg hname⟩
    · refine .inl ⟨name, hmarked.elim (hdates ·) fun hmem => ?_, if_neg hkept⟩
      exact hon name (mem_on_of_not_kept (hother hmem) hkept)
  · have hname : column.name ∈ table.names :=
      List.mem_map_of_mem (List.mem_of_getElem? hplace)
    by_cases hkept : column.name ∈ other.keptNames on
    · rw [ended, if_pos hkept]
      refine iff_of_false (hfree _ hname hkept "_x" (by simp)) fun hmarked => ?_
      exact hself _ hname hkept (hmarked.imp_right And.right)
    · rw [ended, if_neg hkept, MarkedIn]
      refine or_congr_right' fun hunmarked => (and_iff_right_of_imp fun hmem => ?_).symm
      refine isKeyPlace_iff.mpr ⟨_, mem_on_of_not_kept (hother hmem) hkept, ?_⟩
      by_contra hlater
      exact hkeys ⟨_, hmem, hunmarked, repeated_iff.mpr ⟨place, column, hplace, rfl, hlater⟩⟩
  · by_cases hname : name ∈ table.names
    · rw [ended, if_pos hname]
      exact iff_of_false (hfree _ hname hkept "_y" (by simp)) fun hmem =>
        hself _ hname hkept (.inr hmem)
    · rw [ended, if_neg hname]
      exact or_iff_right fun hmem => hname (hdates hmem)

/-- The marks of a join fit its columns but for the names that both tables have beside the keys. -/
theorem markedAs_join_iff (hdates : table.dates ⊆ table.names) (hother : other.dates ⊆ other.names)
    (h : table.join other leftOn rightOn kind = .ok result) :
    result.MarkedAs (joinedMarks table other (leftOn.zip rightOn)) ↔
      ¬ MisfitsInJoin table other (leftOn.zip rightOn) := by
  have hjoinable := exists_join.mp ⟨result, h⟩
  refine (markedAs_join_iff_fit h).trans ⟨fun hfit => ?_, fitInJoin_of_not_misfits hdates hother ?_⟩
  · rintro (⟨name, hname, hkept, ending, hending, hmarked⟩ | ⟨name, hmem, hunmarked, hrepeated⟩)
    · refine hfit.not_markedIn hname hkept ?_
      simp only [List.mem_cons, List.not_mem_nil, or_false] at hending
      rcases hending with rfl | rfl | rfl
      · simpa using hmarked
      · exact hfit.marked_of_x hname hkept hmarked
      · exact hfit.marked_of_y hname hkept hmarked
    · exact hfit.not_repeated hmem hunmarked hrepeated
  · exact fun name hon => has_iff_mem_names.mp (hjoinable.left _ (List.of_mem_zip hon).1)

instance : Decidable (table.Repeated name) := inferInstanceAs (Decidable (_ < _))

instance : Decidable (MarkedIn table other name) := inferInstanceAs (Decidable (_ ∨ _))

instance : Decidable (MisfitsInJoin table other on) := inferInstanceAs (Decidable (_ ∨ _))

end Table

/-! ## Tables made of tables -/

/-- a way to make a table of another one, or of two -/
inductive Derivation where
  /-- renames a column -/
  | renameColumn (source target : String)
  /-- removes a column -/
  | dropColumn (name : String)
  /-- shows some columns -/
  | select (names : List String)
  /-- shows the rows at some positions -/
  | takeRows (positions : List Nat)
  /-- puts the columns of both tables beside one another -/
  | concatenate
  /-- puts the rows of both tables below one another -/
  | union
  /-- puts the rows of both tables that agree on key columns beside one another -/
  | join (leftOn rightOn : List String) (kind : JoinKind)

namespace Derivation

variable {table other result : Table}

/-- the table that is made -/
def apply (table other : Table) : Derivation → Except Error Table
  | renameColumn source target => table.edit (Edit.renameColumn source target)
  | dropColumn name => table.edit (discard (Edit.dropColumn name))
  | select names => table.select names
  | takeRows positions => .ok (table.takeRows positions)
  | concatenate => table.concatenate other
  | union => .ok (table.union other)
  | join leftOn rightOn kind => table.join other leftOn rightOn kind

/-- for every column of the table that is made, whether a column that it was built from was marked -/
def sourceMarks (table other result : Table) : Derivation → List Bool
  | renameColumn _ _ => table.marks
  | dropColumn name =>
    match table.position? name with
    | some place => table.marks.eraseIdx place
    | none => table.marks
  | select names => names.map table.isDate
  | takeRows _ => table.marks
  | concatenate => table.marks ++ other.marks
  | union => result.names.map fun name => table.isDate name || other.isDate name
  | join leftOn rightOn _ => table.joinedMarks other (leftOn.zip rightOn)

/-- whether a mark comes to stand for another column, or for none -/
def MovesMarks (table other : Table) : Derivation → Prop
  | renameColumn source target =>
    source ≠ target ∧ table.isDate source = true ∧ table.Repeated source
  | dropColumn name => table.isDate name = true ∧ table.Repeated name
  | union => ¬ table.KeepsMarks other
  | join leftOn rightOn _ => table.MisfitsInJoin other (leftOn.zip rightOn)
  | _ => False

instance (derivation : Derivation) : Decidable (derivation.MovesMarks table other) :=
  match derivation with
  | renameColumn _ _ => inferInstanceAs (Decidable (_ ∧ _ ∧ _))
  | dropColumn _ => inferInstanceAs (Decidable (_ ∧ _))
  | select _ | takeRows _ | concatenate => inferInstanceAs (Decidable False)
  | union => inferInstanceAs (Decidable (¬ table.KeepsMarks other))
  | join leftOn rightOn _ =>
    inferInstanceAs (Decidable (table.MisfitsInJoin other (leftOn.zip rightOn)))

/-- **Date marks travel with columns.** If the marks of the tables are names of their columns, then
so are those of a table made of them, and a column of it is marked exactly if one that it was built
from was: but for a union with a table without rows that marks columns which the other lacks, a join
that marks a name which both tables have beside the keys, or such a name with an ending, and names
that several columns have. -/
theorem marks_travel_iff (derivation : Derivation) (hdates : table.dates ⊆ table.names)
    (hother : other.dates ⊆ other.names) (h : derivation.apply table other = .ok result) :
    result.MarkedAs (derivation.sourceMarks table other result) ↔
      ¬ derivation.MovesMarks table other := by
  cases derivation with
  | renameColumn source target =>
    rw [apply, Table.edit] at h
    by_cases hsame : source = target
    · rw [Edit.run_renameColumn_self hsame] at h
      obtain rfl := Except.ok.inj h
      exact iff_of_true ⟨hdates, rfl⟩ fun hmoves => hmoves.1 hsame
    · by_cases htarget : table.has target
      · rw [Edit.run_renameColumn_taken hsame htarget] at h
        cases h
      · by_cases hsource : table.has source
        · rw [Edit.run_renameColumn hsame (by simpa using htarget) hsource] at h
          obtain rfl := Except.ok.inj h
          rw [MovesMarks, and_iff_right hsame]
          exact Table.markedAs_renamed_iff hdates hsame (by simpa using htarget) hsource
        · rw [Edit.run_renameColumn_missing hsame (by simpa using htarget)
            (by simpa using hsource)] at h
          cases h
  | dropColumn name =>
    obtain rfl := Table.edit_dropColumn_ok h
    rw [sourceMarks, Table.marks_eraseIdx]
    exact Table.markedAs_dropped_iff hdates
  | select names => exact iff_of_true (Table.markedAs_select h) id
  | takeRows positions =>
    obtain rfl := Except.ok.inj h
    exact iff_of_true (Table.markedAs_takeRows hdates positions) id
  | concatenate => exact iff_of_true (Table.markedAs_concatenate h) id
  | union =>
    obtain rfl := Except.ok.inj h
    rw [MovesMarks, not_not]
    exact Table.markedAs_union_iff hdates hother
  | join leftOn rightOn kind => exact Table.markedAs_join_iff hdates hother h

/-- tasks with the days they are due -/
def tasks : Table where
  columns := [⟨"id", [.ofInt 1, .ofInt 2]⟩, ⟨"due", [.string "2024-05-01", .string "2024-05-02"]⟩]
  index := [0, 1]
  dates := ["due"]

/-- tasks with the days they were done, by the days they were due -/
def reports : Table where
  columns := [⟨"due", [.string "2024-05-02"]⟩, ⟨"id", [.ofInt 2]⟩, ⟨"done", [.string "2024-05-03"]⟩]
  index := [0]
  dates := ["done"]

theorem marks_travel_iff_reports :
    tasks.dates ⊆ tasks.names ∧ reports.dates ⊆ reports.names ∧
      ∃ result, (join ["id", "due"] ["id", "due"] .outer).apply tasks reports = .ok result ∧
        result.names = ["id", "due", "done"] ∧ result.MarkedAs [false, true, true] := by
  have hdates : tasks.dates ⊆ tasks.names := by decide
  have hother : reports.dates ⊆ reports.names := by decide
  obtain ⟨result, hresult⟩ :
      ∃ result, tasks.join reports ["id", "due"] ["id", "due"] .outer = .ok result :=
    Table.exists_join.mpr ⟨by simp, rfl, by decide, by decide⟩
  refine ⟨hdates, hother, result, hresult, ?_, ?_⟩
  · rw [(Table.names_join hresult).1]
    decide +kernel
  · have hmoves : ¬ (join ["id", "due"] ["id", "due"] .outer).MovesMarks tasks reports := by
      decide +kernel
    exact (marks_travel_iff (join ["id", "due"] ["id", "due"] .outer) hdates hother hresult).mpr
      hmoves

/-- The marked column gets an ending, and its mark is left without a column. -/
theorem mark_left_in_join :
    tasks.dates ⊆ tasks.names ∧ reports.dates ⊆ reports.names ∧
      ((join ["id"] ["id"] .inner).apply tasks reports).map
          (fun result => (result.names, result.dates)) =
        .ok (["id", "due_x", "due_y", "done"], ["done", "due"]) ∧
      tasks.joinedMarks reports [("id", "id")] = [false, true, false, true] ∧
      "due" ∉ ["id", "due_x", "due_y", "done"] := by
  decide +kernel

end Derivation

end TableRecipe
