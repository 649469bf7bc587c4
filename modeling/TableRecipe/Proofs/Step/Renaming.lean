import TableRecipe.Proofs.Step.Pairs
import TableRecipe.Proofs.Table.Marks

/-!
# Renaming several columns

The new names of a step are found in the table that it was given, and then given to the columns one
after the other. A column cannot take a name that another one still has, even if that one is to
give it up later on. So the order of the new names decides whether the columns can be renamed; what
comes of it is the same in every order, namely what renaming all columns at once comes to.

* `Renames.newName`, `Table.RenamedAtOnce` — all columns renamed at once;
* `Renames.GivenUpFirst` — names that are given up before another column takes them;
* `Table.renameColumns_outcome` — when columns can be renamed one after the other, and what it
  comes to;
* `Step.rename_outcome` — the same for the step.
-/

namespace TableRecipe

/-- columns with their new names -/
abbrev Renames := List (String × String)

variable {context : Context} {world : World} {table middle result : Table}
  {source target name : String} {renames rest others names : Renames}
  {input output columns found : List String}

namespace Renames

/-- the name that a column has once all columns are renamed -/
def newName (renames : Renames) (name : String) : String := (renames.lookup name).getD name

/-- whether every name that a column takes from another one was given up before -/
def GivenUpFirst (renames : Renames) : Prop :=
  renames.Pairwise fun earlier later => earlier.2 ≠ later.1

instance (renames : Renames) : Decidable renames.GivenUpFirst :=
  inferInstanceAs (Decidable (renames.Pairwise _))

/-- whether columns get new names, and each of them only one -/
structure OfColumns (columns : List String) (renames : Renames) : Prop where
  nodup : (renames.map (·.1)).Nodup
  subset : renames.map (·.1) ⊆ columns

theorem ofColumns_cons : OfColumns columns ((source, target) :: rest) ↔
    source ∈ columns ∧ source ∉ rest.map (·.1) ∧ OfColumns columns rest := by
  constructor
  · rintro ⟨hnodup, hsubset⟩
    rw [List.map_cons, List.nodup_cons] at hnodup
    rw [List.map_cons, List.cons_subset] at hsubset
    exact ⟨hsubset.1, hnodup.1, hnodup.2, hsubset.2⟩
  · rintro ⟨hsource, hnew, hnodup, hsubset⟩
    exact ⟨List.nodup_cons.mpr ⟨hnew, hnodup⟩, List.cons_subset.mpr ⟨hsource, hsubset⟩⟩

/-! ## Names found in a table -/

theorem newName_cons : newName ((source, target) :: rest) name =
    if name = source then target else newName rest name := by
  by_cases h : name = source
  · simp [newName, h]
  · simp [newName, List.lookup_cons, beq_eq_false_iff_ne.mpr h, h]

theorem newName_of_not_mem (h : name ∉ renames.map (·.1)) : newName renames name = name := by
  induction renames with
  | nil => rfl
  | cons pair rest ih =>
    obtain ⟨hpair, hrest⟩ := List.ne_and_not_mem_of_not_mem_cons h
    rw [newName_cons, if_neg hpair, ih hrest]

/-- A new name that no later pair renames again is as good as the name it stands for. -/
theorem newName_first (h : target ∉ rest.map (·.1)) (name : String) :
    newName rest (newName [(source, target)] name) = newName ((source, target) :: rest) name := by
  rw [newName_cons, newName_cons]
  split
  · exact newName_of_not_mem h
  · rfl

/-- The order of the pairs does not matter for the names. -/
theorem newName_perm (hperm : renames.Perm others) (hdistinct : (renames.map (·.1)).Nodup) :
    newName renames = newName others := by
  funext name
  induction hperm with
  | nil => rfl
  | cons pair _ ih =>
    rw [newName_cons, newName_cons, ih (List.nodup_cons.mp hdistinct).2]
  | swap first second rest =>
    rw [newName_cons, newName_cons, newName_cons, newName_cons]
    have hne : second.1 ≠ first.1 := by simpa using (List.pairwise_cons.mp hdistinct).1 first.1
    grind
  | trans hfirst _ ihfirst ihsecond =>
    exact (ihfirst hdistinct).trans (ihsecond ((hfirst.map _).nodup_iff.mp hdistinct))

end Renames

open Renames

namespace Selector

theorem mem_addOnce {column : String} : name ∈ addOnce found column ↔ name = column ∨ name ∈ found := by
  rw [addOnce]
  split
  · rename_i hcolumn
    refine ⟨.inr, ?_⟩
    rintro (rfl | h)
    · exact List.contains_iff_mem.mp hcolumn
    · exact h
  · rw [List.mem_append, List.mem_singleton, or_comm]

/-- Selectors find columns. -/
theorem subset_of_select {selector : Selector} (h : selector.select columns = .ok found) :
    found ⊆ columns := by
  obtain ⟨body, negated, optional, kind⟩ := selector
  cases kind with
  | name =>
    obtain rfl := pure_eq_ok.mp h
    exact List.filter_sublist.subset
  | wildcard =>
    obtain rfl := pure_eq_ok.mp h
    exact List.filter_sublist.subset
  | pattern regex =>
    obtain rfl := pure_eq_ok.mp h
    exact List.filter_sublist.subset
  | position place =>
    simp only [select] at h
    split at h
    · rename_i column hcolumn
      obtain rfl := pure_eq_ok.mp h
      rw [List.cons_subset, and_iff_left (List.nil_subset _)]
      exact List.mem_of_getElem? (Option.ite_none_left_eq_some.mp hcolumn).2
    · split at h
      · obtain rfl := pure_eq_ok.mp h
        exact List.nil_subset _
      · exact (throw_ne_ok h).elim
  | slice slice =>
    obtain ⟨places, -, h⟩ := bind_eq_ok.mp h
    obtain rfl := pure_eq_ok.mp h
    intro column hcolumn
    obtain ⟨place, -, hplace⟩ := List.mem_filterMap.mp hcolumn
    exact List.mem_of_getElem? hplace

theorem subset_of_selectSome {selector : Selector} (h : selector.selectSome columns = .ok found) :
    found ⊆ columns := by
  obtain ⟨matched, hselect, h⟩ := bind_eq_ok.mp h
  split at h
  · exact (throw_ne_ok h).elim
  · obtain rfl := pure_eq_ok.mp h
    exact subset_of_select hselect

theorem subset_of_expand {selectors : List String} (h : expand columns selectors = .ok found) :
    found ⊆ columns := by
  refine foldlM_ok (· ⊆ columns) h ?_ ?_
  · split
    · exact List.Subset.refl _
    · exact List.nil_subset _
  · intro text _ selected after hstep hselected
    rw [apply] at hstep
    split at hstep
    · rename_i htext
      obtain rfl := pure_eq_ok.mp hstep
      intro other hother
      rcases mem_addOnce.mp hother with rfl | hother
      · exact List.contains_iff_mem.mp htext
      · exact hselected hother
    · obtain ⟨selector, -, hstep⟩ := bind_eq_ok.mp hstep
      obtain ⟨matched, hmatched, hstep⟩ := bind_eq_ok.mp hstep
      split at hstep
      · obtain rfl := pure_eq_ok.mp hstep
        exact List.Subset.trans List.filter_sublist.subset hselected
      · obtain rfl := pure_eq_ok.mp hstep
        refine List.foldlRecOn (motive := (· ⊆ columns)) matched addOnce hselected
          fun selected hselected column hcolumn other hother => ?_
        rcases mem_addOnce.mp hother with rfl | hother
        · exact subset_of_selectSome hmatched hcolumn
        · exact hselected hother

/-- A column that gets a name is among those that have one, once. -/
theorem map_fst_putName (column name : String) (renames : Renames) :
    (putName column name renames).map (·.1) = addOnce (renames.map (·.1)) column := by
  induction renames with
  | nil => rfl
  | cons pair rest ih =>
    obtain ⟨other, old⟩ := pair
    by_cases hother : other = column
    · simp [putName, addOnce, hother]
    · rw [putName, if_neg hother, List.map_cons, ih, addOnce, addOnce]
      by_cases hrest : column ∈ rest.map (·.1)
      · simp [hrest]
      · simp [hrest, Ne.symm hother]

theorem ofColumns_putName {column : String} (h : OfColumns columns renames)
    (hcolumn : column ∈ columns) (name : String) :
    OfColumns columns (putName column name renames) where
  nodup := by
    rw [map_fst_putName]
    exact nodup_addOnce h.nodup column
  subset := by
    rw [map_fst_putName]
    intro other hother
    rcases mem_addOnce.mp hother with rfl | hother
    · exact hcolumn
    · exact h.subset hother

/-- Pairs of selectors and names give names to columns. -/
theorem ofColumns_expandRenames (h : expandRenames columns names = .ok renames) :
    OfColumns columns renames := by
  refine foldlM_ok (OfColumns columns) h ⟨List.nodup_nil, List.nil_subset _⟩ ?_
  rintro ⟨text, replacement⟩ - before after hstep hbefore
  rw [applyRename] at hstep
  split at hstep
  · rename_i htext
    obtain rfl := pure_eq_ok.mp hstep
    exact ofColumns_putName hbefore (List.contains_iff_mem.mp htext) replacement
  · obtain ⟨selector, -, hstep⟩ := bind_eq_ok.mp hstep
    obtain ⟨matched, hmatched, hstep⟩ := bind_eq_ok.mp hstep
    obtain rfl := pure_eq_ok.mp hstep
    refine List.foldlRecOn matched _ hbefore fun renames h column hcolumn => ?_
    exact ofColumns_putName h (subset_of_selectSome hmatched hcolumn) _

end Selector

/-! ## Renaming at once -/

namespace Table

/-- a table with all columns renamed at once: they stay where they are and keep their cells, and
date marks go with the names -/
structure RenamedAtOnce (renames : Renames) (table result : Table) : Prop where
  columns : result.columns =
    table.columns.map fun column => { column with name := newName renames column.name }
  index : result.index = table.index
  dates : ∀ name, name ∈ result.dates ↔ ∃ marked ∈ table.dates, newName renames marked = name

namespace RenamedAtOnce

theorem names_eq (h : RenamedAtOnce renames table result) :
    result.names = table.names.map (newName renames) := by
  rw [Table.names, h.columns, List.map_map, Table.names, List.map_map]
  rfl

theorem perm (h : RenamedAtOnce renames table result) (hperm : renames.Perm others)
    (hdistinct : (renames.map (·.1)).Nodup) : RenamedAtOnce others table result := by
  have hsame := newName_perm hperm hdistinct
  exact ⟨hsame ▸ h.columns, h.index, hsame ▸ h.dates⟩

/-- Marks that are those of columns stay with the columns. -/
theorem markedAs (h : RenamedAtOnce renames table result)
    (hapart : (table.names.map (newName renames)).Nodup) (hdates : table.dates ⊆ table.names) :
    result.MarkedAs table.marks := by
  refine ⟨fun name hname => ?_, ?_⟩
  · obtain ⟨marked, hmarked, rfl⟩ := (h.dates name).mp hname
    rw [h.names_eq]
    exact List.mem_map_of_mem (hdates hmarked)
  · rw [marks_eq, h.names_eq, List.map_map, marks_eq]
    refine List.map_congr_left fun name hname => ?_
    rw [Function.comp_apply, Bool.eq_iff_iff, isDate_iff, isDate_iff, h.dates]
    constructor
    · rintro ⟨marked, hmarked, hsame⟩
      rwa [← List.inj_on_of_nodup_map hapart (hdates hmarked) hname hsame]
    · exact fun hmarked => ⟨name, hmarked, rfl⟩

/-- A name for itself changes nothing. -/
theorem self (source : String) (table : Table) : RenamedAtOnce [(source, source)] table table := by
  have hsame (name : String) : newName [(source, source)] name = name := by
    rw [newName_cons]
    split
    · rename_i h
      exact h.symm
    · rfl
  exact ⟨by simp [hsame], rfl, by simp [hsame]⟩

/-- Renaming one column where names are distinct. -/
theorem single (hdistinct : table.DistinctNames) (source target : String) :
    RenamedAtOnce [(source, target)] table (table.renamed source target) where
  columns := by
    change Edit.renameFirst source target table.columns = _
    rw [DistinctNames, Table.names] at hdistinct
    generalize table.columns = columns at hdistinct ⊢
    induction columns with
    | nil => rfl
    | cons column rest ih =>
      obtain ⟨hcolumn, hrest⟩ := List.nodup_cons.mp hdistinct
      rw [Edit.renameFirst, List.map_cons, newName_cons]
      split
      · -- the other columns have other names
        rename_i hsource
        refine congrArg₂ List.cons rfl ?_
        refine (List.map_id rest).symm.trans (List.map_congr_left fun other hother => ?_)
        have hne : other.name ≠ source := by
          rintro heq
          refine hcolumn (List.mem_map.mpr ⟨other, hother, ?_⟩)
          exact heq.trans hsource.symm
        rw [newName_cons, if_neg hne]
        rfl
      · exact congrArg₂ List.cons rfl (ih hrest)
  index := rfl
  dates name := by
    have hone (other : String) : newName [(source, target)] other =
        if other = source then target else other := newName_cons
    simp only [renamed, hone]
    by_cases hmarked : table.isDate source = true
    · rw [if_pos hmarked, mem_insertName]
      rw [isDate_iff] at hmarked
      constructor
      · rintro (rfl | h)
        · exact ⟨source, hmarked, if_pos rfl⟩
        · obtain ⟨hname, hne⟩ := List.mem_filter.mp h
          exact ⟨name, hname, if_neg (by simpa using hne)⟩
      · rintro ⟨marked, hmem, rfl⟩
        split
        · exact .inl rfl
        · rename_i hne
          exact .inr (List.mem_filter.mpr ⟨hmem, by simpa using hne⟩)
    · rw [if_neg hmarked]
      rw [isDate_iff] at hmarked
      have hother : ∀ marked ∈ table.dates, marked ≠ source := fun marked hmem heq =>
        hmarked (heq ▸ hmem)
      constructor
      · exact fun hname => ⟨name, hname, if_neg (hother name hname)⟩
      · rintro ⟨marked, hmem, rfl⟩
        rw [if_neg (hother marked hmem)]
        exact hmem

/-- Renaming one column and then others at once, if they do not rename it again. -/
theorem cons (h : RenamedAtOnce [(source, target)] table middle)
    (hrest : RenamedAtOnce rest middle result) (htarget : target ∉ rest.map (·.1)) :
    RenamedAtOnce ((source, target) :: rest) table result where
  columns := by
    rw [hrest.columns, h.columns, List.map_map]
    refine List.map_congr_left fun column _ => ?_
    simp only [Function.comp_apply, newName_first htarget]
  index := hrest.index.trans h.index
  dates name := by
    simp only [hrest.dates, h.dates, exists_exists_and_eq_and, newName_first htarget]

end RenamedAtOnce

/-! ## Renaming one after the other -/

theorem renameColumns_cons : table.renameColumns ((source, target) :: rest) =
    table.edit (Edit.renameColumn source target) >>= (·.renameColumns rest) :=
  List.foldlM_cons

/-- A column is renamed unless another one has the new name. -/
theorem edit_renameColumn_outcome (hdistinct : table.DistinctNames) (hsource : source ∈ table.names) :
    (source ≠ target ∧ target ∈ table.names ∧
      table.edit (Edit.renameColumn source target) = .error (.validation
        s!"cannot rename '{source}' to '{target}': column already exists")) ∨
    ((source = target ∨ target ∉ table.names) ∧
      ∃ middle, table.edit (Edit.renameColumn source target) = .ok middle ∧
        RenamedAtOnce [(source, target)] table middle) := by
  by_cases hsame : source = target
  · subst hsame
    refine .inr ⟨.inl rfl, table, ?_, .self source table⟩
    rw [edit, Edit.run_renameColumn_self rfl]
  · by_cases htarget : target ∈ table.names
    · refine .inl ⟨hsame, htarget, ?_⟩
      rw [edit, Edit.run_renameColumn_taken hsame (has_iff_mem_names.mpr htarget)]
    · refine .inr ⟨.inr htarget, table.renamed source target, ?_, .single hdistinct source target⟩
      have hfree : table.has target = false :=
        Bool.eq_false_iff.mpr fun h => htarget (has_iff_mem_names.mp h)
      rw [edit, Edit.run_renameColumn hsame hfree (has_iff_mem_names.mpr hsource)]

/-- Columns cannot be renamed if one takes a name that is there: either another column keeps it, or
it is given up later. -/
theorem not_apart_of_taken (hsame : source ≠ target) (hsource : source ∈ table.names)
    (htarget : target ∈ table.names) :
    ¬ ((table.names.map (newName ((source, target) :: rest))).Nodup ∧
      GivenUpFirst ((source, target) :: rest)) := by
  rintro ⟨hapart, hfirst⟩
  have hkept : target ∉ rest.map (·.1) := fun hmem => by
    obtain ⟨pair, hpair, heq⟩ := List.mem_map.mp hmem
    exact (List.pairwise_cons.mp hfirst).1 pair hpair heq.symm
  refine hsame (List.inj_on_of_nodup_map hapart hsource htarget ?_)
  rw [newName_cons, newName_cons, if_pos rfl, if_neg hsame.symm, newName_of_not_mem hkept]

/-- Columns can be renamed one after the other if and only if all names are distinct afterwards, and
no column takes a name that another one gives up later. Then they are renamed as if at once. Else a
name is refused because it is there. -/
theorem renameColumns_outcome (hdistinct : table.DistinctNames)
    (hrenames : OfColumns table.names renames) :
    match table.renameColumns renames with
    | .ok result => ((table.names.map (newName renames)).Nodup ∧ GivenUpFirst renames) ∧
        RenamedAtOnce renames table result
    | .error error => ¬ ((table.names.map (newName renames)).Nodup ∧ GivenUpFirst renames) ∧
        ∃ pair ∈ renames, error = .validation
          s!"cannot rename '{pair.1}' to '{pair.2}': column already exists" := by
  induction renames generalizing table with
  | nil =>
    have hsame : newName [] = id := rfl
    rw [hsame, List.map_id]
    exact ⟨⟨hdistinct, .nil⟩, ⟨by simp [hsame], rfl, by simp [hsame]⟩⟩
  | cons pair rest ih =>
    obtain ⟨source, target⟩ := pair
    obtain ⟨hsource, hnew, hrest⟩ := ofColumns_cons.mp hrenames
    rw [renameColumns_cons]
    rcases @edit_renameColumn_outcome _ _ target hdistinct hsource with
      ⟨hsame, htarget, hedit⟩ | ⟨hfree, middle, hedit, hone⟩
    · rw [hedit]
      exact ⟨not_apart_of_taken hsame hsource htarget, _, List.mem_cons_self .., rfl⟩
    · -- the new name is not given up again, so the rest is done as in the table as it was
      have htarget : target ∉ rest.map (·.1) := by
        rcases hfree with rfl | hfree
        · exact hnew
        · exact fun hmem => hfree (hrest.subset hmem)
      have hnames : middle.names.map (newName rest) =
          table.names.map (newName ((source, target) :: rest)) := by
        rw [hone.names_eq, List.map_map]
        exact List.map_congr_left fun name _ => newName_first htarget name
      have hfirst : GivenUpFirst ((source, target) :: rest) ↔ GivenUpFirst rest := by
        refine List.pairwise_cons.trans (and_iff_right fun pair hpair heq => htarget ?_)
        exact List.mem_map.mpr ⟨pair, hpair, heq.symm⟩
      have hmiddle : middle.DistinctNames :=
        (Edit.keeps_renameColumn_distinctNames source target).of_edit hedit hdistinct
      have hthere : rest.map (·.1) ⊆ middle.names := by
        intro name hname
        rw [hone.names_eq]
        refine List.mem_map.mpr ⟨name, hrest.subset hname, ?_⟩
        rw [newName_cons, if_neg (ne_of_mem_of_not_mem hname hnew)]
        rfl
      have hih := ih hmiddle ⟨hrest.nodup, hthere⟩
      rw [hnames, ← hfirst] at hih
      rw [hedit]
      change match middle.renameColumns rest with | .ok result => _ | .error error => _
      rcases hresult : middle.renameColumns rest with error | result <;> rw [hresult] at hih
      · obtain ⟨hnot, pair, hpair, herror⟩ := hih
        exact ⟨hnot, pair, List.mem_cons_of_mem _ hpair, herror⟩
      · exact ⟨hih.1, hone.cons hih.2 htarget⟩

end Table

namespace Step

/-! ## The step -/

/-- the new names that a step gives to columns: those of its pairs of selectors and names, or of its
input and output if there are no such pairs -/
def newNames (columns input output : List String) (names : Renames) : Except Error Renames :=
  if names.isEmpty then Params.pairs columns input output "rename"
  else Selector.expandRenames columns names

theorem apply_rename : (rename input output names).apply table = Engine.ofExcept (do
    table.renameColumns (← newNames table.names input output names)) := by
  cases names with
  | nil => rfl
  | cons => rfl

theorem ofColumns_newNames (hdistinct : columns.Nodup)
    (h : newNames columns input output names = .ok renames) : OfColumns columns renames := by
  rw [newNames] at h
  split at h
  · obtain ⟨found, targets, hexpand, -, hlength, rfl⟩ := pairs_eq_ok h
    have hfst : (found.zip targets).map (·.1) = found := List.map_fst_zip (Nat.le_of_eq hlength)
    refine ⟨?_, ?_⟩
    · rw [hfst]
      exact Selector.nodup_expand hdistinct hexpand
    · rw [hfst]
      exact Selector.subset_of_expand hexpand
  · exact Selector.ofColumns_expandRenames h

/-- **Renaming several columns.** Take a table with distinct names, and the new names that a step
finds for its columns. The step succeeds if and only if all names are distinct once all columns are
renamed, and no column takes a name that another one gives up later in the order of the new names.
Then all columns are renamed as if at once, in whatever order the new names stand: columns stay
where they are, cells, labels and rows stay as they are, and date marks go with the names, so marks
of columns stay with their columns. Else the step fails because a name that a column is to take is
there already. -/
theorem rename_outcome (hdistinct : table.DistinctNames)
    (hnames : newNames table.names input output names = .ok renames) :
    ((∃ result, ((rename input output names).apply table).runIn context world =
        (.ok result, world)) ↔
      (table.names.map renames.newName).Nodup ∧ renames.GivenUpFirst) ∧
    (∀ result after, ((rename input output names).apply table).runIn context world =
        (.ok result, after) → after = world ∧
      (∀ others : Renames, renames.Perm others → table.RenamedAtOnce others result) ∧
      (table.dates ⊆ table.names → result.MarkedAs table.marks)) ∧
    ∀ error after, ((rename input output names).apply table).runIn context world =
        (.error error, after) → after = world ∧
      ∃ pair ∈ renames, error = .validation
        s!"cannot rename '{pair.1}' to '{pair.2}': column already exists" := by
  have hcolumns := ofColumns_newNames hdistinct hnames
  have houtcome := Table.renameColumns_outcome hdistinct hcolumns
  have hrun : ((rename input output names).apply table).runIn context world =
      (table.renameColumns renames, world) := by
    rw [apply_rename, hnames]
    exact Engine.runIn_ofExcept _
  rw [hrun]
  rcases hresult : table.renameColumns renames with error | result <;> rw [hresult] at houtcome
  · refine ⟨⟨nofun, fun h => absurd h houtcome.1⟩, nofun, fun _ _ h => ?_⟩
    obtain ⟨herror, rfl⟩ := Prod.mk.inj h
    exact ⟨rfl, Except.error.inj herror ▸ houtcome.2⟩
  · obtain ⟨hconditions, honce⟩ := houtcome
    refine ⟨⟨fun _ => hconditions, fun _ => ⟨result, rfl⟩⟩, fun other after h => ?_, nofun⟩
    obtain ⟨hother, rfl⟩ := Prod.mk.inj h
    obtain rfl := Except.ok.inj hother
    refine ⟨rfl, fun others hperm => honce.perm hperm hcolumns.nodup, ?_⟩
    exact honce.markedAs hconditions.1

/-- three columns, of which one holds a date -/
def datedRow : Table where
  columns := [⟨"a", [.string "x"]⟩, ⟨"b", [.string "2024-05-01"]⟩, ⟨"c", [.string "z"]⟩]
  index := [4]
  dates := ["b"]

theorem distinctNames_datedRow : datedRow.DistinctNames := by
  simp [datedRow, Table.DistinctNames, Table.names]

/-- A column takes the name of one that was renamed before, and a date mark goes with the name. -/
theorem rename_outcome_shifted :
    datedRow.DistinctNames ∧
      newNames datedRow.names [] [] [("b", "d"), ("a", "b")] = .ok [("b", "d"), ("a", "b")] ∧
      ∃ result, ((rename [] [] [("b", "d"), ("a", "b")]).apply datedRow).runIn {} {} =
          (.ok result, {}) ∧
        datedRow.RenamedAtOnce [("a", "b"), ("b", "d")] result ∧
        result.MarkedAs [false, true, false] := by
  have hnames : newNames datedRow.names [] [] [("b", "d"), ("a", "b")] =
      .ok [("b", "d"), ("a", "b")] := by decide +kernel
  obtain ⟨hsuccess, hresult, -⟩ :=
    @rename_outcome {} {} _ _ _ _ _ distinctNames_datedRow hnames
  obtain ⟨result, hrun⟩ := hsuccess.mpr (by decide)
  obtain ⟨-, honce, hmarks⟩ := hresult result {} hrun
  exact ⟨distinctNames_datedRow, hnames, result, hrun, honce _ (.swap ..), hmarks (by decide)⟩

/-- Two columns cannot change their names with each other. Neither can a column take a name before
the other one has given it up; in the other order of the same new names it can. -/
theorem names_not_exchanged :
    datedRow.DistinctNames ∧
      newNames datedRow.names [] [] [("a", "b"), ("b", "a")] = .ok [("a", "b"), ("b", "a")] ∧
      (datedRow.names.map (Renames.newName [("a", "b"), ("b", "a")])).Nodup ∧
      ((rename [] [] [("a", "b"), ("b", "a")]).apply datedRow).runIn {} {} =
        (.error (.validation "cannot rename 'a' to 'b': column already exists"), {}) ∧
      ((rename [] [] [("a", "b"), ("b", "d")]).apply datedRow).runIn {} {} =
        (.error (.validation "cannot rename 'a' to 'b': column already exists"), {}) := by
  refine ⟨distinctNames_datedRow, by decide +kernel, by decide, by decide +kernel, ?_⟩
  decide +kernel

end Step

end TableRecipe
