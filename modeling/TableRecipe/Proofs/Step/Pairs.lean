import TableRecipe.Proofs.Table.Writes

/-!
# Pairs of columns

Copying, converting and changing letter case compute a target column from a source column, for one
pair after the other. A pair whose source is the target of an earlier pair reads what that pair
wrote there, not what the step was given.

* `Table.AtOnce`, `Table.OneByOne` — targets computed at once, or one after the other;
* `Step.PairStep`, `Step.target_of_foldlM` — what one pair does, and what all of them come to;
* `Step.Converts` — the steps that compute columns cell by cell;
* `Step.converts_apply` — what such a step does, and exactly when it does so at once.
-/

namespace TableRecipe

variable {context : Context} {world world' : World} {table result : Table}
  {convert : Value → Except Error Value} {pairs : List (String × String)}
  {input output columns targets : List String}

/-! ## Columns selected once -/

theorem Selector.nodup_addOnce {selected : List String} (h : selected.Nodup) (column : String) :
    (addOnce selected column).Nodup := by
  rw [addOnce]
  split
  · exact h
  · rename_i hcolumn
    simp only [List.contains_iff_mem] at hcolumn
    rw [List.nodup_append]
    refine ⟨h, by simp, ?_⟩
    rintro other hother _ hmem rfl
    exact hcolumn (List.mem_singleton.mp hmem ▸ hother)

/-- Selectors find a column once. -/
theorem Selector.nodup_expand {selectors found : List String} (hdistinct : columns.Nodup)
    (h : expand columns selectors = .ok found) : found.Nodup := by
  refine foldlM_ok List.Nodup h ?_ ?_
  · split
    · exact hdistinct
    · exact List.nodup_nil
  · intro text _ selected after hstep hselected
    rw [apply] at hstep
    split at hstep
    · obtain rfl := pure_eq_ok.mp hstep
      exact nodup_addOnce hselected text
    · obtain ⟨selector, -, hstep⟩ := bind_eq_ok.mp hstep
      obtain ⟨matched, -, hstep⟩ := bind_eq_ok.mp hstep
      split at hstep
      · obtain rfl := pure_eq_ok.mp hstep
        exact hselected.filter _
      · obtain rfl := pure_eq_ok.mp hstep
        exact List.foldlRecOn matched addOnce hselected fun _ h column _ => nodup_addOnce h column

namespace Table

/-- every target holds what the column in the same place comes to, in the table as it was -/
def AtOnce (convert : Value → Except Error Value) (table result : Table)
    (columns targets : List String) : Prop :=
  ∀ (place : Nat) (source target : String), columns[place]? = some source →
    targets[place]? = some target → ∃ cells converted, table.cells? source = some cells ∧
      cells.mapM convert = .ok converted ∧ result.cells? target = some converted

/-- every target holds what the column in the same place comes to, in the result if that column is
an earlier target, else in the table as it was -/
def OneByOne (convert : Value → Except Error Value) (table result : Table)
    (columns targets : List String) : Prop :=
  ∀ (place : Nat) (source target : String), columns[place]? = some source →
    targets[place]? = some target → ∃ cells converted,
      (if source ∈ targets.take place then result else table).cells? source = some cells ∧
      cells.mapM convert = .ok converted ∧ result.cells? target = some converted

/-- Targets are computed at once if and only if a column that is an earlier target comes to the same
before and after it was written. -/
theorem OneByOne.atOnce_iff (h : table.OneByOne convert result columns targets)
    (hlength : columns.length = targets.length) :
    table.AtOnce convert result columns targets ↔
      ∀ (place : Nat) (source : String), columns[place]? = some source →
        source ∈ targets.take place →
        (result.cells? source).map (·.mapM convert) =
          (table.cells? source).map (·.mapM convert) := by
  constructor
  · intro honce place source hsource hearlier
    have hlt : place < targets.length := hlength ▸ (List.getElem?_eq_some_iff.mp hsource).1
    have htarget : targets[place]? = some targets[place] := List.getElem?_eq_getElem hlt
    obtain ⟨cells, converted, hcells, hconverted, hresult⟩ := honce place source _ hsource htarget
    obtain ⟨cells', converted', hcells', hconverted', hresult'⟩ :=
      h place source _ hsource htarget
    rw [if_pos hearlier] at hcells'
    obtain rfl := Option.some.inj (hresult.symm.trans hresult')
    rw [hcells, hcells', Option.map_some, Option.map_some, hconverted, hconverted']
  · intro hsame place source target hsource htarget
    obtain ⟨cells, converted, hcells, hconverted, hresult⟩ :=
      h place source target hsource htarget
    split at hcells
    · rename_i hearlier
      have hmap := hsame place source hsource hearlier
      rw [hcells, Option.map_some, hconverted] at hmap
      obtain ⟨original, horiginal, hmapped⟩ := Option.map_eq_some_iff.mp hmap.symm
      exact ⟨original, converted, horiginal, hmapped, hresult⟩
    · exact ⟨cells, converted, hcells, hconverted, hresult⟩

end Table

namespace Step

/-! ## One pair after the other -/

/-- a change that computes the target column of a pair from its source column -/
def PairStep (convert : Value → Except Error Value)
    (change : Table → String × String → Except Error Table) : Prop :=
  ∀ before source target after, change before (source, target) = .ok after →
    before.Writes [target] after ∧ ∃ cells converted, before.cells? source = some cells ∧
      cells.mapM convert = .ok converted ∧ after.cells? target = some converted

/-- Of distinct targets, each holds what its source comes to: in the result if an earlier pair has
written it, else in the table as it was. -/
theorem target_of_foldlM {change : Table → String × String → Except Error Table}
    (hchange : PairStep convert change) (hdistinct : (pairs.map (·.2)).Nodup)
    (h : pairs.foldlM change table = .ok result) {place : Nat} {source target : String}
    (hpair : pairs[place]? = some (source, target)) :
    ∃ cells converted,
      (if source ∈ (pairs.map (·.2)).take place then result else table).cells? source =
        some cells ∧
      cells.mapM convert = .ok converted ∧ result.cells? target = some converted := by
  rw [← List.map_take]
  have hwrites {pairs : List (String × String)} {before after : Table}
      (h : pairs.foldlM change before = .ok after) : before.Writes (pairs.map (·.2)) after :=
    .foldlM (fun before pair after hpair => (hchange before pair.1 pair.2 after hpair).1) h
  -- the pairs before, the pair itself, and those behind it
  obtain ⟨hlt, hat⟩ := List.getElem?_eq_some_iff.mp hpair
  have hsplit : pairs = pairs.take place ++ (source, target) :: pairs.drop (place + 1) := by
    rw [← hat, List.getElem_cons_drop, List.take_append_drop]
  generalize pairs.take place = earlier at hsplit ⊢
  generalize pairs.drop (place + 1) = later at hsplit
  subst hsplit
  rw [List.foldlM_append] at h
  obtain ⟨middle, hearlier, h⟩ := bind_eq_ok.mp h
  rw [List.foldlM_cons] at h
  obtain ⟨after, hstep, hlater⟩ := bind_eq_ok.mp h
  obtain ⟨hpairWrites, cells, converted, hcells, hconverted, htarget⟩ :=
    hchange middle source target after hstep
  rw [List.map_append, List.map_cons, List.nodup_append] at hdistinct
  obtain ⟨-, hbehind, hapart⟩ := hdistinct
  refine ⟨cells, converted, ?_, hconverted, ?_⟩
  · split
    · -- no later pair has the same target, so the column still stands
      rename_i hsource
      have hne : source ≠ target := hapart source hsource target (List.mem_cons_self ..)
      have hnot : source ∉ later.map (·.2) := fun hmem =>
        hapart source hsource source (List.mem_cons_of_mem _ hmem) rfl
      rw [(hwrites hlater).others source hnot, hpairWrites.others source (by simpa using hne)]
      exact hcells
    · rename_i hsource
      rw [← (hwrites hearlier).others source hsource]
      exact hcells
  · rw [(hwrites hlater).others target (List.nodup_cons.mp hbehind).1]
    exact htarget

/-! ## The steps -/

/-- the steps that compute columns cell by cell: their input and output, and what a cell becomes -/
inductive Converts : Step → (input output : List String) → (Value → Except Error Value) → Prop where
  | case {input output : List String} {spelling : Spelling} :
    Converts (convertCase input output spelling) input output
      (fun cell => .ok (Table.respell spelling cell))
  | type {input output : List String} {type : CellType} :
    Converts (convertType input output type) input output type.convert
  | copy {input output : List String} : Converts (copy input output) input output .ok

theorem pairStep_convertColumns (convert : Value → Except Error Value) :
    PairStep convert (fun table (source, target) => do
      let cells ← (← table.cells source).mapM convert
      table.edit (Edit.setColumn target cells)) := by
  intro before source target after h
  obtain ⟨cells, hcells, h⟩ := bind_eq_ok.mp h
  obtain ⟨converted, hconverted, h⟩ := bind_eq_ok.mp h
  refine ⟨.setColumn h (.inr (Table.ne_nil_of_cells hcells)), cells, converted,
    Table.cells_eq_ok.mp hcells, hconverted, ?_⟩
  rw [Table.cells?_setColumn h, if_pos rfl]

theorem pairStep_convertTypes (type : CellType) :
    PairStep type.convert (fun table (source, target) => do
      let cells ← (← table.cells source).mapM type.convert
      let converted ← table.edit (Edit.setColumn target cells)
      return if type = .moment then converted.markDate target else converted) := by
  intro before source target after h
  obtain ⟨cells, hcells, h⟩ := bind_eq_ok.mp h
  obtain ⟨converted, hconverted, h⟩ := bind_eq_ok.mp h
  obtain ⟨wider, hwider, h⟩ := bind_eq_ok.mp h
  obtain rfl := pure_eq_ok.mp h
  have hwrites := Table.Writes.setColumn hwider (.inr (Table.ne_nil_of_cells hcells))
  have htarget : wider.cells? target = some converted := by
    rw [Table.cells?_setColumn hwider, if_pos rfl]
  refine ⟨?_, cells, converted, Table.cells_eq_ok.mp hcells, hconverted, ?_⟩
  · split
    · exact hwrites.markDate (List.mem_singleton_self target)
    · exact hwrites
  · split
    · rw [Table.cells?_markDate]
      exact htarget
    · exact htarget

/-- Such a step has no effects and goes through its pairs. -/
theorem converts_apply_ok {step : Step} (hstep : Converts step input output convert)
    (h : (step.apply table).runIn context world = (.ok result, world')) :
    world' = world ∧ ∃ name pairs change, Params.pairs table.names input output name = .ok pairs ∧
      PairStep convert change ∧ pairs.foldlM change table = .ok result := by
  cases hstep with
  | case =>
    obtain ⟨h, hworld⟩ := Engine.ofExcept_ok h
    obtain ⟨pairs, hpairs, h⟩ := bind_eq_ok.mp h
    exact ⟨hworld, _, pairs, _, hpairs, pairStep_convertColumns _, h⟩
  | type =>
    obtain ⟨h, hworld⟩ := Engine.ofExcept_ok h
    obtain ⟨pairs, hpairs, h⟩ := bind_eq_ok.mp h
    exact ⟨hworld, _, pairs, _, hpairs, pairStep_convertTypes _, h⟩
  | copy =>
    obtain ⟨h, hworld⟩ := Engine.ofExcept_ok h
    obtain ⟨pairs, hpairs, h⟩ := bind_eq_ok.mp h
    exact ⟨hworld, _, pairs, _, hpairs, pairStep_convertColumns _, h⟩

/-- Inputs are paired with outputs one by one, or with themselves if there are no outputs. -/
theorem pairs_eq_ok {names : List String} {name : String}
    (h : Params.pairs names input output name = .ok pairs) :
    ∃ columns targets, Selector.expand names input = .ok columns ∧
      targets = (if output = [] then columns else output) ∧
      columns.length = targets.length ∧ pairs = columns.zip targets := by
  obtain ⟨columns, hexpand, h⟩ := bind_eq_ok.mp h
  cases output with
  | nil =>
    obtain rfl := pure_eq_ok.mp h
    refine ⟨columns, columns, hexpand, rfl, rfl, ?_⟩
    rw [List.zip_eq_zipWith, List.zipWith_self]
  | cons first rest =>
    by_cases hlength : columns.length = (first :: rest).length
    · simp only [List.isEmpty_cons, Bool.false_eq_true, if_false, hlength, ne_eq,
        not_true_eq_false] at h
      exact ⟨columns, first :: rest, hexpand, rfl, hlength, (pure_eq_ok.mp h).symm⟩
    · simp only [List.isEmpty_cons, Bool.false_eq_true, if_false, ne_eq, hlength,
        not_false_eq_true, if_true] at h
      exact (throw_ne_ok h).elim

/-- In place, no column is the target of an earlier pair. -/
theorem not_mem_take_of_nodup {place : Nat} {source : String} (hdistinct : columns.Nodup)
    (hsource : columns[place]? = some source) : source ∉ columns.take place := by
  intro hearlier
  obtain ⟨earlier, hlt, hat⟩ := List.mem_take_iff_getElem.mp hearlier
  have hplaces : earlier = place :=
    (List.getElem?_inj (Nat.lt_of_lt_of_le hlt (Nat.min_le_right ..)) hdistinct).mp
      ((List.getElem?_eq_some_iff.mpr ⟨_, hat⟩).trans hsource.symm)
  omega

/-- **Pairs one after the other.** Take a table with distinct names, and distinct outputs if there
are any. Copying, converting and changing letter case write the targets and leave all other columns
as they are. Each target holds what its source comes to; but a source that is the target of an
earlier pair was written before it is read. So the pairs are applied at once if and only if what was
written into such a source comes to the same as what it held; and always if no target is the source
of a later pair, such as when columns are changed in place. -/
theorem converts_apply {step : Step} (hnames : table.DistinctNames)
    (hstep : Converts step input output convert) (houtput : output.Nodup)
    (h : (step.apply table).runIn context world = (.ok result, world')) :
    world' = world ∧ ∃ columns targets, Selector.expand table.names input = .ok columns ∧
      targets = (if output = [] then columns else output) ∧ columns.length = targets.length ∧
      table.Writes targets result ∧ table.OneByOne convert result columns targets ∧
      (table.AtOnce convert result columns targets ↔
        ∀ (place : Nat) (source : String), columns[place]? = some source →
          source ∈ targets.take place →
          (result.cells? source).map (·.mapM convert) =
            (table.cells? source).map (·.mapM convert)) ∧
      (output = [] → table.AtOnce convert result columns targets) := by
  obtain ⟨hworld, name, pairs, change, hpairs, hchange, h⟩ := converts_apply_ok hstep h
  obtain ⟨columns, targets, hexpand, htargets, hlength, rfl⟩ := pairs_eq_ok hpairs
  have hcolumns : columns.Nodup := Selector.nodup_expand hnames hexpand
  have hdistinct : targets.Nodup := by
    rw [htargets]
    split
    · exact hcolumns
    · exact houtput
  have hsnd : (columns.zip targets).map (·.2) = targets :=
    List.map_snd_zip (Nat.le_of_eq hlength.symm)
  have hwrites : table.Writes targets result := by
    rw [← hsnd]
    exact .foldlM (fun before pair after hpair => (hchange before pair.1 pair.2 after hpair).1) h
  have hone : table.OneByOne convert result columns targets := by
    intro place source target hsource htarget
    have hpair : (columns.zip targets)[place]? = some (source, target) :=
      List.getElem?_zip_eq_some.mpr ⟨hsource, htarget⟩
    simpa only [hsnd] using target_of_foldlM hchange (by rwa [hsnd]) h hpair
  refine ⟨hworld, columns, targets, hexpand, htargets, hlength, hwrites, hone,
    hone.atOnce_iff hlength, ?_⟩
  intro hinPlace
  rw [if_pos hinPlace] at htargets
  subst htargets
  refine (hone.atOnce_iff hlength).mpr fun place source hsource hearlier => ?_
  exact absurd hearlier (not_mem_take_of_nodup hcolumns hsource)

/-- two letters in a row -/
def letterPair : Table where
  columns := [⟨"a", [.string "x"]⟩, ⟨"b", [.string "y"]⟩]
  index := [0]

theorem distinctNames_letterPair : letterPair.DistinctNames := by
  simp [letterPair, Table.DistinctNames, Table.names]

theorem converts_apply_shifted :
    letterPair.DistinctNames ∧ ["c", "b"].Nodup ∧
      ∃ result, ((convertCase ["b", "a"] ["c", "b"] .upper).apply letterPair).runIn {} {} =
          (.ok result, {}) ∧
        letterPair.AtOnce (fun cell => .ok (Table.respell .upper cell)) result
          ["b", "a"] ["c", "b"] := by
  have hrun : ((convertCase ["b", "a"] ["c", "b"] .upper).apply letterPair).runIn {} {} =
      (.ok { letterPair with columns :=
        [⟨"a", [.string "x"]⟩, ⟨"b", [.string "X"]⟩, ⟨"c", [.string "Y"]⟩] }, {}) := by
    decide +kernel
  obtain ⟨-, columns, targets, hexpand, rfl, -, -, -, honce, -⟩ :=
    converts_apply distinctNames_letterPair .case (by decide) hrun
  have hfound : Selector.expand letterPair.names ["b", "a"] = .ok ["b", "a"] := by decide +kernel
  obtain rfl := Except.ok.inj (hexpand.symm.trans hfound)
  refine ⟨distinctNames_letterPair, by decide, _, hrun, honce.mpr ?_⟩
  -- no target is the source of a later pair
  rintro (_ | _ | place) source hsource hearlier
  · cases hearlier
  · obtain rfl : "a" = source := Option.some.inj hsource
    exact absurd hearlier (by decide)
  · cases hsource

/-- A column that is copied after something was copied into it arrives with what it was given. -/
theorem copied_after_written :
    letterPair.Rectangular ∧ letterPair.DistinctNames ∧ ["b", "c"].Nodup ∧
      letterPair.cells? "b" = some [.string "y"] ∧
      ∃ result, ((copy ["a", "b"] ["b", "c"]).apply letterPair).runIn {} {} = (.ok result, {}) ∧
        result.cells? "c" = some [.string "x"] ∧
        ¬letterPair.AtOnce .ok result ["a", "b"] ["b", "c"] := by
  refine ⟨by decide, distinctNames_letterPair, by decide, by decide,
    { letterPair with columns :=
      [⟨"a", [.string "x"]⟩, ⟨"b", [.string "x"]⟩, ⟨"c", [.string "x"]⟩] },
    by decide +kernel, by decide, ?_⟩
  intro honce
  obtain ⟨cells, converted, hcells, hconverted, hresult⟩ := honce 1 "b" "c" rfl rfl
  obtain rfl := Option.some.inj hcells
  obtain rfl := Except.ok.inj hconverted
  exact absurd hresult (by decide)

end Step

end TableRecipe
