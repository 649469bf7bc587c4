import TableRecipe.Proofs.CustomFunction.RowCalls

/-!
# Under which name a cell is passed

A column with blanks in its name goes under its form with underscores, if the function declares a
parameter of that name; all other columns go under their own names. Parameters of the step come
before cells.

* `CustomFunction.Alias`, `CustomFunction.OwnName` — the columns for a parameter;
* `CustomFunction.keyword_eq_iff` — which columns go under the name of a declared parameter;
* `CustomFunction.Binding` — where the value of a declared parameter comes from;
* `CustomFunction.invoke_bindings` — the first call for every row of a table.
-/

namespace TableRecipe.CustomFunction

variable {context : Context} {world : World} {function : CustomFunction} {table : Table}
  {params arguments : Fields} {columns before after output : List String} {name column : String}
  {row : Nat}

/-- whether a column has blanks, and with underscores for them the name of a parameter -/
def Alias (column name : String) : Prop := ' ' ∈ column.toList ∧ underscored column = name

/-- whether a function takes a column under its own name: there are no blanks in it, or else no
parameter has its form with underscores -/
def OwnName (function : CustomFunction) (column : String) : Prop :=
  ' ' ∈ column.toList → function.signature.declares (underscored column) = false

/-- Under the name of a declared parameter go its aliases, and the column of that name unless it
goes under another one. -/
theorem keyword_eq_iff (hdeclared : function.signature.declares name = true) :
    function.keyword column = name ↔ Alias column name ∨ column = name ∧ function.OwnName name := by
  by_cases hblank : ' ' ∈ column.toList
  · by_cases hform : function.signature.declares (underscored column) = true
    · have hkeyword : function.keyword column = underscored column := by
        simp [keyword, hblank, hform]
      rw [hkeyword]
      refine ⟨fun h => .inl ⟨hblank, h⟩, ?_⟩
      rintro (⟨-, h⟩ | ⟨rfl, hown⟩)
      · exact h
      · exact absurd hform (by simp [hown hblank])
    · have hkeyword : function.keyword column = column := by simp [keyword, hform]
      rw [hkeyword]
      constructor
      · rintro rfl
        exact .inr ⟨rfl, fun _ => by simpa using hform⟩
      · rintro (⟨-, rfl⟩ | ⟨h, -⟩)
        · exact absurd hdeclared hform
        · exact h
  · have hkeyword : function.keyword column = column := by simp [keyword, hblank]
    rw [hkeyword]
    constructor
    · rintro rfl
      exact .inr ⟨rfl, fun h => absurd h hblank⟩
    · rintro (⟨h, -⟩ | ⟨h, -⟩)
      · exact absurd h hblank
      · exact h

theorem admits_of_declares (h : function.signature.declares name = true) :
    function.signature.admits name = true := by
  simp [Signature.admits, h]

theorem fromRow_of_declares (h : function.signature.declares name = true) :
    function.fromRow table columns row name =
      (columns.reverse.find? (function.keyword · = name)).map (table.cell · row) :=
  if_pos (admits_of_declares h)

/-- The column of the name, with no alias behind it, is the one that counts. -/
theorem fromRow_named (hdeclared : function.signature.declares name = true)
    (hown : function.OwnName name) (hbehind : ∀ column ∈ after, ¬ Alias column name) :
    function.fromRow table (before ++ name :: after) row name = some (table.cell name row) := by
  have hname : function.keyword name = name := (keyword_eq_iff hdeclared).mpr (.inr ⟨rfl, hown⟩)
  rw [fromRow_of_declares hdeclared, List.reverse_append, List.reverse_cons, List.append_assoc,
    List.find?_append]
  rcases hfound : after.reverse.find? (function.keyword · = name) with _ | column
  · simp [hname]
  · -- a column behind it that goes under the name has that name itself
    have hmem : column ∈ after := List.mem_reverse.mp (List.mem_of_find?_eq_some hfound)
    have hkeyword : function.keyword column = name := by simpa using List.find?_some hfound
    rcases (keyword_eq_iff hdeclared).mp hkeyword with halias | ⟨rfl, -⟩
    · exact absurd halias (hbehind column hmem)
    · rfl

/-- Without a column of the name, the last alias is the one that counts. -/
theorem fromRow_aliased (hdeclared : function.signature.declares name = true)
    (hnamed : name ∉ columns ∨ ¬ function.OwnName name)
    (halias : ∃ column ∈ columns, Alias column name) :
    ∃ column ∈ columns, Alias column name ∧
      function.fromRow table columns row name = some (table.cell column row) := by
  obtain ⟨first, hfirst, halias⟩ := halias
  have hfirst : ∃ column ∈ columns.reverse, function.keyword column = name :=
    ⟨first, List.mem_reverse.mpr hfirst, (keyword_eq_iff hdeclared).mpr (.inl halias)⟩
  have hsome : (columns.reverse.find? (function.keyword · = name)).isSome := by
    simpa [List.find?_isSome] using hfirst
  obtain ⟨column, hfound⟩ := Option.isSome_iff_exists.mp hsome
  have hmem : column ∈ columns := List.mem_reverse.mp (List.mem_of_find?_eq_some hfound)
  have hkeyword : function.keyword column = name := by simpa using List.find?_some hfound
  rw [fromRow_of_declares hdeclared, hfound]
  refine ⟨column, hmem, ?_, rfl⟩
  rcases (keyword_eq_iff hdeclared).mp hkeyword with halias | ⟨rfl, hown⟩
  · exact halias
  · rcases hnamed with hnot | hnot
    · exact absurd hmem hnot
    · exact absurd hown hnot

/-- where a call takes the value of a declared parameter from -/
structure Binding (function : CustomFunction) (table : Table) (params : Fields)
    (columns : List String) (row : Nat) (arguments : Fields) (name : String) : Prop where
  /-- from the step, which keeps some of its parameters -/
  given : ∀ value, Fields.find? name params = some value → name ∉ reserved →
    Fields.find? name arguments = some value
  /-- else from the column of the name -/
  named : (Fields.find? name params = none ∨ name ∈ reserved) → function.OwnName name →
    ∀ before after, columns = before ++ name :: after → (∀ column ∈ after, ¬ Alias column name) →
      Fields.find? name arguments = some (table.cell name row)
  /-- else from an alias -/
  aliased : (Fields.find? name params = none ∨ name ∈ reserved) →
    (name ∉ columns ∨ ¬ function.OwnName name) → (∃ column ∈ columns, Alias column name) →
      ∃ column ∈ columns, Alias column name ∧
        Fields.find? name arguments = some (table.cell column row)

theorem PassedFirst.binding {firsts : List Fields}
    (h : PassedFirst function table params columns firsts)
    (hfirst : firsts[row]? = some arguments)
    (hdeclared : function.signature.declares name = true) :
    Binding function table params columns row arguments name := by
  have hfind := h.found row arguments hfirst name
  have hrow (hkept : Fields.find? name params = none ∨ name ∈ reserved) :
      Fields.find? name arguments = function.fromRow table columns row name := by
    have hnone : function.fromStep params name = none := by
      rw [fromStep]
      split
      · rename_i hpassed
        exact hkept.resolve_right hpassed.2
      · rfl
    rw [hfind, hnone, Option.none_or]
  refine ⟨?_, ?_, ?_⟩
  · intro value hvalue hpassed
    rw [hfind, fromStep, if_pos ⟨admits_of_declares hdeclared, hpassed⟩, hvalue]
    rfl
  · rintro hkept hown before after rfl hbehind
    rw [hrow hkept]
    exact fromRow_named hdeclared hown hbehind
  · intro hkept hnamed halias
    rw [hrow hkept]
    exact fromRow_aliased hdeclared hnamed halias

/-- **What a parameter is bound to.** In the first call for every row, a declared parameter has the
value that the step gives for it, unless it is among those that a step keeps; else the cell of the
column of that name, be there aliases before it or not; and if there is no such column, the cell of
an alias. -/
theorem invoke_bindings (hrows : function.signature.acceptsTable = false)
    (hchosen : Chosen table params columns output) (hparams : params.names.Nodup) :
    ∃ firsts calls outcome,
      RowByRow function output (function.passedOn params) firsts calls outcome ∧
      (function.invoke table params).runIn context world =
        (outcome >>= putRows table output, world.calling function calls) ∧
      firsts.length = table.length ∧
      ∀ (row : Nat) (arguments : Fields), firsts[row]? = some arguments →
        ∀ name, function.signature.declares name = true →
          Binding function table params columns row arguments name := by
  obtain ⟨calls, outcome, hrowByRow, hrun⟩ :=
    @exists_rowByRow_invoke context world _ _ _ _ _ hrows hchosen
  have hfirsts := @passedFirst_rowArguments function table params columns hparams
  refine ⟨_, calls, outcome, hrowByRow, hrun, hfirsts.length, ?_⟩
  intro row arguments hfirst name hdeclared
  exact hfirsts.binding hfirst hdeclared

/-- takes parameters, and returns null -/
def taking (parameters : List String) : CustomFunction where
  name := "take"
  signature := .ofRows parameters
  call _ _ := .ok (.value .null)

/-- a row with two columns -/
def pricedRow (first second : String) : Table where
  columns := [⟨first, [.string "x"]⟩, ⟨second, [.string "y"]⟩]
  index := [0]

/-- a column to fill, and a parameter to pass -/
def pricedParams : Fields := [("output", .string "total"), ("count", .string "two")]

/-- An alias stands before the column of the name, and a parameter comes from the step. -/
theorem invoke_bindings_priced :
    (taking ["unit_price", "count"]).signature.acceptsTable = false ∧
      Chosen (pricedRow "unit price" "unit_price") pricedParams ["unit price", "unit_price"]
        ["total"] ∧
      pricedParams.names.Nodup ∧
      ∃ arguments calls outcome,
        RowByRow (taking ["unit_price", "count"]) ["total"] [("count", .string "two")]
          [arguments] calls outcome ∧
        Fields.find? "unit_price" arguments = some (.string "y") ∧
        Fields.find? "count" arguments = some (.string "two") := by
  have hrows : (taking ["unit_price", "count"]).signature.acceptsTable = false := rfl
  have hchosen : Chosen (pricedRow "unit price" "unit_price") pricedParams
      ["unit price", "unit_price"] ["total"] := ⟨rfl, rfl, by decide⟩
  have hparams : pricedParams.names.Nodup := by decide
  refine ⟨hrows, hchosen, hparams, ?_⟩
  obtain ⟨firsts, calls, outcome, hrowByRow, -, hlength, hbindings⟩ :=
    @invoke_bindings {} {} _ _ _ _ _ hrows hchosen hparams
  obtain ⟨arguments, rfl⟩ := List.length_eq_one_iff.mp hlength
  refine ⟨arguments, calls, outcome, hrowByRow, ?_, ?_⟩
  · have hbinding := hbindings 0 arguments rfl "unit_price" (by decide)
    have hown : (taking ["unit_price", "count"]).OwnName "unit_price" := fun h => by
      simp at h
    exact hbinding.named (.inl (by decide)) hown ["unit price"] [] rfl nofun
  · have hbinding := hbindings 0 arguments rfl "count" (by decide)
    exact hbinding.given _ (by decide) (by decide)

/-- A declared parameter is not bound to what the step gives for it if the step keeps that, nor to
the column of its name if that one goes under a form with underscores or has an alias behind it. -/
theorem parameters_not_bound :
    (((taking ["output"]).invoke (pricedRow "a" "b") [("output", .string "c")]).runIn
        {} {}).2.trace = [.call "take" [] none] ∧
      (((taking ["a b", "a_b"]).invoke (pricedRow "a b" "c") [("output", .string "c")]).runIn
        {} {}).2.trace = [.call "take" [("a_b", .string "x")] none] ∧
      (((taking ["a_b"]).invoke (pricedRow "a_b" "a b") [("output", .string "c")]).runIn
        {} {}).2.trace = [.call "take" [("a_b", .string "y")] none] := by
  refine ⟨?_, ?_, ?_⟩ <;> decide +kernel

end TableRecipe.CustomFunction
