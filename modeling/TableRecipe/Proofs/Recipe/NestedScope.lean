import TableRecipe.Proofs.Placeholder.ResolvedUnder
import TableRecipe.Recipe.Run

/-!
# What a recipe in a recipe sees

The parameters of an entry that runs a recipe are resolved under the bindings around the entry,
names without a value being tolerated, once for every part of the recipe in which the entry lies.
This goes for a document that is one of the parameters, too. Apart from that the bindings around the
entry do not matter: the run of the document begins with the variables of the entry.

* `Recipe.RunAlike` — entries that are run alike wherever they stand;
* `Recipe.nested_eq` — what an entry asks for that holds a document;
* `Recipe.nested_scope` — two sets of bindings around such an entry.
-/

namespace TableRecipe.Recipe

open Placeholder

variable {bindings bindings' params params' document given : Fields} {passes : List Fields}
  {value : Value} {run : Runner} {source : Option Table} {table : Table} {α : Type}

/-- an entry that runs a recipe -/
def nestedEntry (params : Value) : Value := .object [("recipe", params)]

/-! ## The bindings around an entry -/

theorem dispatch_recipe {conditional : Bool} :
    dispatch run "recipe" params table bindings conditional =
      if conditional then throw (conditionRefused "recipe") else applyRecipe run params table := by
  unfold dispatch
  rfl

/-- A recipe as a step refuses conditions. -/
theorem applyStep_recipe :
    applyStep run "recipe" value table bindings = (do
      let params ← Engine.ofExcept (Params.ofValue "recipe" value)
      if params.has "where" then throw (conditionRefused "recipe")
      else applyRecipe run params table) := by
  refine Engine.ofExcept_bind_congr fun params _ => ?_
  rw [Fields.has]
  rcases hwhere : Fields.find? "where" params with _ | condition
  · dsimp only
    rw [dispatch_recipe]
    rfl
  · dsimp only
    rw [if_pos (by decide), dispatch_recipe]
    rfl

theorem writeTo_recipe :
    writeTo run "recipe" params table bindings = (do
      let _ ← nested run params (some table)) := by
  unfold writeTo
  rfl

theorem act_recipe :
    act run "recipe" value bindings = (do
      let params ← Engine.ofExcept (Params.ofValue "recipe" value)
      let _ ← nested run params none) := by
  rw [act]
  rfl

theorem bind_nestedEntry {part : String} {f g : String × Value → Engine α}
    (h : f ("recipe", value) = g ("recipe", value)) :
    Engine.ofExcept (keyAndParams part (nestedEntry value)) >>= f =
      Engine.ofExcept (keyAndParams part (nestedEntry value)) >>= g := by
  refine Engine.ofExcept_bind_congr fun found hfound => ?_
  obtain rfl := Except.ok.inj hfound
  exact h

theorem applyEntry_nestedEntry {tables : Table × List String} {number : Nat} :
    applyEntry run bindings tables (nestedEntry value, number) =
      applyEntry run bindings' tables (nestedEntry value, number) := by
  refine bind_nestedEntry ?_
  dsimp only
  rw [applyStep_recipe, applyStep_recipe]

theorem readEntry_nestedEntry :
    readEntry run (nestedEntry value) source bindings =
      readEntry run (nestedEntry value) source bindings' := by
  refine bind_nestedEntry (Engine.ofExcept_bind_congr fun params _ => ?_)
  refine Engine.bind_congr fun origin context world world' horigin => ?_
  obtain ⟨rfl, -⟩ := Engine.pure_ok (a := Origin.recipe) horigin
  rfl

theorem writeEntry_nestedEntry :
    writeEntry run table bindings (nestedEntry value) =
      writeEntry run table bindings' (nestedEntry value) := by
  refine bind_nestedEntry (Engine.ofExcept_bind_congr fun params _ => ?_)
  simp only [writePart, writeTo_recipe]

theorem runHook_nestedEntry {phase : String} :
    runHook run phase bindings (nestedEntry value) =
      runHook run phase bindings' (nestedEntry value) := by
  refine bind_nestedEntry ?_
  dsimp only
  rw [act_recipe, act_recipe]

theorem actAll_nestedEntry :
    actAll run (nestedEntry value) bindings = actAll run (nestedEntry value) bindings' := by
  refine Engine.ofExcept_bind_congr fun actions hactions => ?_
  obtain rfl := Except.ok.inj hactions
  refine congrArg (· >>= _) (Engine.forIn_congr fun action hmem _ => ?_)
  obtain rfl := List.mem_singleton.mp hmem
  refine bind_nestedEntry ?_
  dsimp only
  rw [act_recipe, act_recipe]

/-- entries, resolved in one of two ways, that are run alike wherever they stand: as a step, to
read, to write, as an action of a phase, or as an action that a matrix repeats -/
structure RunAlike (run : Runner) (entry entry' : Except Error Value)
    (bindings bindings' : Fields) : Prop where
  step : ∀ tables number,
    (do applyEntry run bindings tables (← Engine.ofExcept entry, number)) =
      (do applyEntry run bindings' tables (← Engine.ofExcept entry', number))
  read : ∀ source,
    (do readEntry run (← Engine.ofExcept entry) source bindings) =
      (do readEntry run (← Engine.ofExcept entry') source bindings')
  write : ∀ table,
    (do writeEntry run table bindings (← Engine.ofExcept entry)) =
      (do writeEntry run table bindings' (← Engine.ofExcept entry'))
  hook : ∀ phase,
    (do runHook run phase bindings (← Engine.ofExcept entry)) =
      (do runHook run phase bindings' (← Engine.ofExcept entry'))
  action : (do actAll run (← Engine.ofExcept entry) bindings) =
      (do actAll run (← Engine.ofExcept entry') bindings')

/-! ## The resolution of an entry -/

/-- The parameters of an entry that runs a recipe are resolved tolerantly. -/
theorem resolve_nestedEntry :
    Placeholder.resolve readDocument bindings true (nestedEntry value) =
      Placeholder.resolve readDocument bindings true value >>= fun params =>
        pure (nestedEntry params) := by
  rw [nestedEntry, resolve_object]
  simp only [changeValues, List.mapM_cons, List.mapM_nil, bind_assoc, pure_bind]
  rfl

/-- This holds for an entry of a section, too. -/
theorem resolveSteps_nestedEntry :
    resolveSteps readDocument bindings (nestedEntry value) =
      Placeholder.resolve readDocument bindings true (nestedEntry value) := by
  rw [resolve_nestedEntry]
  change resolveEntries _ _ _ = _
  rw [nestedEntry, resolveEntries, resolveParams_eq_mapM]
  simp only [List.mapM_cons, List.mapM_nil, bind_assoc, pure_bind]
  rfl

theorem resolvedUnder_nestedEntry :
    resolvedUnder readDocument passes (nestedEntry value) =
      resolvedUnder readDocument passes value >>= fun params => pure (nestedEntry params) := by
  induction passes generalizing value with
  | nil => rfl
  | cons bindings rest ih =>
    simp only [resolvedUnder, resolve_nestedEntry, bind_assoc, pure_bind, ih]

theorem bind_resolved {x : Except Error Value} {f g : Value → Engine α}
    (h : ∀ params, f (nestedEntry params) = g (nestedEntry params)) :
    Engine.ofExcept (x >>= fun params => pure (nestedEntry params)) >>= f =
      Engine.ofExcept (x >>= fun params => pure (nestedEntry params)) >>= g := by
  refine Engine.ofExcept_bind_congr fun entry hentry => ?_
  obtain ⟨params, -, hpure⟩ := bind_eq_ok.mp hentry
  obtain rfl := pure_eq_ok.mp hpure
  exact h params

/-- Entries that run a recipe are run alike if their parameters resolve alike. -/
theorem runAlike_of_resolvedUnder {passes' : List Fields}
    (h : resolvedUnder readDocument passes value = resolvedUnder readDocument passes' value) :
    RunAlike run (resolvedUnder readDocument passes (nestedEntry value))
      (resolvedUnder readDocument passes' (nestedEntry value)) bindings bindings' := by
  rw [resolvedUnder_nestedEntry, resolvedUnder_nestedEntry, ← h]
  exact {
    step := fun _ _ => bind_resolved fun _ => applyEntry_nestedEntry
    read := fun _ => bind_resolved fun _ => readEntry_nestedEntry
    write := fun _ => bind_resolved fun _ => writeEntry_nestedEntry
    hook := fun _ => bind_resolved fun _ => runHook_nestedEntry
    action := bind_resolved fun _ => actAll_nestedEntry }

/-! ## The document of an entry -/

/-- the parameter that names or holds the recipe of an entry -/
def sourceName (params : Fields) : String := if params.has "name" then "name" else "recipe"

theorem nestedSource_of_document
    (h : Fields.find? (sourceName params) params = some (.object document)) :
    nestedSource params = .ok (.document (.object document)) := by
  rw [sourceName, Fields.has] at h
  rw [nestedSource]
  rcases hname : Fields.find? "name" params with _ | found <;> rw [hname] at h
  · rw [Option.none_or]
    simp only [Option.isSome_none, Bool.false_eq_true, if_false] at h
    rw [h]
  · rw [Option.some_or]
    simp only [Option.isSome_some, if_true] at h
    rw [hname] at h
    rw [Option.some.inj h]

/-- An entry that holds a document asks for the run of this document with the variables of the
entry, and for nothing else. -/
theorem nested_eq (hdocument : Fields.find? (sourceName params) params = some (.object document))
    (hgiven : nestedVariables params = .ok given) :
    nested run params source = (do
      let (result, _) ← run (.recipe (.document (.object document)) given source)
      return result) := by
  rw [nested, nestedSource_of_document hdocument, hgiven]
  rfl

/-- a way to carry out tasks that fails unless the task is to run another recipe than the one
given -/
def refusingRecipe (document : Value) {α : Type} : Task α → Engine α
  | .recipe source _ _ =>
    if source = .document document then throw (.of .nesting) else return ({}, {})
  | _ => throw (.of .nesting)

/-- Entries that ask for the same hold the same document. -/
theorem document_eq_of_nested {document' given' : Fields}
    (hdocument : Fields.find? (sourceName params) params = some (.object document))
    (hdocument' : Fields.find? (sourceName params') params' = some (.object document'))
    (hgiven : nestedVariables params = .ok given) (hgiven' : nestedVariables params' = .ok given')
    (h : ∀ (run : Runner) source, nested run params source = nested run params' source) :
    document = document' := by
  refine Decidable.byContradiction fun hne => ?_
  -- the one fails where the other does not
  have hruns := h (refusingRecipe (.object document)) none
  rw [nested_eq hdocument hgiven, nested_eq hdocument' hgiven'] at hruns
  have hother : Source.document (.object document') ≠ .document (.object document) := by
    intro hsame
    exact hne (Value.object.inj (Source.document.inj hsame)).symm
  have houtcome := congrArg (fun engine : Engine Table => (engine.runIn {} {}).1) hruns
  simp only [refusingRecipe, if_true, hother, if_false] at houtcome
  cases houtcome

/-! ## Two sets of bindings around an entry -/

section

variable {passes : List (Fields × Fields)}
  (hdocument : Fields.find? (sourceName params) params = some (.object document))
  (hothers : OthersAlike readDocument (passes.map (·.1)) (passes.map (·.2)) (sourceName params)
    (.object document) params)

theorem sourceName_resolvedUnder {passes : List Fields}
    (h : resolvedUnder readDocument passes (.object params) = .ok (.object params')) :
    sourceName params' = sourceName params := by
  unfold sourceName Fields.has
  rcases find?_resolvedUnder "name" h with ⟨hnone, hnone'⟩ | ⟨_, _, hsome, hsome', -⟩
  · rw [hnone, hnone']
  · rw [hsome, hsome']
    rfl

include hdocument

/-- The document that an entry holds is resolved with its other parameters. -/
theorem document_resolvedUnder {passes : List Fields}
    (h : resolvedUnder readDocument passes (.object params) = .ok (.object params')) :
    ∃ document', Fields.find? (sourceName params') params' = some (.object document') ∧
      resolvedUnder readDocument passes (.object document) = .ok (.object document') := by
  rw [sourceName_resolvedUnder h]
  rcases find?_resolvedUnder (sourceName params) h with
    ⟨hnone, -⟩ | ⟨found, found', hfound, hfound', hresolved⟩
  · rw [hdocument] at hnone
    cases hnone
  · rw [hdocument] at hfound
    obtain rfl := Option.some.inj hfound
    rcases resolvedUnder_object readDocument passes document with ⟨document', hok, -⟩ | ⟨e, he, -⟩
    · rw [hok] at hresolved
      obtain rfl := Except.ok.inj hresolved
      exact ⟨document', hfound', hok⟩
    · rw [he] at hresolved
      cases hresolved

omit hdocument
include hothers

/-- Variables that resolve to the same values are the same. -/
theorem nestedVariables_resolvedUnder {params₁ params₂ : Fields}
    (h₁ : resolvedUnder readDocument (passes.map (·.1)) (.object params) = .ok (.object params₁))
    (h₂ : resolvedUnder readDocument (passes.map (·.2)) (.object params) = .ok (.object params₂)) :
    nestedVariables params₁ = nestedVariables params₂ := by
  have hfind : Fields.find? "variables" params₁ = Fields.find? "variables" params₂ := by
    rcases find?_resolvedUnder "variables" h₁ with
      ⟨hnone, hnone₁⟩ | ⟨value, value₁, hvalue, hvalue₁, hresolved₁⟩ <;>
    rcases find?_resolvedUnder "variables" h₂ with
      ⟨hnone', hnone₂⟩ | ⟨value', value₂, hvalue', hvalue₂, hresolved₂⟩
    · rw [hnone₁, hnone₂]
    · rw [hnone] at hvalue'
      cases hvalue'
    · rw [hvalue] at hnone'
      cases hnone'
    · rw [hvalue] at hvalue'
      obtain rfl := Option.some.inj hvalue'
      rcases hothers _ (Fields.mem_of_find? hvalue) with hentry | ⟨same, hsame₁, hsame₂⟩
      · -- the document is no parameter of this name
        have hname : "variables" = sourceName params := congrArg Prod.fst hentry
        rw [sourceName] at hname
        split at hname <;> exact absurd hname (by decide)
      · rw [hresolved₁] at hsame₁
        rw [hresolved₂] at hsame₂
        rw [hvalue₁, hvalue₂, Except.ok.inj hsame₁, Except.ok.inj hsame₂]
  rw [nestedVariables, nestedVariables, hfind]

include hdocument

/-- **What a recipe in a recipe sees.** Take an entry that runs a document, and two sets of bindings
around it (one pair for each time that the entry is resolved) under which its other parameters
resolve to the same values. The entry is run alike wherever it stands if the document resolves to
the same, too; and it does if the bindings agree on the names that the document consults. There is
no other case: if every run of the document is the same, the document resolves to the same. -/
theorem nested_scope :
    (∀ bindings params, resolveSteps readDocument bindings (nestedEntry params) =
      Placeholder.resolve readDocument bindings true (nestedEntry params)) ∧
    (AgreeAlong readDocument passes (.object document) →
      resolvedUnder readDocument (passes.map (·.1)) (.object document) =
        resolvedUnder readDocument (passes.map (·.2)) (.object document)) ∧
    (resolvedUnder readDocument (passes.map (·.1)) (.object document) =
        resolvedUnder readDocument (passes.map (·.2)) (.object document) →
      ∀ (run : Runner) bindings bindings',
        RunAlike run (resolvedUnder readDocument (passes.map (·.1)) (nestedEntry (.object params)))
          (resolvedUnder readDocument (passes.map (·.2)) (nestedEntry (.object params)))
          bindings bindings') ∧
    ∀ params₁ params₂ given,
      resolvedUnder readDocument (passes.map (·.1)) (.object params) = .ok (.object params₁) →
      resolvedUnder readDocument (passes.map (·.2)) (.object params) = .ok (.object params₂) →
      nestedVariables params₁ = .ok given →
      ((∀ (run : Runner) source, nested run params₁ source = nested run params₂ source) ↔
        resolvedUnder readDocument (passes.map (·.1)) (.object document) =
          resolvedUnder readDocument (passes.map (·.2)) (.object document)) := by
  refine ⟨fun _ _ => resolveSteps_nestedEntry, resolvedUnder_congr, ?_, ?_⟩
  · intro halike run bindings bindings'
    exact runAlike_of_resolvedUnder (resolvedUnder_object_congr hothers halike)
  · intro params₁ params₂ given h₁ h₂ hgiven
    constructor
    · intro hruns
      obtain ⟨document₁, hdocument₁, hresolved₁⟩ := document_resolvedUnder hdocument h₁
      obtain ⟨document₂, hdocument₂, hresolved₂⟩ := document_resolvedUnder hdocument h₂
      have hgiven' := (nestedVariables_resolvedUnder hothers h₁ h₂).symm.trans hgiven
      rw [hresolved₁, hresolved₂,
        document_eq_of_nested hdocument₁ hdocument₂ hgiven hgiven' hruns]
    · intro halike run source
      have hsame := resolvedUnder_object_congr hothers halike
      rw [h₁, h₂] at hsame
      rw [Value.object.inj (Except.ok.inj hsame)]

end

/-- a recipe that writes the column in capitals that its variable `x` names -/
def capitals : Fields :=
  [("wrangles", .list [.object [("convert.case", .object
    [("input", .string "$\x7bx\x7d"), ("case", .string "upper")])]])]

/-- an entry that runs the recipe on the column `a` -/
def capitalsOfFirst : Fields :=
  [("name", .object capitals), ("variables", .object [("x", .string "a")])]

theorem nested_scope_capitals :
    OthersAlike readDocument [[("y", .string "b")]] [[("z", .string "c")]] "name"
      (.object capitals) capitalsOfFirst ∧
    AgreeAlong readDocument [([("y", .string "b")], [("z", .string "c")])] (.object capitals) ∧
    RunAlike (Task.perform maximalDepth)
      (resolvedUnder readDocument [[("y", .string "b")]] (nestedEntry (.object capitalsOfFirst)))
      (resolvedUnder readDocument [[("z", .string "c")]] (nestedEntry (.object capitalsOfFirst)))
      [("y", .string "b")] [("z", .string "c")] := by
  have hothers : OthersAlike readDocument [[("y", .string "b")]] [[("z", .string "c")]] "name"
      (.object capitals) capitalsOfFirst := by
    intro entry hmem
    rcases List.mem_cons.mp hmem with rfl | hmem
    · exact .inl rfl
    · obtain rfl := List.mem_singleton.mp hmem
      exact .inr ⟨.object [("x", .string "a")], by decide +kernel, by decide +kernel⟩
  have hnames : ∀ text ∈ (Value.object capitals).texts, ∀ name ∈ namesIn text, name = ['x'] := by
    decide +kernel
  have hagree : AgreeAlong readDocument [([("y", .string "b")], [("z", .string "c")])]
      (.object capitals) := by
    refine ⟨agreeOnConsulted_of_unbound fun text htext name hname => ?_, fun _ _ => trivial⟩
    obtain rfl := hnames text htext name hname
    decide
  have hdocument : Fields.find? (sourceName capitalsOfFirst) capitalsOfFirst =
      some (.object capitals) := rfl
  have hscope := @nested_scope capitalsOfFirst capitals
    [([("y", .string "b")], [("z", .string "c")])] hdocument hothers
  obtain ⟨-, hresolve, hruns, -⟩ := hscope
  exact ⟨hothers, hagree, hruns (hresolve hagree) (Task.perform maximalDepth) _ _⟩

/-- A variable around an entry changes the document that the entry holds, though the variables that
the entry passes stay the same. -/
theorem outer_variable_seen_in_nested :
    resolvedUnder readDocument [[("x", .string "b")]] (.object [("x", .string "a")]) =
      resolvedUnder readDocument [[]] (.object [("x", .string "a")]) ∧
    ((Recipe.run (.document (.object [("wrangles", nestedEntry (.object capitalsOfFirst))]))
        [("x", .string "b")] (some
          { columns := [⟨"a", [.string "p"]⟩, ⟨"b", [.string "q"]⟩], index := [0] })).runIn
      {} {}).1.map (·.1.columns) = .ok [⟨"a", [.string "p"]⟩, ⟨"b", [.string "Q"]⟩] ∧
    ((Recipe.run (.document (.object [("wrangles", nestedEntry (.object capitalsOfFirst))]))
        [] (some
          { columns := [⟨"a", [.string "p"]⟩, ⟨"b", [.string "q"]⟩], index := [0] })).runIn
      {} {}).1.map (·.1.columns) = .ok [⟨"a", [.string "P"]⟩, ⟨"b", [.string "q"]⟩] := by
  decide +kernel

end TableRecipe.Recipe
