import TableRecipe.Proofs.Recipe.Tasks

/-!
# Names that are bound when a body runs

The body of a matrix has the variables of the matrix for names of its own, and the actions after a
failure have the text of the failure. A placeholder for such a name shows the value that is bound
when the body runs, unless the bindings around the body have a value for the name: these are applied
first, and leave no placeholder behind.

* `Recipe.Reached.unbound`, `Recipe.Reached.stage` — the bindings that were applied before;
* `Recipe.Shows`, `Recipe.shows_of_kept` — placeholders that show the value of their name;
* `Recipe.runtime_names` — what placeholders for the names of a body show.
-/

namespace TableRecipe.Recipe

open Placeholder

variable {document value : Value} {outer current around first : Fields} {place rest : List Nat}
  {passes earlier later others : List Fields} {name : String}

/-! ## The bindings applied before -/

/-- A name that has no value now had none before. -/
theorem Reached.unbound (h : Reached document outer place value (current :: earlier))
    (hfree : Fields.find? name current = none) :
    ∀ bindings ∈ earlier, Fields.find? name bindings = none := by
  generalize hpasses : current :: earlier = passes at h
  induction h generalizing current earlier with
  | recipe =>
    obtain ⟨-, rfl⟩ := List.cons.inj hpasses
    exact nofun
  | part _ _ ih => exact ih hfree hpasses
  | body own _ _ _ ih =>
    obtain ⟨rfl, rfl⟩ := List.cons.inj hpasses
    rw [Fields.find?_extend, Option.or_eq_none_iff] at hfree
    intro bindings hmem
    rcases List.mem_cons.mp hmem with rfl | hmem
    · exact hfree.2
    · exact ih hfree.2 rfl bindings hmem

/-- What was reached under some bindings was reached, as a part of something, before further
bindings were applied. -/
theorem Reached.stage (h : Reached document outer place value (later ++ first :: others)) :
    ∃ place' path value', place = place' ++ path ∧
      Reached document outer place' value' (first :: others) := by
  generalize hpasses : later ++ first :: others = passes at h
  induction h generalizing later with
  | recipe hresolve =>
    cases later with
    | nil =>
      obtain ⟨rfl, rfl⟩ := List.cons.inj hpasses
      exact ⟨[], [], _, rfl, .recipe hresolve⟩
    | cons bindings later => cases later <;> cases (List.cons.inj hpasses).2
  | @part _ rest _ _ _ _ _ ih =>
    obtain ⟨place', path, value', rfl, hreached⟩ := ih hpasses
    exact ⟨place', path ++ rest, value', List.append_assoc .., hreached⟩
  | @body place _ value _ _ own hown hkept hresolve ih =>
    cases later with
    | nil =>
      obtain ⟨rfl, rfl⟩ := List.cons.inj hpasses
      exact ⟨place, [], value, (List.append_nil _).symm, hkept.body own hown hresolve⟩
    | cons bindings later => exact ih (List.cons.inj hpasses).2

/-- Of several bindings, one is the first that has a value for a name. -/
theorem exists_first (h : ∃ bindings ∈ passes, (Fields.find? name bindings).isSome) :
    ∃ later first others value, passes = later ++ first :: others ∧
      Fields.find? name first = some value ∧
      ∀ bindings ∈ others, Fields.find? name bindings = none := by
  induction passes with
  | nil =>
    obtain ⟨_, hmem, -⟩ := h
    cases hmem
  | cons bindings earlier ih =>
    by_cases hearlier : ∃ bindings ∈ earlier, (Fields.find? name bindings).isSome
    · obtain ⟨later, first, others, value, rfl, hfirst, hothers⟩ := ih hearlier
      exact ⟨bindings :: later, first, others, value, rfl, hfirst, hothers⟩
    · have hnone : ∀ bindings ∈ earlier, Fields.find? name bindings = none := by
        simpa using hearlier
      obtain ⟨found, hmem, hbound⟩ := h
      rcases List.mem_cons.mp hmem with rfl | hmem
      · obtain ⟨value, hvalue⟩ := Option.isSome_iff_exists.mp hbound
        exact ⟨[], found, earlier, value, rfl, hvalue, hnone⟩
      · rw [hnone found hmem] at hbound
        cases hbound

/-! ## What is shown -/

/-- a placeholder with text before and after it that shows, in what was reached, the value that the
last bindings have for its name; the earlier ones left it as it was -/
structure Shows (value : Value) (place : List Nat) (current : Fields) (earlier : List Fields)
    (name before after : List Char) (shown : Value) : Prop where
  bound : Fields.find? (String.ofList name) current = some shown
  text : ∃ before' after' found, FilledBy earlier before before' ∧ FilledBy earlier after after' ∧
    value.at? place = some found ∧ Becomes readDocument current name before' after' found

/-- A placeholder that is there when a body is resolved shows the value that the body has for its
name, whatever the bindings around the body have. -/
theorem shows_of_kept {kept : Value} {own : Fields} {before after : List Char} {text : String}
    {name : List Char} {runtime : Value} (hname : IsName name)
    (hresolve : resolveSteps readDocument (Fields.extend around own) kept = .ok value)
    (hruntime : Fields.find? (String.ofList name) (Fields.ofPairs own) = some runtime)
    (htext : kept.at? rest = some (.string text))
    (hwrite : text.toList = before ++ (write name ++ after)) :
    Shows value rest (Fields.extend around own) [] name before after runtime := by
  obtain ⟨tolerant, found, hfound, hbecomes⟩ := Pass.steps.text_at hresolve htext
  refine ⟨by rw [Fields.find?_extend, hruntime]; rfl, before, after, found, rfl, rfl, hfound, ?_⟩
  exact becomes_of_resolve hname hwrite hbecomes

/-- **Names that are bound when a body runs.** A run comes to no other bodies than those reached;
the actions after a failure are parts of such a body, too. A placeholder that is in a body when it
is resolved shows the value that the body has for its name. A placeholder of the document is still
there if the bindings around the body have no value for the name. If they have one, the placeholder
was replaced earlier: it shows the value that was first. -/
theorem runtime_names (document : Value) (outer : Fields) :
    (∀ depth source, execute (Task.perform depth) document outer source =
      execute (refusing document outer depth) document outer source) ∧
    (∀ recipe error actions context world world',
      Recipe.resolve document outer = .ok recipe →
      (hooks recipe "on_failure" (Fields.insert "error" (.string (Error.text error)) outer)).runIn
        context world = (.ok actions, world') →
      ∀ action ∈ actions, ReachedPart document outer
        [Fields.insert "error" (.string error.text) outer, outer] action) ∧
    ∀ place kept around earlier own value,
      Reached document outer place kept (around :: earlier) → OwnNames own →
      resolveSteps readDocument (Fields.extend around own) kept = .ok value →
      ∀ rest text before name after runtime, IsName name →
        text.toList = before ++ (write name ++ after) →
        Fields.find? (String.ofList name) (Fields.ofPairs own) = some runtime →
        (kept.at? rest = some (.string text) →
          Shows value rest (Fields.extend around own) [] name before after runtime) ∧
        (document.at? (place ++ rest) = some (.string text) →
          Fields.find? (String.ofList name) around = none →
          Shows value rest (Fields.extend around own) (around :: earlier) name before after
            runtime) ∧
        (document.at? (place ++ rest) = some (.string text) →
          (Fields.find? (String.ofList name) around).isSome →
          ∃ later first others place' path value' shown,
            around :: earlier = later ++ first :: others ∧ place = place' ++ path ∧
            Reached document outer place' value' (first :: others) ∧
            Shows value' (path ++ rest) first others name before after shown) := by
  refine ⟨fun depth source => execute_refusing document outer depth source, ?_, ?_⟩
  · intro recipe error actions context world world' hresolve hactions
    exact reached_of_hooks hresolve (.failure error) hactions
  · intro place kept around earlier own value hreached hown hresolve rest text before name after
      runtime hname hwrite hruntime
    refine ⟨fun htext => shows_of_kept hname hresolve hruntime htext hwrite, ?_, ?_⟩
    · intro htext haround
      refine ⟨by rw [Fields.find?_extend, hruntime]; rfl, ?_⟩
      refine (hreached.body own hown hresolve).becomes hname htext hwrite fun bindings hmem => ?_
      rcases List.mem_cons.mp hmem with rfl | hmem
      · exact haround
      · exact hreached.unbound haround bindings hmem
    · intro htext haround
      have hsome : ∃ bindings ∈ around :: earlier,
          (Fields.find? (String.ofList name) bindings).isSome :=
        ⟨around, List.mem_cons_self .., haround⟩
      obtain ⟨later, first, others, shown, hpasses, hfirst, hothers⟩ := exists_first hsome
      -- what was reached lies within what was reached when these bindings were applied
      rw [hpasses] at hreached
      obtain ⟨place', path, value', rfl, hstage⟩ := hreached.stage
      rw [List.append_assoc] at htext
      exact ⟨later, first, others, place', path, value', shown, hpasses, rfl, hstage, hfirst,
        hstage.becomes hname htext hwrite hothers⟩

/-- steps that write a column in capitals that a variable names -/
def capitalSteps : Value :=
  .list [.object [("convert.case", .object
    [("input", .string "$\x7bx\x7d"), ("case", .string "upper")])]]

/-- a recipe with a matrix that names the column `a` -/
def capitalsByMatrix : Fields :=
  [("wrangles", .list [.object [("matrix", .object
    [("variables", .object [("x", .list [.string "a"])]), ("wrangles", capitalSteps)])]])]

theorem runtime_names_capitalsByMatrix :
    ∃ value, resolveSteps readDocument (Fields.extend [] [("x", .string "a")]) capitalSteps =
        .ok value ∧
      Shows value [0, 0, 0] [("x", .string "a")] [[]] ['x'] [] [] (.string "a") := by
  have hrecipe : Recipe.resolve (.object capitalsByMatrix) [] = .ok capitalsByMatrix := by
    decide +kernel
  have hplace : (Value.object capitalsByMatrix).at? [0, 0, 0, 1] = some capitalSteps := rfl
  have hall : (Matrix.bindings [("variables", .object [("x", .list [.string "a"])])] none).runIn
      {} {} = (.ok [[("x", .string "a")]], {}) := by decide +kernel
  have hresolve : resolveSteps readDocument (Fields.extend [] [("x", .string "a")]) capitalSteps =
      .ok (.list [.object [("convert.case", .object
        [("input", .string "a"), ("case", .string "upper")])]]) := by decide +kernel
  obtain ⟨-, hshows, -⟩ := (runtime_names (.object capitalsByMatrix) []).2.2 _ _ _ _ _ _
    ((Reached.recipe hrecipe).part hplace) (.matrix hall (List.mem_singleton_self _)) hresolve
    [0, 0, 0] "$\x7bx\x7d" [] ['x'] [] (.string "a") (by decide) (by decide) rfl
  exact ⟨_, hresolve, hshows rfl rfl⟩

/-- A variable around a matrix decides what a placeholder in its body shows, though the matrix
binds the same name. -/
theorem outer_variable_shown_in_matrix :
    ((Recipe.run (.document (.object capitalsByMatrix)) [("x", .string "b")] (some
        { columns := [⟨"a", [.string "p"]⟩, ⟨"b", [.string "q"]⟩], index := [0] })).runIn
      {} {}).1.map (·.1.columns) = .ok [⟨"a", [.string "p"]⟩, ⟨"b", [.string "Q"]⟩] ∧
    ((Recipe.run (.document (.object capitalsByMatrix)) [] (some
        { columns := [⟨"a", [.string "p"]⟩, ⟨"b", [.string "q"]⟩], index := [0] })).runIn
      {} {}).1.map (·.1.columns) = .ok [⟨"a", [.string "P"]⟩, ⟨"b", [.string "q"]⟩] := by
  decide +kernel

end TableRecipe.Recipe
