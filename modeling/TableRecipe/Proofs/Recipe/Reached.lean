import TableRecipe.Proofs.Placeholder.Places
import TableRecipe.Recipe.Run

/-!
# Values that a run comes to

A recipe is resolved when its run begins. The body of a matrix and the actions of a hook are
resolved again, under the bindings around them and their own. What a placeholder becomes is decided
by the first bindings that have a value for its name.

* `Recipe.Reached` — what a run of a recipe comes to, with the bindings applied so far;
* `Recipe.FilledBy` — a text to which several bindings were applied;
* `Recipe.Reached.becomes` — what a placeholder in the document has become by then.
-/

namespace TableRecipe.Recipe

open Placeholder

variable {document value : Value} {outer bindings own : Fields} {place rest : List Nat}
  {passes earlier : List Fields}

/-- the values that a body has for names of its own when it runs: those that a matrix binds to its
variables, or the text of the failure; other hooks have none -/
inductive OwnNames : Fields → Prop where
  | matrix {params binding : Fields} {table : Option Table} {all : List Fields}
    {context : Context} {world world' : World}
    (h : (Matrix.bindings params table).runIn context world = (.ok all, world'))
    (hmem : binding ∈ all) : OwnNames binding
  | failure (error : Error) : OwnNames [("error", .string error.text)]
  | none : OwnNames []

/-- what a run of a recipe comes to: the place where it stood in the document, and the bindings
that were applied to it, the last ones first -/
inductive Reached (document : Value) (outer : Fields) :
    List Nat → Value → List Fields → Prop where
  /-- the recipe, resolved -/
  | recipe {recipe : Fields} (h : Recipe.resolve document outer = .ok recipe) :
    Reached document outer [] (.object recipe) [outer]
  /-- a part of what was reached -/
  | part {place rest : List Nat} {value part : Value} {passes : List Fields}
    (h : Reached document outer place value passes) (hpart : value.at? rest = some part) :
    Reached document outer (place ++ rest) part passes
  /-- a body, resolved again with names of its own -/
  | body {place : List Nat} {kept value : Value} {bindings : Fields} {earlier : List Fields}
    (own : Fields) (hown : OwnNames own)
    (h : Reached document outer place kept (bindings :: earlier))
    (hresolve : resolveSteps readDocument (Fields.extend bindings own) kept = .ok value) :
    Reached document outer place value (Fields.extend bindings own :: bindings :: earlier)

/-- a text and what it became under bindings that were applied one after the other, the last ones
first -/
def FilledBy : (passes : List Fields) → (text filled : List Char) → Prop
  | [], text, filled => filled = text
  | bindings :: earlier, text, filled => ∃ middle tolerant, FilledBy earlier text middle ∧
    fill bindings tolerant middle = .ok filled

/-- The recipe of a document is what a pass makes of it. -/
theorem resolve_ok {recipe : Fields} (h : Recipe.resolve document bindings = .ok recipe) :
    resolveRecipe readDocument bindings document = .ok (.object recipe) := by
  rw [Recipe.resolve] at h
  split at h
  · exact (throw_ne_ok h).elim
  · rename_i found hfound
    obtain rfl := Except.ok.inj h
    exact hfound
  · exact (throw_ne_ok h).elim

/-- **The first bindings decide.** A placeholder in a document has become what the first bindings
with a value for its name make of it, between what its other text has become by then; bindings
that come later do not see it. Until then it stays as it is. -/
theorem Reached.becomes (h : Reached document outer place value (bindings :: earlier))
    {text : String} {before name after : List Char} (hname : IsName name)
    (htext : document.at? (place ++ rest) = some (.string text))
    (hwrite : text.toList = before ++ (write name ++ after))
    (hfree : ∀ bindings ∈ earlier, Fields.find? (String.ofList name) bindings = none) :
    ∃ before' after' found, FilledBy earlier before before' ∧ FilledBy earlier after after' ∧
      value.at? rest = some found ∧ Becomes readDocument bindings name before' after' found := by
  generalize hpasses : bindings :: earlier = passes at h
  induction h generalizing bindings earlier rest with
  | recipe hresolve =>
    obtain ⟨rfl, rfl⟩ := List.cons.inj hpasses
    obtain ⟨tolerant, found, hfound, htext⟩ := Pass.recipe.text_at (resolve_ok hresolve) htext
    exact ⟨before, after, found, rfl, rfl, hfound, becomes_of_resolve hname hwrite htext⟩
  | part _ hpart ih =>
    rw [List.append_assoc] at htext
    obtain ⟨before', after', found, hbefore, hafter, hfound, hbecomes⟩ := ih htext hfree hpasses
    rw [Value.at?_append, hpart] at hfound
    exact ⟨before', after', found, hbefore, hafter, hfound, hbecomes⟩
  | body own _ _ hresolve ih =>
    obtain ⟨rfl, rfl⟩ := List.cons.inj hpasses
    obtain ⟨before', after', found, hbefore, hafter, hfound, hbecomes⟩ :=
      ih htext (fun bindings hmem => hfree bindings (List.mem_cons_of_mem _ hmem)) rfl
    have hunbound := hfree _ (List.mem_cons_self ..)
    -- the name had no value before, so the placeholder is still there
    cases hbecomes with
    | @kept before' after' left right tolerant _ hleft hright =>
      obtain ⟨tolerant', found', hfound', htext'⟩ := Pass.steps.text_at hresolve hfound
      refine ⟨left, right, found', ⟨before', tolerant, hbefore, hleft⟩,
        ⟨after', tolerant, hafter, hright⟩, hfound', ?_⟩
      exact becomes_of_resolve hname String.toList_ofList htext'
    | shown hfind => rw [hunbound] at hfind; cases hfind
    | value hfind => rw [hunbound] at hfind; cases hfind
    | written hfind => rw [hunbound] at hfind; cases hfind

end TableRecipe.Recipe
