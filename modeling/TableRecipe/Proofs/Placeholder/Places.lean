import TableRecipe.Placeholder.Recipe
import TableRecipe.Proofs.Placeholder.Pieces

/-!
# Places in recipes

A value has parts, which have parts again. Replacing placeholders keeps the place of every part:
what a text becomes stands where the text stood.

* `Value.at?` — the part of a value at a place;
* `Placeholder.Pass` — the ways to replace placeholders in a value under the same bindings;
* `Placeholder.Pass.text_at` — what a pass makes of a text somewhere in a value.
-/

namespace TableRecipe

namespace Value

/-- the parts that lie directly in a value -/
def parts : Value → List Value
  | .list items => items
  | .object entries => entries.map (·.2)
  | _ => []

/-- the part of a value at a place: by position among its parts, from outside to inside -/
def at? : Value → List Nat → Option Value
  | value, [] => some value
  | value, position :: rest => value.parts[position]?.bind (·.at? rest)

@[simp] theorem at?_nil (value : Value) : value.at? [] = some value := rfl

theorem at?_cons (value : Value) (position : Nat) (rest : List Nat) :
    value.at? (position :: rest) = value.parts[position]?.bind (·.at? rest) := rfl

theorem at?_append (value : Value) (place rest : List Nat) :
    value.at? (place ++ rest) = (value.at? place).bind (·.at? rest) := by
  induction place generalizing value with
  | nil => rfl
  | cons position place ih =>
    rw [List.cons_append, at?_cons, at?_cons]
    rcases value.parts[position]? with _ | part
    · rfl
    · exact ih part

/-- The value under a name has a place. -/
theorem at?_of_find? {name : String} {entries : Fields} {value : Value}
    (h : Fields.find? name entries = some value) :
    ∃ position, (Value.object entries).at? [position] = some value := by
  induction entries with
  | nil => cases h
  | cons entry rest ih =>
    obtain ⟨key, first⟩ := entry
    by_cases hkey : key = name
    · obtain rfl : first = value := by simpa [Fields.find?, hkey] using h
      exact ⟨0, rfl⟩
    · obtain ⟨position, hposition⟩ := ih (by simpa [Fields.find?, hkey] using h)
      exact ⟨position + 1, hposition⟩

/-! ## Parts replaced one by one -/

variable {replace : String → Except Error Value}

theorem replaceInItems_eq_mapM (items : List Value) :
    replaceInItems replace items = items.mapM (·.replaceTexts replace) := by
  induction items with
  | nil => rfl
  | cons item rest ih => rw [List.mapM_cons, replaceInItems, ih]

theorem replaceInEntries_eq_mapM (entries : Fields) :
    replaceInEntries replace entries =
      entries.mapM fun (name, value) => return (name, ← value.replaceTexts replace) := by
  induction entries with
  | nil => rfl
  | cons entry rest ih =>
    rw [List.mapM_cons, replaceInEntries, ih]
    simp only [bind_assoc, pure_bind]

end Value

namespace Placeholder

open Value

theorem parts_of_mapM {change : String → Value → Except Error Value} {entries entries' : Fields}
    {position : Nat} {part : Value}
    (h : entries.mapM (fun (name, value) => return (name, ← change name value)) = .ok entries')
    (hpart : (Value.object entries).parts[position]? = some part) :
    ∃ name part', (Value.object entries').parts[position]? = some part' ∧
      change name part = .ok part' := by
  obtain ⟨⟨name, _⟩, hentry, rfl⟩ := List.getElem?_map ▸ hpart |> Option.map_eq_some_iff.mp
  obtain ⟨entry', hentry', hchange⟩ := (mapM_ok h).2 position _ hentry
  obtain ⟨part', hpart', hpure⟩ := bind_eq_ok.mp hchange
  obtain rfl := pure_eq_ok.mp hpure
  refine ⟨name, part', ?_, hpart'⟩
  simp [parts, hentry']

variable {reading : Reading} {bindings : Fields} {value value' part : Value}
  {strict tolerant : Value → Except Error Value}

theorem resolveItems_eq_mapM (items : List Value) :
    resolveItems strict tolerant items = items.mapM (resolveEntries strict tolerant) := by
  induction items with
  | nil => rfl
  | cons item rest ih => rw [List.mapM_cons, resolveItems, ih]

/-- how the parameters of an entry are resolved -/
def resolveUnder (strict tolerant : Value → Except Error Value) (key : String) (params : Value) :
    Except Error Value :=
  if deferred.contains key then tolerant params
  else if combined.contains key then resolveCombined strict tolerant params
  else strict params

theorem resolveParams_eq_mapM (entries : Fields) :
    resolveParams strict tolerant entries =
      entries.mapM fun (key, params) => return (key, ← resolveUnder strict tolerant key params) := by
  induction entries with
  | nil => rfl
  | cons entry rest ih =>
    obtain ⟨key, params⟩ := entry
    rw [List.mapM_cons, resolveParams, ih]
    simp only [resolveUnder]
    by_cases hdeferred : deferred.contains key
    · simp only [hdeferred, if_true, bind_assoc, pure_bind]
    · by_cases hcombined : combined.contains key
      · simp only [hdeferred, hcombined, Bool.false_eq_true, if_false, if_true, bind_assoc,
          pure_bind]
      · simp only [hdeferred, hcombined, Bool.false_eq_true, if_false, bind_assoc, pure_bind]

/-- how a parameter of an entry that combines sources is resolved -/
def resolveSource (strict tolerant : Value → Except Error Value) (key : String) (value : Value) :
    Except Error Value :=
  if key = "sources" then resolveEntries strict tolerant value else strict value

theorem resolveSources_eq_mapM (entries : Fields) :
    resolveSources strict tolerant entries =
      entries.mapM fun (key, value) => return (key, ← resolveSource strict tolerant key value) := by
  induction entries with
  | nil => rfl
  | cons entry rest ih =>
    obtain ⟨key, value⟩ := entry
    rw [List.mapM_cons, resolveSources, ih]
    simp only [resolveSource]
    by_cases hkey : key = "sources"
    · simp only [hkey, if_true, bind_assoc, pure_bind]
    · simp only [hkey, if_false, bind_assoc, pure_bind]

/-! ## Passes -/

/-- the ways to replace the placeholders in a value under the same bindings -/
inductive Pass (reading : Reading) (bindings : Fields) : (Value → Except Error Value) → Prop where
  | resolve (tolerant : Bool) : Pass reading bindings (resolve reading bindings tolerant)
  | steps : Pass reading bindings (resolveSteps reading bindings)
  | sources : Pass reading bindings
      (resolveCombined (Placeholder.resolve reading bindings false)
        (Placeholder.resolve reading bindings true))
  | recipe : Pass reading bindings (resolveRecipe reading bindings)

namespace Pass

variable {pass : Value → Except Error Value}

theorem under (key : String) : Pass reading bindings
    (resolveUnder (Placeholder.resolve reading bindings false)
      (Placeholder.resolve reading bindings true) key) := by
  unfold resolveUnder
  by_cases hdeferred : deferred.contains key
  · simp only [hdeferred, if_true]
    exact .resolve true
  · by_cases hcombined : combined.contains key
    · simp only [hdeferred, hcombined, Bool.false_eq_true, if_false, if_true]
      exact .sources
    · simp only [hdeferred, hcombined, Bool.false_eq_true, if_false]
      exact .resolve false

theorem source (key : String) : Pass reading bindings
    (resolveSource (Placeholder.resolve reading bindings false)
      (Placeholder.resolve reading bindings true) key) := by
  unfold resolveSource
  by_cases hkey : key = "sources"
  · simp only [hkey, if_true]
    exact .steps
  · simp only [hkey, if_false]
    exact .resolve false

theorem recipePart (name : String) :
    Pass reading bindings (resolveSection reading bindings name) := by
  unfold resolveSection
  by_cases hrun : name = "run"
  · simp only [hrun, if_true]
    exact .resolve true
  · by_cases hsection : sections.contains name
    · simp only [hrun, hsection, if_false, if_true]
      exact .steps
    · simp only [hrun, hsection, Bool.false_eq_true, if_false]
      exact .resolve false

/-- A pass over a list is a pass over each of its items. -/
theorem list {items : List Value} (hpass : Pass reading bindings pass)
    (h : pass (.list items) = .ok value') :
    ∃ pass' items', Pass reading bindings pass' ∧ items.mapM pass' = .ok items' ∧
      value' = .list items' := by
  have hresolve : ∀ tolerant, Placeholder.resolve reading bindings tolerant (.list items) =
      .ok value' → ∃ pass' items', Pass reading bindings pass' ∧ items.mapM pass' = .ok items' ∧
        value' = .list items' := by
    intro tolerant h
    obtain ⟨items', hitems, hvalue⟩ := bind_eq_ok.mp h
    rw [replaceInItems_eq_mapM] at hitems
    exact ⟨_, items', .resolve tolerant, hitems, (pure_eq_ok.mp hvalue).symm⟩
  cases hpass with
  | resolve tolerant => exact hresolve tolerant h
  | steps =>
    obtain ⟨items', hitems, hvalue⟩ := bind_eq_ok.mp h
    rw [resolveItems_eq_mapM] at hitems
    exact ⟨_, items', .steps, hitems, (pure_eq_ok.mp hvalue).symm⟩
  | sources => exact hresolve false h
  | recipe => exact hresolve false h

/-- A pass over a mapping is a pass over each of its values. -/
theorem object {entries : Fields} (hpass : Pass reading bindings pass)
    (h : pass (.object entries) = .ok value') :
    ∃ (change : String → Value → Except Error Value) (entries' : Fields),
      (∀ name, Pass reading bindings (change name)) ∧
      entries.mapM (fun (name, value) => return (name, ← change name value)) = .ok entries' ∧
      value' = .object entries' := by
  cases hpass with
  | resolve tolerant =>
    obtain ⟨entries', hentries, hvalue⟩ := bind_eq_ok.mp h
    rw [replaceInEntries_eq_mapM] at hentries
    exact ⟨_, entries', fun _ => .resolve tolerant, hentries, (pure_eq_ok.mp hvalue).symm⟩
  | steps =>
    obtain ⟨entries', hentries, hvalue⟩ := bind_eq_ok.mp h
    rw [resolveParams_eq_mapM] at hentries
    exact ⟨_, entries', under, hentries, (pure_eq_ok.mp hvalue).symm⟩
  | sources =>
    obtain ⟨entries', hentries, hvalue⟩ := bind_eq_ok.mp h
    rw [resolveSources_eq_mapM] at hentries
    exact ⟨_, entries', source, hentries, (pure_eq_ok.mp hvalue).symm⟩
  | recipe =>
    obtain ⟨entries', hentries, hvalue⟩ := bind_eq_ok.mp h
    exact ⟨_, entries', recipePart, hentries, (pure_eq_ok.mp hvalue).symm⟩

/-- A pass over a value is a pass over each of its parts. -/
theorem parts (hpass : Pass reading bindings pass) (h : pass value = .ok value') {position : Nat}
    (hpart : value.parts[position]? = some part) :
    ∃ pass' part', Pass reading bindings pass' ∧ value'.parts[position]? = some part' ∧
      pass' part = .ok part' := by
  cases value with
  | list items =>
    obtain ⟨pass', items', hpass', hitems, rfl⟩ := hpass.list h
    obtain ⟨part', hpart', hchange⟩ := (mapM_ok hitems).2 position part hpart
    exact ⟨pass', part', hpass', hpart', hchange⟩
  | object entries =>
    obtain ⟨change, entries', hchange, hentries, rfl⟩ := hpass.object h
    obtain ⟨name, part', hpart', hok⟩ := parts_of_mapM hentries hpart
    exact ⟨change name, part', hchange name, hpart', hok⟩
  | null => simp [Value.parts] at hpart
  | bool flag => simp [Value.parts] at hpart
  | number n => simp [Value.parts] at hpart
  | string text => simp [Value.parts] at hpart

/-- A pass over a text resolves its placeholders. -/
theorem text (hpass : Pass reading bindings pass) {text : String}
    (h : pass (.string text) = .ok value) :
    ∃ tolerant, Placeholder.resolve reading bindings tolerant (.string text) = .ok value := by
  cases hpass with
  | resolve tolerant => exact ⟨tolerant, h⟩
  | steps => exact ⟨false, h⟩
  | sources => exact ⟨false, h⟩
  | recipe => exact ⟨false, h⟩

/-- What a text somewhere in a value becomes stands where it stood. -/
theorem text_at (hpass : Pass reading bindings pass) (h : pass value = .ok value')
    {place : List Nat} {text : String} (htext : value.at? place = some (.string text)) :
    ∃ tolerant found, value'.at? place = some found ∧
      Placeholder.resolve reading bindings tolerant (.string text) = .ok found := by
  induction place generalizing pass value value' with
  | nil =>
    obtain rfl := Option.some.inj htext
    obtain ⟨tolerant, hresolve⟩ := hpass.text h
    exact ⟨tolerant, value', rfl, hresolve⟩
  | cons position rest ih =>
    rw [at?_cons] at htext ⊢
    obtain ⟨part, hpart, htext⟩ := Option.bind_eq_some_iff.mp htext
    obtain ⟨pass', part', hpass', hpart', hchange⟩ := hpass.parts h hpart
    rw [hpart']
    exact ih hpass' hchange htext

/-- A pass fails as the placeholders of one of the parts do. -/
theorem exists_error {e : Error} (hpass : Pass reading bindings pass) (h : pass value = .error e) :
    ∃ tolerant part, Placeholder.resolve reading bindings tolerant part = .error e := by
  induction hsize : sizeOf value using Nat.strongRecOn generalizing pass value with
  | ind size ih =>
    have hentries {entries : Fields} {change : String → Value → Except Error Value}
        (hchange : ∀ name, Pass reading bindings (change name))
        (hvalue : sizeOf value = 1 + sizeOf entries)
        (h : entries.mapM (fun (name, value) => return (name, ← change name value)) = .error e) :
        ∃ tolerant part, Placeholder.resolve reading bindings tolerant part = .error e := by
      obtain ⟨⟨name, part⟩, hmem, hentry⟩ := mapM_error h
      refine ih (sizeOf part) ?_ (hchange name) (bind_pure_eq_error.mp hentry) rfl
      have hpair : sizeOf (name, part) = 1 + sizeOf name + sizeOf part := rfl
      have hlt := List.sizeOf_lt_of_mem hmem
      omega
    cases hpass with
    | resolve tolerant => exact ⟨tolerant, value, h⟩
    | steps =>
      cases value with
      | list items =>
        have hitems := bind_pure_eq_error.mp h
        rw [resolveItems_eq_mapM] at hitems
        obtain ⟨item, hmem, hitem⟩ := mapM_error hitems
        refine ih (sizeOf item) ?_ .steps hitem rfl
        have hlist := Value.list.sizeOf_spec items
        have hlt := List.sizeOf_lt_of_mem hmem
        omega
      | object entries =>
        have hparams := bind_pure_eq_error.mp h
        rw [resolveParams_eq_mapM] at hparams
        exact hentries under (Value.object.sizeOf_spec entries) hparams
      | null => exact ⟨false, _, h⟩
      | bool flag => exact ⟨false, _, h⟩
      | number n => exact ⟨false, _, h⟩
      | string text => exact ⟨false, _, h⟩
    | sources =>
      cases value with
      | object params =>
        have hsources := bind_pure_eq_error.mp h
        rw [resolveSources_eq_mapM] at hsources
        exact hentries source (Value.object.sizeOf_spec params) hsources
      | null => exact ⟨false, _, h⟩
      | bool flag => exact ⟨false, _, h⟩
      | number n => exact ⟨false, _, h⟩
      | string text => exact ⟨false, _, h⟩
      | list items => exact ⟨false, _, h⟩
    | recipe =>
      cases value with
      | object recipe =>
        exact hentries recipePart (Value.object.sizeOf_spec recipe) (bind_pure_eq_error.mp h)
      | null => exact ⟨false, _, h⟩
      | bool flag => exact ⟨false, _, h⟩
      | number n => exact ⟨false, _, h⟩
      | string text => exact ⟨false, _, h⟩
      | list items => exact ⟨false, _, h⟩

end Pass

end Placeholder

end TableRecipe
