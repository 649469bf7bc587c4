import TableRecipe.Proofs.Placeholder.Consults
import TableRecipe.Proofs.Placeholder.Places

/-!
# Bindings that are applied one after the other

What lies within a matrix or a hook is resolved several times, names without a value being tolerated
until the last time. Several bindings make the same of a value if they agree, each time, on the
names that it consults by then.

* `Placeholder.resolvedUnder` — a value to which several bindings were applied;
* `Placeholder.resolvedUnder_congr` — bindings that agree on what is consulted, each time;
* `Placeholder.resolvedUnder_object_congr` — a mapping of which all entries but one resolve to the
  same values.
-/

namespace TableRecipe.Placeholder

variable {reading : Reading} {bindings bindings' : Fields} {tolerant : Bool} {value : Value}

/-- a value to which several bindings were applied, the first ones first; names without a value stay
as they are -/
def resolvedUnder (reading : Reading) : (passes : List Fields) → Value → Except Error Value
  | [], value => .ok value
  | bindings :: rest, value => do
    resolvedUnder reading rest (← resolve reading bindings true value)

/-- bindings agree, one pair after the other, on the names that a value consults and on those that
it consults when the earlier bindings were applied -/
def AgreeAlong (reading : Reading) : (passes : List (Fields × Fields)) → Value → Prop
  | [], _ => True
  | (bindings, bindings') :: rest, value =>
    AgreeOnConsulted reading bindings bindings' value ∧
      ∀ value', resolve reading bindings true value = .ok value' → AgreeAlong reading rest value'

theorem resolvedUnder_congr {passes : List (Fields × Fields)}
    (hagree : AgreeAlong reading passes value) :
    resolvedUnder reading (passes.map (·.1)) value =
      resolvedUnder reading (passes.map (·.2)) value := by
  induction passes generalizing value with
  | nil => rfl
  | cons pair rest ih =>
    obtain ⟨bindings, bindings'⟩ := pair
    obtain ⟨hfirst, hrest⟩ := hagree
    rw [List.map_cons, List.map_cons, resolvedUnder, resolvedUnder,
      ← resolve_congr true hfirst]
    rcases hvalue : resolve reading bindings true value with e | value'
    · rfl
    · exact ih (hrest value' hvalue)

/-! ## Entries -/

/-- entries whose values are changed one by one -/
def changeValues (change : Value → Except Error Value) (entries : Fields) : Except Error Fields :=
  entries.mapM fun entry => return (entry.1, ← change entry.2)

theorem changeValues_error {change : Value → Except Error Value} {entries : Fields} {e : Error}
    (h : changeValues change entries = .error e) :
    ∃ entry ∈ entries, change entry.2 = .error e := by
  obtain ⟨entry, hmem, hentry⟩ := mapM_error h
  refine ⟨entry, hmem, ?_⟩
  rcases hvalue : change entry.2 with e' | value <;> rw [hvalue] at hentry
  · obtain rfl := Except.error.inj hentry
    rfl
  · cases hentry

theorem resolve_object (entries : Fields) :
    resolve reading bindings tolerant (.object entries) =
      changeValues (resolve reading bindings tolerant) entries >>= fun entries =>
        pure (.object entries) := by
  change Value.replaceTexts _ _ = _
  rw [Value.replaceTexts, Value.replaceInEntries_eq_mapM]
  rfl

/-- Entries are resolved one by one; if that fails, then because one of them fails. -/
theorem resolvedUnder_object (reading : Reading) (passes : List Fields) (entries : Fields) :
    (∃ entries', resolvedUnder reading passes (.object entries) = .ok (.object entries') ∧
      changeValues (resolvedUnder reading passes) entries = .ok entries') ∨
    ∃ e, resolvedUnder reading passes (.object entries) = .error e ∧
      ∃ entry ∈ entries, resolvedUnder reading passes entry.2 = .error e := by
  induction passes generalizing entries with
  | nil =>
    refine .inl ⟨entries, rfl, ?_⟩
    exact List.mapM_pure.trans (congrArg Except.ok (List.map_id entries))
  | cons bindings passes ih =>
    rw [resolvedUnder, resolve_object]
    -- the first bindings decide first, for all entries
    rcases hfirst : changeValues (resolve reading bindings true) entries with e | middle
    · obtain ⟨entry, hmem, hentry⟩ := changeValues_error hfirst
      exact .inr ⟨e, rfl, entry, hmem, by rw [resolvedUnder, hentry]; rfl⟩
    · rcases ih middle with ⟨entries', hrest, hentries⟩ | ⟨e, hrest, entry, hmem, he⟩
      · refine .inl ⟨entries', hrest, ?_⟩
        have hboth := mapM_bind hfirst hentries
        simpa only [changeValues, resolvedUnder, bind_assoc, pure_bind] using hboth
      · obtain ⟨origin, horigin, hentry⟩ := mem_of_mapM hfirst hmem
        obtain ⟨value, hvalue, hpure⟩ := bind_eq_ok.mp hentry
        obtain rfl := pure_eq_ok.mp hpure
        exact .inr ⟨e, hrest, origin, horigin, by rw [resolvedUnder, hvalue]; exact he⟩

theorem changeValues_ok {change : Value → Except Error Value} {entries entries' : Fields}
    (h : changeValues change entries = .ok entries') :
    ∀ entry ∈ entries, ∃ value, change entry.2 = .ok value := by
  intro entry hmem
  obtain ⟨position, hposition⟩ := List.mem_iff_getElem?.mp hmem
  obtain ⟨_, -, hentry⟩ := (mapM_ok h).2 position entry hposition
  obtain ⟨value, hvalue, -⟩ := bind_eq_ok.mp hentry
  exact ⟨value, hvalue⟩

/-- What is found under a name is what the value there was changed to. -/
theorem find?_changeValues {change : Value → Except Error Value} {entries entries' : Fields}
    {key : String} (h : changeValues change entries = .ok entries') :
    (Fields.find? key entries = none ∧ Fields.find? key entries' = none) ∨
    ∃ value value', Fields.find? key entries = some value ∧
      Fields.find? key entries' = some value' ∧ change value = .ok value' := by
  induction entries generalizing entries' with
  | nil =>
    obtain rfl := Except.ok.inj h
    exact .inl ⟨rfl, rfl⟩
  | cons entry rest ih =>
    rw [changeValues, List.mapM_cons] at h
    obtain ⟨entry', hentry, h⟩ := bind_eq_ok.mp h
    obtain ⟨rest', hrest, h⟩ := bind_eq_ok.mp h
    obtain rfl := pure_eq_ok.mp h
    obtain ⟨value', hvalue, hpure⟩ := bind_eq_ok.mp hentry
    obtain rfl := pure_eq_ok.mp hpure
    by_cases hkey : entry.1 = key
    · refine .inr ⟨entry.2, value', ?_, ?_, hvalue⟩ <;> simp [Fields.find?, hkey]
    · simpa [Fields.find?, hkey] using ih hrest

/-- What is found under a name is what the value there resolves to. -/
theorem find?_resolvedUnder {passes : List Fields} {entries entries' : Fields} (key : String)
    (h : resolvedUnder reading passes (.object entries) = .ok (.object entries')) :
    (Fields.find? key entries = none ∧ Fields.find? key entries' = none) ∨
    ∃ value value', Fields.find? key entries = some value ∧
      Fields.find? key entries' = some value' ∧ resolvedUnder reading passes value = .ok value' := by
  rcases resolvedUnder_object reading passes entries with
    ⟨found, hfound, hentries⟩ | ⟨e, hfound, -⟩ <;> rw [h] at hfound
  · obtain rfl := Value.object.inj (Except.ok.inj hfound)
    exact find?_changeValues hentries
  · cases hfound

/-- all entries but those that hold a document resolve to the same values -/
def OthersAlike (reading : Reading) (passes passes' : List Fields) (key : String) (document : Value)
    (entries : Fields) : Prop :=
  ∀ entry ∈ entries, entry = (key, document) ∨
    ∃ value, resolvedUnder reading passes entry.2 = .ok value ∧
      resolvedUnder reading passes' entry.2 = .ok value

/-- Entries resolve alike if the document among them does, and the others resolve to the same
values. -/
theorem resolvedUnder_object_congr {passes passes' : List Fields} {key : String} {document : Value}
    {entries : Fields} (hothers : OthersAlike reading passes passes' key document entries)
    (hdocument : resolvedUnder reading passes document = resolvedUnder reading passes' document) :
    resolvedUnder reading passes (.object entries) =
      resolvedUnder reading passes' (.object entries) := by
  have halike : ∀ entry ∈ entries,
      resolvedUnder reading passes entry.2 = resolvedUnder reading passes' entry.2 := by
    intro entry hmem
    rcases hothers entry hmem with rfl | ⟨value, hfirst, hsecond⟩
    · exact hdocument
    · rw [hfirst, hsecond]
  -- only the document can fail
  have hfails : ∀ entry ∈ entries, ∀ e, resolvedUnder reading passes entry.2 = .error e →
      resolvedUnder reading passes document = .error e := by
    intro entry hmem e he
    rcases hothers entry hmem with rfl | ⟨value, hfirst, -⟩
    · exact he
    · rw [hfirst] at he
      cases he
  have hchange : changeValues (resolvedUnder reading passes) entries =
      changeValues (resolvedUnder reading passes') entries :=
    mapM_congr fun entry hmem => by rw [halike entry hmem]
  rcases resolvedUnder_object reading passes entries with
    ⟨first, hfirst, hentries⟩ | ⟨e, hfirst, entry, hmem, he⟩ <;>
  rcases resolvedUnder_object reading passes' entries with
    ⟨second, hsecond, hentries'⟩ | ⟨e', hsecond, entry', hmem', he'⟩ <;>
  rw [hfirst, hsecond]
  · rw [hchange, hentries'] at hentries
    rw [Except.ok.inj hentries]
  · obtain ⟨value, hvalue⟩ := changeValues_ok hentries entry' hmem'
    rw [halike entry' hmem', he'] at hvalue
    cases hvalue
  · obtain ⟨value, hvalue⟩ := changeValues_ok hentries' entry hmem
    rw [← halike entry hmem, he] at hvalue
    cases hvalue
  · have hfirst' := hfails entry hmem e he
    rw [← halike entry' hmem'] at he'
    rw [hfails entry' hmem' e' he'] at hfirst'
    rw [Except.error.inj hfirst']

end TableRecipe.Placeholder
