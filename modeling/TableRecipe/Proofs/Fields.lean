import TableRecipe.Value

/-!
# Looking up in mappings

What is found under a name after entries were taken away, inserted or put over others.

* `Fields.find?_filter`, `Fields.find?_insert`, `Fields.find?_extend` — look-up after a change;
* `Fields.ofPairs_of_nodup` — names that do not repeat stand as they are;
* `Fields.length_lt_of_bound` — how many names can have a value.
-/

namespace TableRecipe.Fields

variable {name key : String} {value : Value} {fields more pairs : Fields}

/-- Entries that are kept by their names are found as before. -/
theorem find?_filter {keeps : String → Bool} :
    find? name (fields.filter fun (key, _) => keeps key) =
      if keeps name then find? name fields else none := by
  induction fields with
  | nil => simp [find?]
  | cons entry rest ih =>
    obtain ⟨key, value⟩ := entry
    by_cases hkey : key = name
    · subst hkey
      by_cases hkeeps : keeps key
      · simp [hkeeps, find?]
      · simpa [List.filter_cons, hkeeps] using ih
    · by_cases hkeeps : keeps key
      · simpa [List.filter_cons, hkeeps, find?, hkey] using ih
      · simpa [List.filter_cons, hkeeps, find?, hkey] using ih

theorem find?_without {names : List String} :
    find? name (fields.without names) = if name ∈ names then none else find? name fields := by
  rw [without, @find?_filter name fields fun key => !names.contains key]
  by_cases hname : name ∈ names <;> simp [hname]

theorem find?_insert :
    find? name (insert key value fields) =
      if key = name then some value else find? name fields := by
  induction fields with
  | nil => rfl
  | cons entry rest ih =>
    obtain ⟨first, old⟩ := entry
    by_cases hfirst : first = key
    · by_cases hname : key = name <;> simp [insert, find?, hfirst, hname]
    · by_cases hname : first = name
      · have hkey : key ≠ name := fun e => hfirst (hname.trans e.symm)
        simp [insert, find?, hname, hkey, hkey.symm]
      · simp [insert, find?, hfirst, hname, ih]

/-- What is put over other entries is found first. -/
theorem find?_extend :
    find? name (extend fields more) = (find? name (ofPairs more)).or (find? name fields) := by
  simp only [ofPairs, extend]
  induction more generalizing fields with
  | nil => rfl
  | cons entry rest ih =>
    obtain ⟨key, value⟩ := entry
    rw [List.foldl_cons, List.foldl_cons, ih, @ih (insert key value []), find?_insert,
      find?_insert, Option.or_assoc]
    congr 1
    by_cases hkey : key = name <;> simp [hkey, find?]

theorem find?_ofPairs_of_none {pairs : List (String × Value)} (h : find? name pairs = none) :
    find? name (ofPairs pairs) = none := by
  induction pairs with
  | nil => rfl
  | cons entry rest ih =>
    obtain ⟨key, value⟩ := entry
    by_cases hkey : key = name
    · simp [find?, hkey] at h
    · have hrest : find? name rest = none := by simpa [find?, hkey] using h
      change find? name (extend (insert key value []) rest) = none
      rw [find?_extend, ih hrest, find?_insert, if_neg hkey]
      rfl

/-- What is found is the value of an entry. -/
theorem mem_of_find? (h : find? name fields = some value) : (name, value) ∈ fields := by
  induction fields with
  | nil => cases h
  | cons entry rest ih =>
    obtain ⟨key, first⟩ := entry
    by_cases hkey : key = name
    · obtain rfl : first = value := by simpa [find?, hkey] using h
      rw [hkey]
      exact List.mem_cons_self ..
    · exact List.mem_cons_of_mem _ (ih (by simpa [find?, hkey] using h))

/-- Different names that have values are no more than the entries; with one name to spare they are
fewer. -/
theorem length_lt_of_bound {names : List String} (hdistinct : names.Nodup)
    (hbound : ∀ other ∈ name :: names, (find? other fields).isSome) (hname : name ∉ names) :
    names.length < fields.length := by
  have hsubset : name :: names ⊆ fields.map (·.1) := by
    intro other hmem
    obtain ⟨value, hvalue⟩ := Option.isSome_iff_exists.mp (hbound other hmem)
    exact List.mem_map_of_mem (mem_of_find? hvalue)
  have hlength := (List.nodup_cons.mpr ⟨hname, hdistinct⟩).length_le_of_subset hsubset
  rw [List.length_map] at hlength
  exact hlength

theorem mem_names_insert : name ∈ (insert key value fields).names ↔ name = key ∨ name ∈ fields.names := by
  induction fields with
  | nil => simp [insert, names]
  | cons entry rest ih =>
    obtain ⟨first, old⟩ := entry
    by_cases hfirst : first = key
    · simp [insert, names, hfirst]
    · rw [names] at ih
      simp only [insert, hfirst, if_false, names, List.map_cons, List.mem_cons, ih]
      exact or_left_comm

theorem mem_names_extend :
    name ∈ (extend fields more).names ↔ name ∈ fields.names ∨ name ∈ more.names := by
  induction more generalizing fields with
  | nil => simp [extend, names]
  | cons entry rest ih =>
    obtain ⟨key, value⟩ := entry
    change name ∈ (extend (insert key value fields) rest).names ↔ _
    rw [ih, mem_names_insert, or_comm (a := name = key), or_assoc]
    simp [names]

theorem ofPairs_append : ofPairs (fields ++ more) = extend (ofPairs fields) more :=
  List.foldl_append

/-- Inserting entries keeps names from being repeated. -/
theorem nodup_names_insert (h : fields.names.Nodup) : (insert key value fields).names.Nodup := by
  induction fields with
  | nil => simp [insert, names]
  | cons entry rest ih =>
    obtain ⟨first, old⟩ := entry
    obtain ⟨hnew, hrest⟩ := List.nodup_cons.mp h
    by_cases hfirst : first = key
    · rw [insert, if_pos hfirst]
      exact hfirst ▸ h
    · rw [insert, if_neg hfirst]
      refine List.nodup_cons.mpr ⟨fun hmem => ?_, ih hrest⟩
      rcases mem_names_insert.mp hmem with hkey | hmem
      · exact hfirst hkey
      · exact hnew hmem

theorem nodup_names_extend (h : fields.names.Nodup) : (extend fields more).names.Nodup := by
  induction more generalizing fields with
  | nil => exact h
  | cons entry rest ih => exact ih (nodup_names_insert h)

theorem nodup_names_ofPairs : (ofPairs pairs).names.Nodup := nodup_names_extend List.nodup_nil

theorem insert_of_not_mem (h : key ∉ fields.names) :
    insert key value fields = fields ++ [(key, value)] := by
  induction fields with
  | nil => rfl
  | cons entry rest ih =>
    obtain ⟨first, old⟩ := entry
    obtain ⟨hfirst, hrest⟩ := List.ne_and_not_mem_of_not_mem_cons h
    rw [insert, if_neg (Ne.symm hfirst), ih hrest]
    rfl

/-- New names that do not repeat go behind those there are, in their order. -/
theorem extend_of_nodup (h : (fields.names ++ pairs.names).Nodup) :
    extend fields pairs = fields ++ pairs := by
  induction pairs generalizing fields with
  | nil => simp [extend]
  | cons entry rest ih =>
    obtain ⟨key, value⟩ := entry
    have hkey : key ∉ fields.names := fun hmem =>
      (List.nodup_append.mp h).2.2 key hmem key (List.mem_cons_self ..) rfl
    have hnext : (names (fields ++ [(key, value)]) ++ names rest).Nodup := by
      simpa [names] using h
    change extend (insert key value fields) rest = _
    rw [insert_of_not_mem hkey, ih hnext]
    simp

theorem ofPairs_of_nodup (h : pairs.names.Nodup) : ofPairs pairs = pairs :=
  @extend_of_nodup [] pairs h

end TableRecipe.Fields
