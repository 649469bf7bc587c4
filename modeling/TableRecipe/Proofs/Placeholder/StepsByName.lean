import TableRecipe.Proofs.Placeholder.Influence
import TableRecipe.Proofs.Placeholder.ResolvedUnder

/-!
# Steps that stand for a name

The entries of a section may be given by a name to which they are bound in writing. They are then
resolved as every value is that a name stands for, not as entries: unknown names are not tolerated
anywhere in them, also where they will only be known when the entries run. Apart from that it makes
no difference whether the entries stand in the section or are bound to a name.

* `Placeholder.resolveWithin_apart` — names that are open make no difference to a value that does
  not come back to them;
* `Placeholder.DeferredLacks` — whether a name without a value is consulted where entries are
  resolved again;
* `Placeholder.resolveSteps_byName` — entries by name, and the entries themselves;
* `Placeholder.resolveRecipe_byName` — the same for a recipe with such a section.
-/

namespace TableRecipe.Placeholder

variable {reading : Reading} {bindings : Fields} {tolerant : Bool} {opened opened' : List String}
  {value part parsed steps bound result : Value} {place : List Nat} {name text : String}
  {chain : List String} {free free' : Nat}

/-! ## Open names -/

/-- To resolve what a name stands for opens the name, if it is not open yet. -/
theorem expand_of_not_mem (h : name ∉ opened) :
    expand reading bindings tolerant (free + 1) opened name parsed =
      resolveWithin reading bindings tolerant free (opened ++ [name]) parsed := by
  rw [expand, if_neg (mt List.contains_iff_mem.mp h)]
  rfl

/-- names that are open where a value is resolved that does not come back to them: they have values,
enough names are left to be opened, and no chain of names from the value repeats one of them or of
its own -/
structure Clear (reading : Reading) (bindings : Fields) (free : Nat) (opened : List String)
    (value : Value) : Prop where
  isSome : ∀ other ∈ opened, (Fields.find? other bindings).isSome
  length_le : bindings.length ≤ free + opened.length
  nodup : ∀ chain, Chain reading bindings value chain → (opened ++ chain).Nodup

theorem clear_of_not_circular (h : ¬Circular reading bindings value) :
    Clear reading bindings bindings.length [] value where
  isSome := nofun
  length_le := Nat.le_refl _
  nodup chain hchain := Decidable.byContradiction fun hrepeats => h ⟨chain, hchain, hrepeats⟩

/-- Where a value opens a name, the name is not open yet, and what it stands for does not come back
to it either. -/
theorem Clear.opens (h : Clear reading bindings free opened value)
    (hopens : Opens reading bindings value name parsed) :
    name ∉ opened ∧ ∃ left, free = left + 1 ∧
      Clear reading bindings left (opened ++ [name]) parsed := by
  have hfirst : (opened ++ [name]).Nodup := h.nodup [name] (.cons hopens (.nil _))
  have hnew : name ∉ opened := fun hmem =>
    (List.nodup_append.mp hfirst).2.2 name hmem name (List.mem_singleton_self _) rfl
  have hlength := Fields.length_lt_of_bound (List.nodup_append.mp hfirst).1
    (List.forall_mem_cons.mpr ⟨hopens.isSome, h.isSome⟩) hnew
  have henough := h.length_le
  refine ⟨hnew, free - 1, by omega, ?_, ?_, fun chain hchain => ?_⟩
  · exact List.forall_mem_append.mpr ⟨h.isSome, List.forall_mem_singleton.mpr hopens.isSome⟩
  · rw [List.length_append, List.length_singleton]
    omega
  · rw [List.append_assoc, List.singleton_append]
    exact h.nodup (name :: chain) (.cons hopens hchain)

/-- The names that are open make no difference to a value that does not come back to them. -/
theorem resolveWithin_apart (h : Clear reading bindings free opened value)
    (h' : Clear reading bindings free' opened' value) :
    resolveWithin reading bindings tolerant free opened value =
      resolveWithin reading bindings tolerant free' opened' value := by
  induction free using Nat.strongRecOn generalizing free' opened opened' value with
  | ind free ih =>
    refine Value.replaceTexts_congr value fun text htext => ?_
    cases kind reading bindings text with
    | mixed hwhole => rw [resolveText_mixed hwhole, resolveText_mixed hwhole]
    | unbound name hwhole hfind =>
      rw [resolveText_unbound hwhole hfind, resolveText_unbound hwhole hfind]
    | plain name bound hwhole hfind hwritten =>
      rw [resolveText_plain hwhole hfind hwritten, resolveText_plain hwhole hfind hwritten]
    | written name bound parsed hwhole hfind hwritten =>
      rw [resolveText_written hwhole hfind hwritten, resolveText_written hwhole hfind hwritten]
      have hopens : Opens reading bindings value (String.ofList name) parsed :=
        .intro htext hwhole hfind hwritten
      obtain ⟨hnew, left, rfl, hleft⟩ := h.opens hopens
      obtain ⟨hnew', left', rfl, hleft'⟩ := h'.opens hopens
      rw [expand_of_not_mem hnew, expand_of_not_mem hnew']
      exact ih left (Nat.lt_succ_self left) hleft hleft'

/-! ## Chains through a name -/

theorem Opens.parsed_eq (hopens : Opens reading bindings value name parsed)
    (hfind : Fields.find? name bindings = some bound)
    (hwritten : written? reading bound = some steps) : parsed = steps := by
  obtain ⟨-, -, hfind', hwritten'⟩ := hopens
  obtain rfl := Option.some.inj (hfind.symm.trans hfind')
  exact Option.some.inj (hwritten'.symm.trans hwritten)

theorem Opens.of_at? (hpart : value.at? place = some part)
    (h : Opens reading bindings part name parsed) : Opens reading bindings value name parsed := by
  obtain ⟨htext, hwhole, hfind, hwritten⟩ := h
  exact .intro (Value.texts_subset_of_at? hpart htext) hwhole hfind hwritten

/-- A value with a circular part is circular. -/
theorem Circular.of_at? (hpart : value.at? place = some part) (h : Circular reading bindings part) :
    Circular reading bindings value := by
  obtain ⟨chain, hchain, hrepeats⟩ := h
  cases hchain with
  | nil => exact absurd List.nodup_nil hrepeats
  | cons hopens hrest => exact ⟨_, .cons (hopens.of_at? hpart) hrest, hrepeats⟩

theorem Chain.left {before after : List String}
    (h : Chain reading bindings value (before ++ after)) : Chain reading bindings value before := by
  induction before generalizing value with
  | nil => exact .nil _
  | cons first before ih =>
    cases h with
    | cons hopens hrest => exact .cons hopens (ih hrest)

/-- A chain that ends in a name goes on with every chain from what the name stands for. -/
theorem Chain.goesOn {before rest : List String}
    (h : Chain reading bindings value (before ++ [name]))
    (hfind : Fields.find? name bindings = some bound)
    (hwritten : written? reading bound = some steps) (hrest : Chain reading bindings steps rest) :
    Chain reading bindings value (before ++ name :: rest) := by
  induction before generalizing value with
  | nil =>
    cases h with
    | cons hopens _ =>
      obtain rfl := hopens.parsed_eq hfind hwritten
      exact .cons hopens hrest
  | cons first before ih =>
    cases h with
    | cons hopens hinner => exact .cons hopens (ih hinner)

section

variable {v : List Char} (hwhole : whole? text.toList = some v)
  (hfind : Fields.find? (String.ofList v) bindings = some bound)
  (hwritten : written? reading bound = some steps)
include hwhole hfind hwritten

theorem opens_byName : Opens reading bindings (.string text) (String.ofList v) steps :=
  .intro (List.mem_singleton_self text) hwhole hfind hwritten

/-- A name is circular if and only if what it stands for is. -/
theorem circular_byName_iff :
    Circular reading bindings (.string text) ↔ Circular reading bindings steps := by
  have hopens : Opens reading bindings (.string text) (String.ofList v) steps :=
    opens_byName hwhole hfind hwritten
  constructor
  · rintro ⟨chain, hchain, hrepeats⟩
    cases hchain with
    | nil => exact absurd List.nodup_nil hrepeats
    | @cons _ parsed first rest hfirst hrest =>
      obtain rfl : first = String.ofList v := by
        obtain ⟨htext, hwhole', -, -⟩ := hfirst
        obtain rfl := List.mem_singleton.mp htext
        rw [Option.some.inj (hwhole'.symm.trans hwhole)]
      obtain rfl := hfirst.parsed_eq hfind hwritten
      by_cases hmem : String.ofList v ∈ rest
      · -- the chain up to the name leads to the entries, so it can be followed twice
        obtain ⟨before, after, rfl⟩ := List.append_of_mem hmem
        rw [← List.singleton_append, ← List.append_assoc] at hrest
        have honce : Chain reading bindings parsed (before ++ [String.ofList v]) := hrest.left
        refine ⟨_, honce.goesOn hfind hwritten honce, fun hnodup => ?_⟩
        have htwice := (List.nodup_append.mp hnodup).2.1
        exact (List.nodup_cons.mp htwice).1 (by simp)
      · exact ⟨rest, hrest, fun hnodup => hrepeats (List.nodup_cons.mpr ⟨hmem, hnodup⟩)⟩
  · rintro ⟨chain, hchain, hrepeats⟩
    exact ⟨_, .cons hopens hchain, fun hnodup => hrepeats (List.nodup_cons.mp hnodup).2⟩

/-- A name resolves to what the value resolves to that it stands for, unless that is circular. -/
theorem resolve_byName (hcircular : ¬Circular reading bindings steps) :
    resolve reading bindings tolerant (.string text) = resolve reading bindings tolerant steps := by
  have hname : ¬Circular reading bindings (.string text) :=
    mt (circular_byName_iff hwhole hfind hwritten).mp hcircular
  obtain ⟨hnew, left, hleft, hclear⟩ :=
    (clear_of_not_circular hname).opens (opens_byName hwhole hfind hwritten)
  calc resolve reading bindings tolerant (.string text)
      = expand reading bindings tolerant bindings.length [] (String.ofList v) steps :=
        resolveText_written hwhole hfind hwritten
    _ = resolveWithin reading bindings tolerant left ([] ++ [String.ofList v]) steps := by
        rw [hleft, expand_of_not_mem hnew]
    _ = resolve reading bindings tolerant steps :=
        resolveWithin_apart hclear (clear_of_not_circular hcircular)

end

/-! ## Entries -/

/-- whether a name without a value is consulted where the entries of a section are resolved again -/
def DeferredLacks (reading : Reading) (bindings : Fields) (steps : Value) : Prop :=
  ∃ place part, DeferredIn steps place ∧ steps.at? place = some part ∧
    ConsultsUnbound reading bindings part

theorem DeferredLacks.consultsUnbound (h : DeferredLacks reading bindings steps) :
    ConsultsUnbound reading bindings steps := by
  obtain ⟨place, part, -, hpart, name, hname, hfind⟩ := h
  exact ⟨name, hname.of_at? hpart, hfind⟩

/-- Without names that have no value it makes no difference whether they are tolerated. -/
theorem resolve_lenient (hcircular : ¬Circular reading bindings value)
    (hbound : ¬ConsultsUnbound reading bindings value) :
    resolve reading bindings true value = resolve reading bindings false value := by
  rcases hstrict : resolve reading bindings false value with e | result
  · rcases circular_or_unbound hstrict with h | ⟨-, h⟩
    · exact absurd h hcircular
    · exact absurd h hbound
  · exact resolve_tolerates hstrict

/-- Entries that are resolved in one way throughout are resolved as any value is. -/
theorem resolveEntries_self (value : Value) :
    resolveEntries (resolve reading bindings tolerant) (resolve reading bindings tolerant)
        value = resolve reading bindings tolerant value ∧
      resolveCombined (resolve reading bindings tolerant) (resolve reading bindings tolerant)
        value = resolve reading bindings tolerant value := by
  induction value using Value.ind_parts with
  | h value ih =>
    cases value with
    | list items =>
      refine ⟨?_, rfl⟩
      change _ = Value.replaceTexts _ _
      rw [resolveEntries, resolveItems_eq_mapM, Value.replaceTexts, Value.replaceInItems_eq_mapM]
      exact congrArg (· >>= _) (mapM_congr fun item hmem => (ih item hmem).1)
    | object entries =>
      have hparams : ∀ entry ∈ entries, resolveUnder (resolve reading bindings tolerant)
          (resolve reading bindings tolerant) entry.1 entry.2 =
            resolve reading bindings tolerant entry.2 := by
        intro entry hmem
        have hcombined := (ih entry.2 (List.mem_map_of_mem hmem)).2
        simp [resolveUnder, hcombined]
      have hsources : ∀ entry ∈ entries, resolveSource (resolve reading bindings tolerant)
          (resolve reading bindings tolerant) entry.1 entry.2 =
            resolve reading bindings tolerant entry.2 := by
        intro entry hmem
        have hentries := (ih entry.2 (List.mem_map_of_mem hmem)).1
        simp [resolveSource, hentries]
      rw [resolve_object, changeValues]
      constructor
      · rw [resolveEntries, resolveParams_eq_mapM]
        refine congrArg (· >>= _) (mapM_congr ?_)
        rintro ⟨key, params⟩ hmem
        exact congrArg (· >>= _) (hparams (key, params) hmem)
      · rw [resolveCombined, resolveSources_eq_mapM]
        refine congrArg (· >>= _) (mapM_congr ?_)
        rintro ⟨key, source⟩ hmem
        exact congrArg (· >>= _) (hsources (key, source) hmem)
    | _ => exact ⟨rfl, rfl⟩

/-- Entries are resolved as any value is, if no name without a value is consulted where they are
resolved again. -/
theorem resolveSteps_eq_resolve (hcircular : ¬Circular reading bindings steps)
    (hlacks : ¬DeferredLacks reading bindings steps) :
    resolveSteps reading bindings steps = resolve reading bindings false steps := by
  have hlenient : ∀ place part, DeferredIn steps place → steps.at? place = some part →
      resolve reading bindings true part = resolve reading bindings false part := by
    intro place part hplace hpart
    refine resolve_lenient (fun h => hcircular (h.of_at? hpart)) fun h => ?_
    exact hlacks ⟨place, part, hplace, hpart, h⟩
  exact ((resolveEntries_congr steps fun _ _ _ => rfl).1 hlenient).trans
    (resolveEntries_self steps).1

/-- Circular entries cannot be resolved. -/
theorem resolveSteps_ne_ok (hcircular : Circular reading bindings steps) :
    resolveSteps reading bindings steps ≠ .ok result := by
  intro hok
  obtain ⟨e, he⟩ : ∃ e, resolve reading bindings true steps = .error e :=
    resolve_fails_of_circular hcircular
  rw [(((spares_sections steps).1 result).mp hok).1] at he
  cases he

/-! ## Entries by name -/

section

variable {v : List Char} (hwhole : whole? text.toList = some v)
  (hfind : Fields.find? (String.ofList v) bindings = some bound)
  (hwritten : written? reading bound = some steps)
include hwhole hfind hwritten

/-- Entries come out alike by name and by themselves if they are not circular, and consult no name
without a value where they are resolved again. -/
theorem resolveSteps_byName (hcircular : ¬Circular reading bindings steps)
    (hlacks : ¬DeferredLacks reading bindings steps) :
    resolveSteps reading bindings (.string text) = resolveSteps reading bindings steps :=
  (resolve_byName hwhole hfind hwritten hcircular).trans
    (resolveSteps_eq_resolve hcircular hlacks).symm

/-- Circular entries cannot be resolved by name either. -/
theorem resolveSteps_byName_ne_ok (hcircular : Circular reading bindings steps) :
    resolveSteps reading bindings (.string text) ≠ .ok result :=
  resolveSteps_ne_ok ((circular_byName_iff hwhole hfind hwritten).mpr hcircular)

/-- Entries that consult names without a value fail by name for one of these, unless they are
circular. -/
theorem resolveSteps_byName_error (hcircular : ¬Circular reading bindings steps)
    (hunbound : ConsultsUnbound reading bindings steps) :
    ∃ name, Consults reading bindings steps name ∧
      Fields.find? (String.ofList name) bindings = none ∧
      resolveSteps reading bindings (.string text) =
        .error (.of (.unknownVariable (String.ofList name))) := by
  obtain ⟨e, he⟩ : ∃ e, resolve reading bindings false steps = .error e := hunbound.fails
  have hname : resolveSteps reading bindings (.string text) = .error e :=
    (resolve_byName hwhole hfind hwritten hcircular).trans he
  cases resolve_error he with
  | @cycle before name hchain hdistinct hmem =>
    refine absurd ⟨before ++ [name], hchain, fun hnodup => ?_⟩ hcircular
    exact (List.nodup_append.mp hnodup).2.2 name hmem name (List.mem_singleton_self _) rfl
  | unbound _ hconsults hnone => exact ⟨_, hconsults, hnone, hname⟩

end

/-! ## Recipes -/

/-- A recipe with a section of entries is resolved section by section. -/
theorem resolveRecipe_around {key : String} (hkey : key ∈ sections) (before after : Fields)
    (body : Value) :
    resolveRecipe reading bindings (.object (before ++ (key, body) :: after)) = (do
      let before ← before.mapM fun (name, body) =>
        return (name, ← resolveSection reading bindings name body)
      let body ← resolveSteps reading bindings body
      let after ← after.mapM fun (name, body) =>
        return (name, ← resolveSection reading bindings name body)
      return .object (before ++ (key, body) :: after)) := by
  have hrun : key ≠ "run" := fun h => absurd hkey (by rw [h]; decide)
  have hbody : resolveSection reading bindings key body = resolveSteps reading bindings body := by
    rw [resolveSection, if_neg hrun, if_pos (List.contains_iff_mem.mpr hkey)]
  simp only [resolveRecipe, List.mapM_append, List.mapM_cons, hbody, bind_assoc, pure_bind]

theorem exists_resolveSteps_ok {key : String} {before after : Fields} {body : Value}
    (hkey : key ∈ sections)
    (h : resolveRecipe reading bindings (.object (before ++ (key, body) :: after)) = .ok result) :
    ∃ entries, resolveSteps reading bindings body = .ok entries := by
  rw [resolveRecipe_around hkey] at h
  obtain ⟨_, -, h⟩ := bind_eq_ok.mp h
  obtain ⟨entries, hentries, -⟩ := bind_eq_ok.mp h
  exact ⟨entries, hentries⟩

/-- A section that fails in place of one that did not fails the recipe. -/
theorem resolveRecipe_error {key : String} {before after : Fields} {body other : Value} {e : Error}
    (hkey : key ∈ sections)
    (h : resolveRecipe reading bindings (.object (before ++ (key, body) :: after)) = .ok result)
    (hother : resolveSteps reading bindings other = .error e) :
    resolveRecipe reading bindings (.object (before ++ (key, other) :: after)) = .error e := by
  rw [resolveRecipe_around hkey] at h ⊢
  obtain ⟨before', hbefore, -⟩ := bind_eq_ok.mp h
  rw [hbefore, hother]
  rfl

/-- **Steps that stand for a name.** Take a section of a recipe whose entries are bound in writing
to a name, and the recipe with the name in place of the entries. If the entries are not circular,
and consult no name without a value where they are resolved again, both recipes come out alike, in
failure as in success. If they consult one there, the recipe with the name cannot be resolved,
though the other one may be: it then fails for a name without a value. Circular entries fail in
both. -/
theorem resolveRecipe_byName {key : String} {v : List Char} {inner : String} (before after : Fields)
    (hkey : key ∈ sections) (hname : IsName v)
    (hfind : Fields.find? (String.ofList v) bindings = some (.string inner))
    (hwritten : structure? reading inner = some steps) :
    let byName := resolveRecipe reading bindings
      (.object (before ++ (key, .string (String.ofList (write v))) :: after))
    let asWritten := resolveRecipe reading bindings (.object (before ++ (key, steps) :: after))
    (¬Circular reading bindings steps → ¬DeferredLacks reading bindings steps →
      byName = asWritten) ∧
    (∀ resolved, byName = .ok resolved ↔
      asWritten = .ok resolved ∧ ¬DeferredLacks reading bindings steps) ∧
    (∀ resolved, asWritten = .ok resolved → DeferredLacks reading bindings steps →
      ∃ name, Consults reading bindings steps name ∧
        Fields.find? (String.ofList name) bindings = none ∧
        byName = .error (.of (.unknownVariable (String.ofList name)))) ∧
    (Circular reading bindings steps →
      (∃ e, byName = .error e) ∧ ∃ e, asWritten = .error e) := by
  intro byName asWritten
  have hwhole : whole? (String.ofList (write v)).toList = some v := by
    rw [String.toList_ofList, whole?_write hname]
  have hcircular_ne : Circular reading bindings steps → ∀ resolved,
      byName ≠ .ok resolved ∧ asWritten ≠ .ok resolved := by
    refine fun hcircular resolved => ⟨fun h => ?_, fun h => ?_⟩
    · obtain ⟨entries, hentries⟩ := exists_resolveSteps_ok hkey h
      exact resolveSteps_byName_ne_ok hwhole hfind hwritten hcircular hentries
    · obtain ⟨entries, hentries⟩ := exists_resolveSteps_ok hkey h
      exact resolveSteps_ne_ok hcircular hentries
  have halike : ¬Circular reading bindings steps → ¬DeferredLacks reading bindings steps →
      byName = asWritten := by
    intro hcircular hlacks
    simp only [byName, asWritten, resolveRecipe_around hkey]
    rw [resolveSteps_byName hwhole hfind hwritten hcircular hlacks]
  refine ⟨halike, fun resolved => ⟨fun h => ?_, fun ⟨h, hlacks⟩ => ?_⟩, ?_, fun hcircular => ?_⟩
  · have hcircular : ¬Circular reading bindings steps := fun hc => (hcircular_ne hc resolved).1 h
    have hlacks : ¬DeferredLacks reading bindings steps := by
      intro hlacks
      obtain ⟨name, -, -, herror⟩ :=
        resolveSteps_byName_error hwhole hfind hwritten hcircular hlacks.consultsUnbound
      obtain ⟨entries, hentries⟩ := exists_resolveSteps_ok hkey h
      rw [herror] at hentries
      cases hentries
    exact ⟨halike hcircular hlacks ▸ h, hlacks⟩
  · have hcircular : ¬Circular reading bindings steps := fun hc => (hcircular_ne hc resolved).2 h
    exact (halike hcircular hlacks).trans h
  · intro resolved h hlacks
    have hcircular : ¬Circular reading bindings steps := fun hc => (hcircular_ne hc resolved).2 h
    obtain ⟨name, hconsults, hnone, herror⟩ :=
      resolveSteps_byName_error hwhole hfind hwritten hcircular hlacks.consultsUnbound
    exact ⟨name, hconsults, hnone, resolveRecipe_error hkey h herror⟩
  · have hfails : ∀ outcome : Except Error Value, (∀ resolved, outcome ≠ .ok resolved) →
        ∃ e, outcome = .error e := by
      rintro (e | resolved) hne
      · exact ⟨e, rfl⟩
      · exact absurd rfl (hne resolved)
    exact ⟨hfails _ fun resolved => (hcircular_ne hcircular resolved).1,
      hfails _ fun resolved => (hcircular_ne hcircular resolved).2⟩

/-- a step in writing that names a column by a variable -/
def capitals : Fields :=
  [("steps", .string "[\x7b\"convert.case\": \x7b\"input\": \"$\x7bcolumn\x7d\"\x7d\x7d]"),
    ("column", .string "a")]

theorem resolveRecipe_byName_capitals :
    "wrangles" ∈ sections ∧ IsName "steps".toList ∧
    resolveRecipe readDocument capitals (.object [("wrangles", .string "$\x7bsteps\x7d")]) =
      .ok (.object [("wrangles",
        .list [.object [("convert.case", .object [("input", .string "a")])]])]) ∧
    ¬DeferredLacks readDocument capitals
      (.list [.object [("convert.case", .object [("input", .string "$\x7bcolumn\x7d")])]]) := by
  have hsections : "wrangles" ∈ sections := by decide
  have hname : IsName "steps".toList := by decide
  have hwritten : structure? readDocument
      "[\x7b\"convert.case\": \x7b\"input\": \"$\x7bcolumn\x7d\"\x7d\x7d]" =
      some (.list
        [.object [("convert.case", .object [("input", .string "$\x7bcolumn\x7d")])]]) := by
    decide +kernel
  have hok : resolveRecipe readDocument capitals
      (.object [("wrangles", .string "$\x7bsteps\x7d")]) =
      .ok (.object [("wrangles",
        .list [.object [("convert.case", .object [("input", .string "a")])]])]) := by
    decide +kernel
  have hfind : Fields.find? (String.ofList "steps".toList) capitals = some (.string _) := rfl
  obtain ⟨-, hiff, -, -⟩ := resolveRecipe_byName [] [] hsections hname hfind hwritten
  exact ⟨hsections, hname, hok, ((hiff _).mp hok).2⟩

/-- A matrix that binds a name to the values of a column is resolved where it stands in the section,
and fails where the section names it. -/
theorem matrix_lost_by_name :
    let steps : Value := .list [.object [("matrix", .object [
      ("variables", .object [("x", .list [.string "a"])]),
      ("wrangles", .list
        [.object [("convert.case", .object [("input", .string "$\x7bx\x7d")])]])])]]
    let bindings : Fields := [("v", .string ("[\x7b\"matrix\": \x7b\"variables\": " ++
      "\x7b\"x\": [\"a\"]\x7d, \"wrangles\": [\x7b\"convert.case\": " ++
      "\x7b\"input\": \"$\x7bx\x7d\"\x7d\x7d]\x7d\x7d]"))]
    (∃ inner, Fields.find? "v" bindings = some (.string inner) ∧
      structure? readDocument inner = some steps) ∧
    resolveRecipe readDocument bindings (.object [("wrangles", steps)]) =
      .ok (.object [("wrangles", steps)]) ∧
    resolveRecipe readDocument bindings (.object [("wrangles", .string "$\x7bv\x7d")]) =
      .error (.of (.unknownVariable "x")) :=
  ⟨⟨_, rfl, by decide +kernel⟩, by decide +kernel, by decide +kernel⟩

end TableRecipe.Placeholder
