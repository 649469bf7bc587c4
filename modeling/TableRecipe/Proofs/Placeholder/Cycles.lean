import TableRecipe.Proofs.Placeholder.ResolvedTwice

/-!
# Names that are bound to themselves

A list or mapping that is bound to a name in writing is opened when the name is all of a text, and
what is opened may open further names. A name that would be opened inside of itself is refused; so
no more names are open at a time than there are bindings, and every value is resolved or refused. It
is refused only for a chain of names that comes back to one of its own or, unless that is tolerated,
for a name without a value.

* `Placeholder.Chain` — names that are opened one inside of the other;
* `Placeholder.Circular` — whether such a chain comes back to one of its names;
* `Placeholder.wellFounded_calls` — resolution ends;
* `Placeholder.resolve_fails_iff` — when it fails.
-/

namespace TableRecipe.Placeholder

variable {reading : Reading} {bindings : Fields} {tolerant : Bool} {opened chain : List String}
  {value node parsed : Value} {items : List Value} {name : String} {free : Nat} {e : Error}

/-! ## Chains of names -/

/-- a text in a value is nothing but a placeholder for a name to which a list or mapping is bound in
writing -/
inductive Opens (reading : Reading) (bindings : Fields) (value : Value) :
    (name : String) → (parsed : Value) → Prop where
  | intro {text : String} {name : List Char} {bound parsed : Value} (htext : text ∈ value.texts)
    (hwhole : whole? text.toList = some name)
    (hfind : Fields.find? (String.ofList name) bindings = some bound)
    (hwritten : written? reading bound = some parsed) :
    Opens reading bindings value (String.ofList name) parsed

/-- names of which the first is opened in a value, and each further one in what the name before it
stands for -/
inductive Chain (reading : Reading) (bindings : Fields) : Value → List String → Prop where
  | nil (value : Value) : Chain reading bindings value []
  | cons {value parsed : Value} {name : String} {rest : List String}
    (hopens : Opens reading bindings value name parsed)
    (hrest : Chain reading bindings parsed rest) : Chain reading bindings value (name :: rest)

/-- whether a chain of names from a value comes back to one of its names -/
def Circular (reading : Reading) (bindings : Fields) (value : Value) : Prop :=
  ∃ chain, Chain reading bindings value chain ∧ ¬chain.Nodup

/-- whether a value consults a name that has no value -/
def ConsultsUnbound (reading : Reading) (bindings : Fields) (value : Value) : Prop :=
  ∃ name, Consults reading bindings value name ∧
    Fields.find? (String.ofList name) bindings = none

theorem Opens.isSome (h : Opens reading bindings value name parsed) :
    (Fields.find? name bindings).isSome := by
  obtain ⟨-, -, hfind, -⟩ := h
  rw [hfind]
  rfl

/-- What is consulted in what a name stands for is consulted where the name is opened. -/
theorem Consults.of_opens {other : List Char} (hopens : Opens reading bindings value name parsed)
    (h : Consults reading bindings parsed other) : Consults reading bindings value other := by
  obtain ⟨htext, hwhole, hfind, hwritten⟩ := hopens
  rename_i bound
  cases bound with
  | string inner => exact .written htext hwhole hfind hwritten h
  | _ => cases hwritten

/-! ## The end of resolution -/

/-- resolves a value inside of names that are opened already; `free` is how many more may be -/
def resolveWithin (reading : Reading) (bindings : Fields) (tolerant : Bool) (free : Nat)
    (opened : List String) (value : Value) : Except Error Value :=
  value.replaceTexts (resolveText reading bindings tolerant
    (expand reading bindings tolerant free opened))

/-- what has to be resolved, with the names that are opened by then, for a value to be resolved -/
inductive Calls (reading : Reading) (bindings : Fields) :
    (inner outer : List String × Value) → Prop where
  | intro {opened : List String} {value parsed : Value} {name : String}
    (hopens : Opens reading bindings value name parsed) (hnew : name ∉ opened) :
    Calls reading bindings (opened ++ [name], parsed) (opened, value)

/-- how many bindings are not opened -/
def notOpened (bindings : Fields) (opened : List String) : Nat :=
  (bindings.names.filter (· ∉ opened)).length

theorem notOpened_lt (hbound : (Fields.find? name bindings).isSome) (hnew : name ∉ opened) :
    notOpened bindings (opened ++ [name]) < notOpened bindings opened := by
  obtain ⟨bound, hfind⟩ := Option.isSome_iff_exists.mp hbound
  have hname : name ∈ bindings.names.filter (· ∉ opened) :=
    List.mem_filter.mpr ⟨List.mem_map_of_mem (Fields.mem_of_find? hfind), by simpa using hnew⟩
  have hfilter : bindings.names.filter (· ∉ opened ++ [name]) =
      (bindings.names.filter (· ∉ opened)).filter (· ≠ name) := by
    rw [List.filter_filter]
    refine List.filter_congr fun other _ => ?_
    simp [and_comm]
  rw [notOpened, hfilter]
  exact List.length_filter_lt_length_iff_exists.mpr ⟨name, hname, by simp⟩

/-- **Resolution ends.** Whatever the bindings refer to, there is no endless descent from values to
what has to be resolved for them: each time, fewer bindings are left to be opened. -/
theorem wellFounded_calls (reading : Reading) (bindings : Fields) :
    WellFounded (Calls reading bindings) := by
  refine Subrelation.wf ?_ (measure fun call : List String × Value =>
    notOpened bindings call.1).wf
  rintro inner outer ⟨hopens, hnew⟩
  exact notOpened_lt hopens.isSome hnew

/-! ## Failures -/

/-- A name that is opened fails if it is open already, or if what it stands for fails with the name
opened. -/
theorem expand_fails (free : Nat) (h : name ∈ opened ∨ ∀ free, ∃ e,
    resolveWithin reading bindings tolerant free (opened ++ [name]) parsed = .error e) :
    ∃ e, expand reading bindings tolerant free opened name parsed = .error e := by
  by_cases hmem : name ∈ opened
  · exact ⟨_, expand_of_mem hmem⟩
  · cases free with
    | zero => exact ⟨_, rfl⟩
    | succ free =>
      rw [expand, if_neg (mt List.contains_iff_mem.mp hmem)]
      exact h.resolve_left hmem free

/-- A value fails if a name that it opens does. -/
theorem Opens.fails (hopens : Opens reading bindings value name parsed)
    (h : name ∈ opened ∨ ∀ free, ∃ e,
      resolveWithin reading bindings tolerant free (opened ++ [name]) parsed = .error e) :
    ∃ e, resolveWithin reading bindings tolerant free opened value = .error e := by
  obtain ⟨htext, hwhole, hfind, hwritten⟩ := hopens
  obtain ⟨e, he⟩ := expand_fails free h
  exact Value.replaceTexts_fails htext ((resolveText_written hwhole hfind hwritten).trans he)

/-- A chain that comes back to one of its names, or to one that is open already, fails. -/
theorem Chain.fails (h : Chain reading bindings value chain) (hopened : opened.Nodup)
    (hrepeats : ¬(opened ++ chain).Nodup) :
    ∃ e, resolveWithin reading bindings tolerant free opened value = .error e := by
  induction h generalizing opened free with
  | nil => exact absurd hopened (by simpa using hrepeats)
  | cons hopens hrest ih =>
    refine hopens.fails (Decidable.or_iff_not_imp_left.mpr fun hnew free => ih ?_ ?_)
    · exact nodup_concat hopened hnew
    · rwa [List.append_assoc, List.singleton_append]

/-- Where names without a value are not tolerated, a value that consults one fails. -/
theorem ConsultsUnbound.fails (h : ConsultsUnbound reading bindings value) :
    ∃ e, resolveWithin reading bindings false free opened value = .error e := by
  obtain ⟨name, hconsults, hfind⟩ := h
  induction hconsults generalizing opened free with
  | @mentioned value text name htext hname =>
    have hfails : ∃ e, resolveText reading bindings false
        (expand reading bindings false free opened) text = .error e := by
      rcases hwhole : whole? text.toList with _ | whole
      · obtain ⟨e, he⟩ := fill_fails (mem_namesIn.mp hname) hfind
        exact ⟨e, by rw [resolveText_mixed hwhole, he]; rfl⟩
      · rw [namesIn_of_whole? hwhole] at hname
        obtain rfl := List.mem_singleton.mp hname
        exact ⟨_, resolveText_unbound hwhole hfind⟩
    obtain ⟨e, he⟩ := hfails
    exact Value.replaceTexts_fails htext he
  | written htext hwhole hbound hstructure _ ih =>
    have hopens : Opens reading bindings _ _ _ := .intro htext hwhole hbound hstructure
    exact hopens.fails (.inr fun free => ih hfind)

/-- why a value fails inside of names that are open: a chain comes back, or a name has no value and
that is not tolerated -/
inductive FailsBy (reading : Reading) (bindings : Fields) (tolerant : Bool) (opened : List String)
    (value : Value) : Error → Prop where
  | cycle {before : List String} {name : String}
    (hchain : Chain reading bindings value (before ++ [name])) (hdistinct : (opened ++ before).Nodup)
    (hmem : name ∈ opened ++ before) :
    FailsBy reading bindings tolerant opened value (cycle (opened ++ before) name)
  | unbound {name : List Char} (htolerant : tolerant = false)
    (hconsults : Consults reading bindings value name)
    (hfind : Fields.find? (String.ofList name) bindings = none) :
    FailsBy reading bindings tolerant opened value (.of (.unknownVariable (String.ofList name)))

/-- What fails with a name opened fails where the name is opened, for the same reason. -/
theorem FailsBy.of_opens (hopens : Opens reading bindings value name parsed)
    (h : FailsBy reading bindings tolerant (opened ++ [name]) parsed e) :
    FailsBy reading bindings tolerant opened value e := by
  cases h with
  | @cycle before last hchain hdistinct hmem =>
    have hchain' : Chain reading bindings value ((name :: before) ++ [last]) := .cons hopens hchain
    rw [List.append_assoc, List.singleton_append] at hdistinct hmem ⊢
    exact .cycle hchain' hdistinct hmem
  | unbound htolerant hconsults hfind => exact .unbound htolerant (hconsults.of_opens hopens) hfind

/-- Either a value fails for one of these reasons, or because of a name that it opens. -/
theorem failsBy_of_opened (h : resolveWithin reading bindings tolerant free opened value = .error e)
    (hopened : ∀ name parsed, Opens reading bindings value name parsed → name ∉ opened →
      expand reading bindings tolerant free opened name parsed = .error e →
      FailsBy reading bindings tolerant opened value e) (hdistinct : opened.Nodup) :
    FailsBy reading bindings tolerant opened value e := by
  obtain ⟨text, htext, hfails⟩ := Value.replaceTexts_error h
  cases kind reading bindings text with
  | mixed hwhole =>
    rw [resolveText_mixed hwhole] at hfails
    rcases hfill : fill bindings tolerant text.toList with e' | filled <;> rw [hfill] at hfails
    · obtain rfl := Except.error.inj hfails
      obtain ⟨htolerant, name, hname, hfind, rfl⟩ := fill_error hfill
      exact .unbound htolerant (.mentioned htext (mem_namesIn.mpr hname)) hfind
    · cases hfails
  | unbound name hwhole hfind =>
    rw [resolveText_unbound hwhole hfind] at hfails
    cases tolerant with
    | true => cases hfails
    | false =>
      obtain rfl := Except.error.inj hfails
      exact .unbound rfl (.mentioned htext (mem_namesIn_of_whole? hwhole)) hfind
  | plain name bound hwhole hfind hwritten =>
    rw [resolveText_plain hwhole hfind hwritten] at hfails
    cases hfails
  | written name bound parsed hwhole hfind hwritten =>
    rw [resolveText_written hwhole hfind hwritten] at hfails
    have hopens : Opens reading bindings value _ parsed := .intro htext hwhole hfind hwritten
    by_cases hmem : String.ofList name ∈ opened
    · rw [expand_of_mem hmem] at hfails
      obtain rfl := Except.error.inj hfails
      have hcycle : FailsBy reading bindings tolerant opened value
          (cycle (opened ++ []) (String.ofList name)) :=
        .cycle (.cons hopens (.nil _)) (by simpa using hdistinct) (by simpa using hmem)
      simpa using hcycle
    · exact hopened _ parsed hopens hmem hfails

/-- A value fails for no other reason: the names left to be opened never run out, as all that are
open are different and have values. -/
theorem failsBy_of_error (hdistinct : opened.Nodup)
    (hbound : ∀ other ∈ opened, (Fields.find? other bindings).isSome)
    (hfree : bindings.length ≤ free + opened.length)
    (h : resolveWithin reading bindings tolerant free opened value = .error e) :
    FailsBy reading bindings tolerant opened value e := by
  induction free generalizing opened value with
  | zero =>
    refine failsBy_of_opened h (fun name parsed hopens hnew _ => ?_) hdistinct
    have hall : ∀ other ∈ name :: opened, (Fields.find? other bindings).isSome :=
      List.forall_mem_cons.mpr ⟨hopens.isSome, hbound⟩
    have hlength := Fields.length_lt_of_bound hdistinct hall hnew
    omega
  | succ free ih =>
    refine failsBy_of_opened h (fun name parsed hopens hnew hfails => ?_) hdistinct
    rw [expand, if_neg (mt List.contains_iff_mem.mp hnew)] at hfails
    refine .of_opens hopens (ih (nodup_concat hdistinct hnew) ?_ ?_ hfails)
    · exact List.forall_mem_append.mpr ⟨hbound, List.forall_mem_singleton.mpr hopens.isSome⟩
    · rw [List.length_append, List.length_singleton]
      omega

theorem resolve_error (h : resolve reading bindings tolerant node = .error e) :
    FailsBy reading bindings tolerant [] node e :=
  failsBy_of_error List.nodup_nil nofun (Nat.le_refl _) h

/-- A value fails because it is circular or because of a name without a value. -/
theorem circular_or_unbound (h : resolve reading bindings tolerant node = .error e) :
    Circular reading bindings node ∨ tolerant = false ∧ ConsultsUnbound reading bindings node := by
  cases resolve_error h with
  | @cycle before name hchain hdistinct hmem =>
    refine .inl ⟨before ++ [name], hchain, fun hnodup => ?_⟩
    exact (List.nodup_append.mp hnodup).2.2 name hmem name (List.mem_singleton_self _) rfl
  | unbound hstrict hconsults hfind => exact .inr ⟨hstrict, _, hconsults, hfind⟩

/-- More names left to be opened than there are bindings make no difference. -/
theorem resolveWithin_eq_resolve (hfree : bindings.length ≤ free) :
    resolveWithin reading bindings tolerant free [] node = resolve reading bindings tolerant node := by
  refine Value.replaceTexts_congr node fun text _ => resolveText_congr (fun _ _ => rfl) ?_
  intro name inner parsed hwhole hfind hstructure
  have hbound : ∀ other ∈ [String.ofList name], (Fields.find? other bindings).isSome :=
    List.forall_mem_singleton.mpr (by rw [hfind]; rfl)
  exact expand_congr List.nodup_nil hbound hbound hfree (Nat.le_refl _) fun _ _ => rfl

theorem mem_textsInItems {text : String} :
    text ∈ Value.textsInItems items ↔ ∃ item ∈ items, text ∈ item.texts := by
  induction items with
  | nil => simp [Value.textsInItems]
  | cons item rest ih => simp [Value.textsInItems, ih]

/-- Values beside each other are circular only if one of them is. -/
theorem Circular.of_list (h : Circular reading bindings (.list items)) :
    ∃ item ∈ items, Circular reading bindings item := by
  obtain ⟨chain, hchain, hrepeats⟩ := h
  cases hchain with
  | nil => exact absurd List.nodup_nil hrepeats
  | @cons _ parsed name rest hopens hrest =>
    obtain ⟨htext, hwhole, hfind, hwritten⟩ := hopens
    obtain ⟨item, hitem, htext⟩ := mem_textsInItems.mp htext
    exact ⟨item, hitem, _, .cons (.intro htext hwhole hfind hwritten) hrest, hrepeats⟩

/-- Values beside each other consult what one of them does. -/
theorem ConsultsUnbound.of_list (h : ConsultsUnbound reading bindings (.list items)) :
    ∃ item ∈ items, ConsultsUnbound reading bindings item := by
  obtain ⟨name, hconsults, hfind⟩ := h
  cases hconsults with
  | mentioned htext hname =>
    obtain ⟨item, hitem, htext⟩ := mem_textsInItems.mp htext
    exact ⟨item, hitem, name, .mentioned htext hname, hfind⟩
  | written htext hwhole hbound hstructure hconsults =>
    obtain ⟨item, hitem, htext⟩ := mem_textsInItems.mp htext
    exact ⟨item, hitem, name, .written htext hwhole hbound hstructure hconsults, hfind⟩

theorem resolve_fails_of_circular (h : Circular reading bindings node) :
    ∃ e, resolve reading bindings tolerant node = .error e := by
  obtain ⟨chain, hchain, hrepeats⟩ := h
  exact hchain.fails List.nodup_nil hrepeats

/-- **Names that are bound to themselves.** Resolution ends: there is no endless descent into what
names are bound to, and as many names as there are bindings are all that need to be left to open. If
names without a value are tolerated, it fails exactly if some chain of names from the value comes
back to one of its names, and then it says so with such a chain; else it fails also for a name
without a value that is consulted. So values that are not circular resolve beside each other,
however often they open the same names. -/
theorem resolve_fails_iff (reading : Reading) (bindings : Fields) (node : Value) :
    WellFounded (Calls reading bindings) ∧
    (∀ tolerant free, bindings.length ≤ free →
      resolveWithin reading bindings tolerant free [] node =
        resolve reading bindings tolerant node) ∧
    ((∃ e, resolve reading bindings true node = .error e) ↔ Circular reading bindings node) ∧
    (∀ e, resolve reading bindings true node = .error e →
      ∃ before name, Chain reading bindings node (before ++ [name]) ∧ before.Nodup ∧
        name ∈ before ∧ e = .validation (s!"variable '{name}' refers to itself: " ++
          " -> ".intercalate (before ++ [name]))) ∧
    ((∃ e, resolve reading bindings false node = .error e) ↔
      Circular reading bindings node ∨ ConsultsUnbound reading bindings node) ∧
    ∀ tolerant items, (∀ item ∈ items, ¬Circular reading bindings item ∧
        (tolerant = false → ¬ConsultsUnbound reading bindings item)) →
      ∃ result, resolve reading bindings tolerant (.list items) = .ok result := by
  refine ⟨wellFounded_calls reading bindings, fun tolerant free => resolveWithin_eq_resolve,
    ⟨?_, resolve_fails_of_circular⟩, fun e h => ?_, ⟨?_, ?_⟩, fun tolerant items hitems => ?_⟩
  · rintro ⟨e, h⟩
    exact (circular_or_unbound h).resolve_right nofun
  · cases resolve_error h with
    | cycle hchain hdistinct hmem => exact ⟨_, _, hchain, hdistinct, hmem, rfl⟩
    | unbound hfalse => cases hfalse
  · rintro ⟨e, h⟩
    exact (circular_or_unbound h).imp_right And.right
  · rintro (hcircular | hunbound)
    · exact resolve_fails_of_circular hcircular
    · exact hunbound.fails
  · rcases hresolve : resolve reading bindings tolerant (.list items) with e | result
    · rcases circular_or_unbound hresolve with hcircular | ⟨hstrict, hunbound⟩
      · obtain ⟨item, hitem, hcircular⟩ := hcircular.of_list
        exact absurd hcircular (hitems item hitem).1
      · obtain ⟨item, hitem, hunbound⟩ := hunbound.of_list
        exact absurd hunbound ((hitems item hitem).2 hstrict)
    · exact ⟨result, rfl⟩

/-- two names that are bound to each other in writing -/
def knot : Fields := [("x", .string "[1, \"$\x7by\x7d\"]"), ("y", .string "[\"$\x7bx\x7d\"]")]

theorem resolve_fails_iff_knot :
    resolve readDocument knot true (.string "$\x7by\x7d") =
        .error (.validation "variable 'y' refers to itself: y -> x -> y") ∧
      Circular readDocument knot (.string "$\x7by\x7d") := by
  have herror : resolve readDocument knot true (.string "$\x7by\x7d") =
      .error (.validation "variable 'y' refers to itself: y -> x -> y") := by
    decide +kernel
  obtain ⟨-, -, hiff, -⟩ := resolve_fails_iff readDocument knot (.string "$\x7by\x7d")
  exact ⟨herror, hiff.mp ⟨_, herror⟩⟩

example : resolve readDocument [("pair", .string "[1, 2]")] false
    (.list [.string "$\x7bpair\x7d", .string "$\x7bpair\x7d"]) =
      .ok (.list [.list [.ofInt 1, .ofInt 2], .list [.ofInt 1, .ofInt 2]]) := by
  decide +kernel

end TableRecipe.Placeholder
