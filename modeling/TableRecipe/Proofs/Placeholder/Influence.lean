import TableRecipe.Proofs.Placeholder.Tolerance

/-!
# What influences a value

What becomes of a value depends on the bindings only as far as it consults them: on the names that
its texts mention, and on those mentioned in what these names are bound to in writing. Whatever else
is bound, variables of the environment for instance, might as well not be there. The same holds of
the sections of a recipe and of the whole recipe, which resolve their parts in several ways.

* `Placeholder.resolveEntries_congr` — sections under ways of resolution that agree on their parts;
* `Placeholder.Consults.of_at?` — what a part consults the whole does;
* `Placeholder.resolve_determined` — bindings that agree on what is consulted.
-/

namespace TableRecipe

namespace Value

variable {items : List Value} {entries : Fields} {position : Nat}

theorem at?_item {item : Value} (h : items[position]? = some item) (place : List Nat) :
    (Value.list items).at? (position :: place) = item.at? place := by
  rw [at?_cons, parts, h]
  rfl

theorem at?_entry {key : String} {value : Value} (h : entries[position]? = some (key, value))
    (place : List Nat) : (Value.object entries).at? (position :: place) = value.at? place := by
  rw [at?_cons, parts, List.getElem?_map, h]
  rfl

theorem texts_subset_of_at? {value part : Value} {place : List Nat}
    (hpart : value.at? place = some part) : part.texts ⊆ value.texts := by
  intro text htext
  obtain ⟨inner, hinner⟩ := (mem_texts_iff_at? part).mp htext
  refine (mem_texts_iff_at? value).mpr ⟨place ++ inner, ?_⟩
  rw [at?_append, hpart]
  exact hinner

end Value

namespace Placeholder

variable {reading : Reading} {bindings bindings' : Fields} {tolerant : Bool} {value part : Value}
  {place : List Nat} {name : List Char} {names : List String} {text : String}

/-! ## Parts of sections -/

section

variable {strict strict' lenient lenient' : Value → Except Error Value} {key : String}

theorem resolveUnder_congr (hstrict : strict value = strict' value)
    (hlenient : key ∈ deferred → lenient value = lenient' value)
    (hcombined : key ∈ combined →
      resolveCombined strict lenient value = resolveCombined strict' lenient' value) :
    resolveUnder strict lenient key value = resolveUnder strict' lenient' key value := by
  by_cases hd : key ∈ deferred
  · simpa [resolveUnder, hd] using hlenient hd
  by_cases hc : key ∈ combined
  · simpa [resolveUnder, hd, hc] using hcombined hc
  · simpa [resolveUnder, hd, hc] using hstrict

theorem resolveSource_congr (hstrict : strict value = strict' value)
    (hsources : key = "sources" →
      resolveEntries strict lenient value = resolveEntries strict' lenient' value) :
    resolveSource strict lenient key value = resolveSource strict' lenient' key value := by
  by_cases hkey : key = "sources"
  · simpa [resolveSource, hkey] using hsources hkey
  · simpa [resolveSource, hkey] using hstrict

/-- Sections, and parameters of entries that combine sources, are resolved alike by ways of
resolution that agree: the strict ones on all parts, the lenient ones on those that are resolved
again. -/
theorem resolveEntries_congr (value : Value)
    (hstrict : ∀ place part, value.at? place = some part → strict part = strict' part) :
    ((∀ place part, DeferredIn value place → value.at? place = some part →
        lenient part = lenient' part) →
      resolveEntries strict lenient value = resolveEntries strict' lenient' value) ∧
    ((∀ place part, DeferredAmong value place → value.at? place = some part →
        lenient part = lenient' part) →
      resolveCombined strict lenient value = resolveCombined strict' lenient' value) := by
  induction value using Value.ind_parts with
  | h value ih =>
    have hwhole : strict value = strict' value := hstrict [] value rfl
    cases value with
    | list items =>
      refine ⟨fun hlenient => ?_, fun _ => hwhole⟩
      rw [resolveEntries, resolveEntries, resolveItems_eq_mapM, resolveItems_eq_mapM]
      refine congrArg (· >>= _) (mapM_congr fun item hmem => ?_)
      obtain ⟨position, hitem⟩ := List.mem_iff_getElem?.mp hmem
      have hplace := Value.at?_item hitem
      refine (ih item hmem fun place part hpart => ?_).1 fun place part hdeferred hpart => ?_
      · exact hstrict _ part ((hplace place).trans hpart)
      · exact hlenient _ part (.listed hitem hdeferred) ((hplace place).trans hpart)
    | object entries =>
      constructor
      · intro hlenient
        rw [resolveEntries, resolveEntries, resolveParams_eq_mapM, resolveParams_eq_mapM]
        refine congrArg (· >>= _) (mapM_congr ?_)
        rintro ⟨key, params⟩ hmem
        obtain ⟨position, hentry⟩ := List.mem_iff_getElem?.mp hmem
        have hplace := Value.at?_entry hentry
        have hunder : resolveUnder strict lenient key params =
            resolveUnder strict' lenient' key params := by
          refine resolveUnder_congr (hstrict _ params (hplace [])) (fun hkey => ?_) fun hkey => ?_
          · exact hlenient _ params (.params hentry hkey) (hplace [])
          · refine (ih params (List.mem_map_of_mem hmem) fun place part hpart => ?_).2
              fun place part hdeferred hpart => ?_
            · exact hstrict _ part ((hplace place).trans hpart)
            · exact hlenient _ part ((deferredIn_entry hentry place).mpr (.inr ⟨hkey, hdeferred⟩))
                ((hplace place).trans hpart)
        simp only [hunder]
      · intro hlenient
        rw [resolveCombined, resolveCombined, resolveSources_eq_mapM, resolveSources_eq_mapM]
        refine congrArg (· >>= _) (mapM_congr ?_)
        rintro ⟨key, source⟩ hmem
        obtain ⟨position, hentry⟩ := List.mem_iff_getElem?.mp hmem
        have hplace := Value.at?_entry hentry
        have hsource : resolveSource strict lenient key source =
            resolveSource strict' lenient' key source := by
          refine resolveSource_congr (hstrict _ source (hplace [])) fun hkey => ?_
          refine (ih source (List.mem_map_of_mem hmem) fun place part hpart => ?_).1
            fun place part hdeferred hpart => ?_
          · exact hstrict _ part ((hplace place).trans hpart)
          · exact hlenient _ part ((deferredAmong_entry hentry place).mpr ⟨hkey, hdeferred⟩)
              ((hplace place).trans hpart)
        simp only [hsource]
    | _ => exact ⟨fun _ => hwhole, fun _ => hwhole⟩

end

/-! ## What is consulted -/

/-- What a part of a value consults the value does. -/
theorem Consults.of_at? (hpart : value.at? place = some part)
    (h : Consults reading bindings part name) : Consults reading bindings value name := by
  have htexts := Value.texts_subset_of_at? hpart
  cases h with
  | mentioned htext hname => exact .mentioned (htexts htext) hname
  | written htext hwhole hfind hstructure hname =>
    exact .written (htexts htext) hwhole hfind hstructure hname

theorem AgreeOnConsulted.of_at? (h : AgreeOnConsulted reading bindings bindings' value)
    (hpart : value.at? place = some part) : AgreeOnConsulted reading bindings bindings' part :=
  fun name hname => h name (hname.of_at? hpart)

/-- Bindings agree with those among them whose names are not taken away on all that is consulted,
if nothing that is consulted is taken away. -/
theorem agreeOnConsulted_without
    (h : ∀ name, Consults reading bindings value name → String.ofList name ∉ names) :
    AgreeOnConsulted reading bindings (bindings.without names) value := by
  intro name hname
  rw [Fields.find?_without, if_neg (h name hname)]

/-! ## Sections and recipes -/

/-- Bindings that agree on the names that a section consults make the same of it. -/
theorem resolveSteps_congr (hagree : AgreeOnConsulted reading bindings bindings' value) :
    resolveSteps reading bindings value = resolveSteps reading bindings' value :=
  (resolveEntries_congr value fun _ _ hpart => resolve_congr false (hagree.of_at? hpart)).1
    fun _ _ _ hpart => resolve_congr true (hagree.of_at? hpart)

theorem resolveSection_congr (key : String)
    (hagree : AgreeOnConsulted reading bindings bindings' value) :
    resolveSection reading bindings key value = resolveSection reading bindings' key value := by
  rw [resolveSection, resolveSection, resolve_congr true hagree, resolve_congr false hagree,
    resolveSteps_congr hagree]

/-- Bindings that agree on the names that a recipe consults make the same of it. -/
theorem resolveRecipe_congr (hagree : AgreeOnConsulted reading bindings bindings' value) :
    resolveRecipe reading bindings value = resolveRecipe reading bindings' value := by
  cases value with
  | object recipe =>
    rw [resolveRecipe, resolveRecipe]
    refine congrArg (· >>= _) (mapM_congr ?_)
    rintro ⟨key, body⟩ hmem
    obtain ⟨position, hentry⟩ := List.mem_iff_getElem?.mp hmem
    have hbody := hagree.of_at? (Value.at?_entry hentry [])
    simp only [resolveSection_congr key hbody]
  | _ => exact resolve_congr false hagree

/-! ## Texts without placeholders -/

/-- what every placeholder begins with -/
def mark : List Char := ['$', '\x7b']

theorem namesIn_of_no_mark (h : ¬mark <:+: text.toList) : namesIn text = [] := by
  refine List.eq_nil_iff_forall_not_mem.mpr fun name hname => h ?_
  have hpiece : write name <:+: (pieces text.toList).flatMap Piece.spell :=
    List.infix_of_mem_flatten (List.mem_map_of_mem (f := Piece.spell) (mem_namesIn.mp hname))
  rw [spell_pieces] at hpiece
  exact (List.infix_append' [] mark (name ++ ['\x7d'])).trans hpiece

/-! ## Bindings that agree -/

/-- **What is not consulted has no influence.** Bindings that agree on the names that a value
consults, those that its texts mention and those that a list or mapping consults which is bound in
writing to such a name, make the same of it or fail alike, whether names without a value are
tolerated or not; and so do they as a section or as a recipe. In particular, all bindings whose
names are not consulted may be taken away. A value whose texts hold no mark of a placeholder stays
as it is, whatever is bound. -/
theorem resolve_determined (reading : Reading) (node : Value) :
    (∀ bindings bindings', AgreeOnConsulted reading bindings bindings' node →
      (∀ tolerant,
        resolve reading bindings tolerant node = resolve reading bindings' tolerant node) ∧
      resolveSteps reading bindings node = resolveSteps reading bindings' node ∧
      resolveRecipe reading bindings node = resolveRecipe reading bindings' node) ∧
    (∀ bindings names, (∀ name, Consults reading bindings node name → String.ofList name ∉ names) →
      ∀ tolerant, resolve reading (bindings.without names) tolerant node =
        resolve reading bindings tolerant node) ∧
    ((∀ text ∈ node.texts, ¬mark <:+: text.toList) →
      ∀ bindings tolerant, resolve reading bindings tolerant node = .ok node) := by
  refine ⟨fun bindings bindings' hagree => ⟨fun tolerant => resolve_congr tolerant hagree,
    resolveSteps_congr hagree, resolveRecipe_congr hagree⟩, ?_, ?_⟩
  · intro bindings names hnames tolerant
    exact (resolve_congr tolerant (agreeOnConsulted_without hnames)).symm
  · intro hplain bindings tolerant
    exact resolve_of_no_names fun text htext => namesIn_of_no_mark (hplain text htext)

/-- a list in writing that names a variable, that variable, and one of the environment -/
def surroundings : Fields :=
  [("HOME", .string "/home"), ("columns", .string "[a, \"$\x7bx\x7d\"]"), ("x", .ofInt 5)]

theorem resolve_determined_surroundings :
    (∀ name, Consults readDocument surroundings (.string "$\x7bcolumns\x7d") name →
      String.ofList name ∉ ["HOME"]) ∧
    resolve readDocument (surroundings.without ["HOME"]) false (.string "$\x7bcolumns\x7d") =
      resolve readDocument surroundings false (.string "$\x7bcolumns\x7d") := by
  have hwhole : whole? "$\x7bcolumns\x7d".toList = some "columns".toList := by decide +kernel
  have hparsed : structure? readDocument "[a, \"$\x7bx\x7d\"]" =
      some (.list [.string "a", .string "$\x7bx\x7d"]) := by
    decide +kernel
  have hconsults : ∀ name, Consults readDocument surroundings (.string "$\x7bcolumns\x7d") name →
      String.ofList name ∉ ["HOME"] := by
    rintro name (⟨htext, hname⟩ | ⟨htext, hwhole', hfind, hstructure, hname⟩)
    · obtain rfl := List.mem_singleton.mp htext
      rw [namesIn_of_whole? hwhole] at hname
      obtain rfl := List.mem_singleton.mp hname
      decide
    · obtain rfl := List.mem_singleton.mp htext
      obtain rfl := Option.some.inj (hwhole.symm.trans hwhole')
      obtain rfl := Value.string.inj (Option.some.inj hfind)
      obtain rfl := Option.some.inj (hparsed.symm.trans hstructure)
      have hnames : ∀ text ∈ ["a", "$\x7bx\x7d"], ∀ name ∈ namesIn text, name = ['x'] := by
        decide +kernel
      rcases hname with ⟨htext, hname⟩ | ⟨htext, hwhole, hfind, -, -⟩
      · rw [hnames _ htext _ hname]
        decide
      · rw [hnames _ htext _ (mem_namesIn_of_whole? hwhole)] at hfind
        cases hfind
  obtain ⟨-, hwithout, -⟩ := resolve_determined readDocument (.string "$\x7bcolumns\x7d")
  exact ⟨hconsults, hwithout surroundings ["HOME"] hconsults false⟩

end Placeholder

end TableRecipe
