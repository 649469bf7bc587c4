import TableRecipe.Proofs.Fields
import TableRecipe.Proofs.Placeholder.Pieces

/-!
# Names that a value consults

To replace the placeholders in a value, the bindings are asked for the names that its texts mention,
and for those that a list or mapping mentions which is bound to such a name in writing. So bindings
that agree on these names make the same of the value, whatever else they hold and however many
names they have.

* `Value.texts` — the texts in a value;
* `Placeholder.Consults` — the names that a value consults;
* `Placeholder.resolve_congr` — bindings that agree on the names that a value consults.
-/

namespace TableRecipe

namespace Value

mutual
/-- the texts in a value, those of names excepted -/
def texts : Value → List String
  | .string text => [text]
  | .list items => textsInItems items
  | .object entries => textsInEntries entries
  | .null => []
  | .bool _ => []
  | .number _ => []
/-- the texts in values -/
def textsInItems : List Value → List String
  | [] => []
  | item :: rest => item.texts ++ textsInItems rest
/-- the texts in the values of entries -/
def textsInEntries : List (String × Value) → List String
  | [] => []
  | (_, value) :: rest => value.texts ++ textsInEntries rest
end

variable {replace replace' : String → Except Error Value}

mutual
/-- Replacements that agree on the texts of a value change it alike. -/
theorem replaceTexts_congr : (value : Value) →
    (∀ text ∈ value.texts, replace text = replace' text) →
    value.replaceTexts replace = value.replaceTexts replace'
  | .string text, h => h text (List.mem_singleton_self text)
  | .list items, h => by rw [replaceTexts, replaceTexts, replaceInItems_congr items h]
  | .object entries, h => by rw [replaceTexts, replaceTexts, replaceInEntries_congr entries h]
  | .null, _ => rfl
  | .bool _, _ => rfl
  | .number _, _ => rfl
theorem replaceInItems_congr : (items : List Value) →
    (∀ text ∈ textsInItems items, replace text = replace' text) →
    replaceInItems replace items = replaceInItems replace' items
  | [], _ => rfl
  | item :: rest, h => by
    rw [replaceInItems, replaceInItems,
      replaceTexts_congr item fun text hmem => h text (List.mem_append_left _ hmem),
      replaceInItems_congr rest fun text hmem => h text (List.mem_append_right _ hmem)]
theorem replaceInEntries_congr : (entries : Fields) →
    (∀ text ∈ textsInEntries entries, replace text = replace' text) →
    replaceInEntries replace entries = replaceInEntries replace' entries
  | [], _ => rfl
  | (name, value) :: rest, h => by
    rw [replaceInEntries, replaceInEntries,
      replaceTexts_congr value fun text hmem => h text (List.mem_append_left _ hmem),
      replaceInEntries_congr rest fun text hmem => h text (List.mem_append_right _ hmem)]
end

end Value

namespace Placeholder

variable {reading : Reading} {bindings bindings' : Fields} {tolerant : Bool} {opened : List String}
  {value parsed : Value} {text : String} {cs name : List Char}

/-! ## Names in texts -/

/-- the names in the placeholders of a text -/
def namesIn (text : String) : List (List Char) :=
  (pieces text.toList).filterMap fun
    | .name name => some name
    | .char _ => none

theorem mem_namesIn : name ∈ namesIn text ↔ .name name ∈ pieces text.toList := by
  rw [namesIn, List.mem_filterMap]
  constructor
  · rintro ⟨_ | found, hmem, hfound⟩
    · cases hfound
    · obtain rfl := Option.some.inj hfound
      exact hmem
  · exact fun hmem => ⟨_, hmem, rfl⟩

/-- the names that a value consults: those that its texts mention, and those that a list or mapping
consults which is bound in writing to a name that is all of a text -/
inductive Consults (reading : Reading) (bindings : Fields) : Value → List Char → Prop where
  | mentioned {value : Value} {text : String} {name : List Char} (htext : text ∈ value.texts)
    (hname : name ∈ namesIn text) : Consults reading bindings value name
  | written {value parsed : Value} {text inner : String} {whole name : List Char}
    (htext : text ∈ value.texts) (hwhole : whole? text.toList = some whole)
    (hfind : Fields.find? (String.ofList whole) bindings = some (.string inner))
    (hstructure : structure? reading inner = some parsed)
    (hname : Consults reading bindings parsed name) : Consults reading bindings value name

/-- bindings agree on the names that a value consults -/
def AgreeOnConsulted (reading : Reading) (bindings bindings' : Fields) (value : Value) : Prop :=
  ∀ name, Consults reading bindings value name →
    Fields.find? (String.ofList name) bindings = Fields.find? (String.ofList name) bindings'

theorem namesIn_of_whole? (h : whole? text.toList = some name) : namesIn text = [name] := by
  rw [whole?] at h
  split at h
  · rename_i found hread
    obtain rfl := Option.some.inj h
    rw [namesIn, pieces_of_some hread, pieces_nil]
    rfl
  · cases h

theorem mem_namesIn_of_whole? (h : whole? text.toList = some name) : name ∈ namesIn text := by
  rw [namesIn_of_whole? h]
  exact List.mem_singleton_self _

/-- Bindings that have no value for any name in the texts of a value agree on what it consults. -/
theorem agreeOnConsulted_of_unbound
    (h : ∀ text ∈ value.texts, ∀ name ∈ namesIn text,
      Fields.find? (String.ofList name) bindings = none ∧
      Fields.find? (String.ofList name) bindings' = none) :
    AgreeOnConsulted reading bindings bindings' value := by
  intro name hname
  cases hname with
  | mentioned htext hname => rw [(h _ htext name hname).1, (h _ htext name hname).2]
  | written htext hwhole hfind =>
    rw [(h _ htext _ (mem_namesIn_of_whole? hwhole)).1] at hfind
    cases hfind

/-! ## Bindings that agree -/

/-- Bindings that agree on the names in a text fill it alike. -/
theorem fill_congr (tolerant : Bool)
    (h : ∀ name, .name name ∈ pieces cs →
      Fields.find? (String.ofList name) bindings = Fields.find? (String.ofList name) bindings') :
    fill bindings tolerant cs = fill bindings' tolerant cs := by
  have hpieces : (pieces cs).mapM (pieceText bindings tolerant) =
      (pieces cs).mapM (pieceText bindings' tolerant) := by
    refine mapM_congr fun piece hmem => ?_
    cases piece with
    | char c => rfl
    | name name => rw [pieceText, pieceText, h name hmem]
  rw [fill, fill, hpieces]

/-- Bindings that agree on the names in a text make the same of it, if what is bound in writing is
resolved alike. -/
theorem resolveText_congr {expand expand' : String → Value → Except Error Value}
    (hnames : ∀ name ∈ namesIn text,
      Fields.find? (String.ofList name) bindings = Fields.find? (String.ofList name) bindings')
    (hexpand : ∀ name inner parsed, whole? text.toList = some name →
      Fields.find? (String.ofList name) bindings = some (.string inner) →
      structure? reading inner = some parsed →
      expand (String.ofList name) parsed = expand' (String.ofList name) parsed) :
    resolveText reading bindings tolerant expand text =
      resolveText reading bindings' tolerant expand' text := by
  simp only [resolveText]
  rcases hwhole : whole? text.toList with _ | name
  · have hfill := fill_congr tolerant fun name hmem =>
      hnames name (mem_namesIn.mpr hmem)
    simp only [hfill]
  · have hname := hnames name (mem_namesIn_of_whole? hwhole)
    simp only [← hname]
    rcases hfind : Fields.find? (String.ofList name) bindings with _ | found
    · rfl
    · cases found with
      | string inner =>
        rcases hstructure : structure? reading inner with _ | parsed
        · simp only [hstructure]
        · simp only [hstructure, hexpand name inner parsed hwhole hfind hstructure]
      | null => rfl
      | bool flag => rfl
      | number n => rfl
      | list items => rfl
      | object entries => rfl

/-- A name that is opened already refers to itself, however many names are left. -/
theorem expand_of_mem {free : Nat} {name : String} (h : name ∈ opened) :
    expand reading bindings tolerant free opened name parsed = .error (cycle opened name) := by
  cases free with
  | zero => rfl
  | succ free => rw [expand, if_pos (List.contains_iff_mem.mpr h)]

theorem nodup_concat {name : String} (hdistinct : opened.Nodup) (hnew : name ∉ opened) :
    (opened ++ [name]).Nodup := by
  refine List.nodup_append.mpr ⟨hdistinct, List.nodup_cons.mpr ⟨nofun, List.nodup_nil⟩, ?_⟩
  intro first hfirst last hlast hsame
  obtain rfl := List.mem_singleton.mp hlast
  exact hnew (hsame ▸ hfirst)

theorem bound_opened {first last : String} (hfirst : (Fields.find? first bindings).isSome)
    (h : ∀ other ∈ last :: opened, (Fields.find? other bindings).isSome) :
    ∀ other ∈ first :: (opened ++ [last]), (Fields.find? other bindings).isSome := by
  intro other hmem
  rcases List.mem_cons.mp hmem with rfl | hmem
  · exact hfirst
  · exact h other (by simpa [or_comm] using hmem)

/-- What is bound in writing is resolved alike under bindings that agree on the names it consults.
The names left to be opened never run out: all opened ones are different, and have values. -/
theorem expand_congr {free free' : Nat} {name : String} (hdistinct : opened.Nodup)
    (hbound : ∀ other ∈ name :: opened, (Fields.find? other bindings).isSome)
    (hbound' : ∀ other ∈ name :: opened, (Fields.find? other bindings').isSome)
    (hfree : bindings.length ≤ free + opened.length)
    (hfree' : bindings'.length ≤ free' + opened.length)
    (hagree : AgreeOnConsulted reading bindings bindings' parsed) :
    expand reading bindings tolerant free opened name parsed =
      expand reading bindings' tolerant free' opened name parsed := by
  induction free generalizing free' opened name parsed with
  | zero =>
    -- no name is left, so all that have values are opened
    have hmem : name ∈ opened := Decidable.byContradiction fun hname => by
      have hlength := Fields.length_lt_of_bound hdistinct hbound hname
      omega
    rw [expand_of_mem hmem, expand_of_mem hmem]
  | succ free ih =>
    by_cases hmem : name ∈ opened
    · rw [expand_of_mem hmem, expand_of_mem hmem]
    · have hlength := Fields.length_lt_of_bound hdistinct hbound' hmem
      obtain ⟨left, rfl⟩ : ∃ left, free' = left + 1 := ⟨free' - 1, by omega⟩
      have hcontains : ¬ opened.contains name := fun h => hmem (List.contains_iff_mem.mp h)
      rw [expand, expand, if_neg hcontains, if_neg hcontains]
      refine Value.replaceTexts_congr parsed fun text htext => ?_
      refine resolveText_congr (fun other hother => hagree other (.mentioned htext hother)) ?_
      intro other inner written hwhole hfind hstructure
      have hother := hagree other (.mentioned htext (mem_namesIn_of_whole? hwhole))
      have hlengths : (opened ++ [name]).length = opened.length + 1 := List.length_append
      refine ih (nodup_concat hdistinct hmem) (bound_opened ?_ hbound) (bound_opened ?_ hbound') (by omega) (by omega)
        fun deeper hdeeper => hagree deeper (.written htext hwhole hfind hstructure hdeeper)
      · simp [hfind]
      · simp [← hother, hfind]

/-- **Bindings that agree on the names that a value consults make the same of it.** -/
theorem resolve_congr (tolerant : Bool)
    (hagree : AgreeOnConsulted reading bindings bindings' value) :
    resolve reading bindings tolerant value = resolve reading bindings' tolerant value := by
  refine Value.replaceTexts_congr value fun text htext => ?_
  refine resolveText_congr (fun name hname => hagree name (.mentioned htext hname)) ?_
  intro name inner parsed hwhole hfind hstructure
  have hname := hagree name (.mentioned htext (mem_namesIn_of_whole? hwhole))
  refine expand_congr List.nodup_nil ?_ ?_ (Nat.le_refl _) (Nat.le_refl _)
    fun deeper hdeeper => hagree deeper (.written htext hwhole hfind hstructure hdeeper)
  · simp [hfind]
  · simp [← hname, hfind]

end Placeholder

end TableRecipe
