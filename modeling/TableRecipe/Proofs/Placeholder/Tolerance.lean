import TableRecipe.Proofs.Placeholder.Cycles
import TableRecipe.Proofs.Placeholder.Places

/-!
# Where unknown names are tolerated

A recipe is resolved before it runs. Names without a value are tolerated in what is resolved again
later on: in its hooks, and in the parameters of matrices and recipes that stand in its sections, by
themselves, in lists or among the sources of an entry that combines them. Apart from that the recipe
is resolved as any value is.

* `Placeholder.DeferredIn`, `Placeholder.DeferredPlace` — the places that are resolved again;
* `Placeholder.LacksValue` — whether another place needs a name that has no value;
* `Placeholder.Spares` — a pass that tolerates such names at some places and nowhere else;
* `Placeholder.resolveRecipe_tolerates` — what a recipe resolves to, and when it cannot be resolved.
-/

namespace TableRecipe

/-- A map succeeds where another one does and every item satisfies what is asked of it at its place,
if this holds item by item. -/
theorem mapM_ok_iff_of {α β : Type} {f g : α → Except Error β} {p : Nat → α → Prop} {xs : List α}
    (h : ∀ i x, xs[i]? = some x → ∀ y, f x = .ok y ↔ g x = .ok y ∧ p i x) (ys : List β) :
    xs.mapM f = .ok ys ↔ xs.mapM g = .ok ys ∧ ∀ i x, xs[i]? = some x → p i x := by
  induction xs generalizing p ys with
  | nil => simp
  | cons first rest ih =>
    have hfirst := h 0 first rfl
    have hrest := ih (p := fun i => p (i + 1)) fun i x hx => h (i + 1) x hx
    have hall : (∀ i x, (first :: rest)[i]? = some x → p i x) ↔
        p 0 first ∧ ∀ i x, rest[i]? = some x → p (i + 1) x := by
      constructor
      · exact fun hp => ⟨hp 0 first rfl, fun i x hx => hp (i + 1) x hx⟩
      · rintro ⟨hzero, hsucc⟩ (_ | i) x hx
        · obtain rfl := Option.some.inj hx
          exact hzero
        · exact hsucc i x hx
    simp only [List.mapM_cons, bind_eq_ok, hfirst, hrest, hall]
    constructor
    · rintro ⟨y, ⟨hy, hp⟩, ys', ⟨hys, hps⟩, hpure⟩
      exact ⟨⟨y, hy, ys', hys, hpure⟩, hp, hps⟩
    · rintro ⟨⟨y, hy, ys', hys, hpure⟩, hp, hps⟩
      exact ⟨y, ⟨hy, hp⟩, ys', ⟨hys, hps⟩, hpure⟩

namespace Value

/-! ## Parts and texts -/

/-- What holds of a value as soon as it holds of its parts holds of every value. -/
theorem ind_parts {motive : Value → Prop}
    (h : ∀ value : Value, (∀ part ∈ value.parts, motive part) → motive value) (value : Value) :
    motive value := by
  induction hsize : sizeOf value using Nat.strongRecOn generalizing value with
  | ind size ih =>
    refine h value fun part hpart => ih (sizeOf part) ?_ part rfl
    cases value with
    | list items =>
      have hlist := Value.list.sizeOf_spec items
      have hlt := List.sizeOf_lt_of_mem (show part ∈ items from hpart)
      omega
    | object entries =>
      obtain ⟨entry, hentry, rfl⟩ := List.mem_map.mp hpart
      have hobject := Value.object.sizeOf_spec entries
      have hlt := List.sizeOf_lt_of_mem hentry
      have hpair : sizeOf entry = 1 + sizeOf entry.1 + sizeOf entry.2 := rfl
      omega
    | _ => cases hpart

theorem mem_textsInEntries {text : String} {entries : Fields} :
    text ∈ textsInEntries entries ↔ ∃ entry ∈ entries, text ∈ entry.2.texts := by
  induction entries with
  | nil => simp [textsInEntries]
  | cons entry rest ih => simp [textsInEntries, ih]

/-- The texts in a value are those that stand at some place. -/
theorem mem_texts_iff_at? {text : String} (value : Value) :
    text ∈ value.texts ↔ ∃ place, value.at? place = some (.string text) := by
  induction value using ind_parts with
  | h value ih =>
    have hparts : (∃ part ∈ value.parts, text ∈ part.texts) ↔
        ∃ position place, value.at? (position :: place) = some (.string text) := by
      constructor
      · rintro ⟨part, hpart, htext⟩
        obtain ⟨position, hposition⟩ := List.mem_iff_getElem?.mp hpart
        obtain ⟨place, hplace⟩ := (ih part hpart).mp htext
        exact ⟨position, place, by rw [at?_cons, hposition]; exact hplace⟩
      · rintro ⟨position, place, hplace⟩
        rw [at?_cons] at hplace
        obtain ⟨part, hposition, hplace⟩ := Option.bind_eq_some_iff.mp hplace
        have hpart := List.mem_of_getElem? hposition
        exact ⟨part, hpart, (ih part hpart).mpr ⟨place, hplace⟩⟩
    cases value with
    | string other =>
      constructor
      · intro htext
        obtain rfl := List.mem_singleton.mp htext
        exact ⟨[], rfl⟩
      · rintro ⟨_ | ⟨position, place⟩, hplace⟩
        · obtain rfl := Value.string.inj (Option.some.inj hplace)
          exact List.mem_singleton_self _
        · cases hplace
    | list items =>
      rw [texts, Placeholder.mem_textsInItems]
      refine hparts.trans ⟨fun ⟨position, place, h⟩ => ⟨position :: place, h⟩, ?_⟩
      rintro ⟨_ | ⟨position, place⟩, hplace⟩
      · cases hplace
      · exact ⟨position, place, hplace⟩
    | object entries =>
      rw [texts, mem_textsInEntries]
      have hentries : (∃ entry ∈ entries, text ∈ entry.2.texts) ↔
          ∃ part ∈ (Value.object entries).parts, text ∈ part.texts := by
        constructor
        · exact fun ⟨entry, hentry, htext⟩ => ⟨_, List.mem_map_of_mem hentry, htext⟩
        · rintro ⟨_, hpart, htext⟩
          obtain ⟨entry, hentry, rfl⟩ := List.mem_map.mp hpart
          exact ⟨entry, hentry, htext⟩
      refine (hentries.trans hparts).trans ⟨fun ⟨position, place, h⟩ => ⟨position :: place, h⟩, ?_⟩
      rintro ⟨_ | ⟨position, place⟩, hplace⟩
      · cases hplace
      · exact ⟨position, place, hplace⟩
    | null => exact ⟨nofun, fun ⟨place, h⟩ => by cases place <;> cases h⟩
    | bool flag => exact ⟨nofun, fun ⟨place, h⟩ => by cases place <;> cases h⟩
    | number n => exact ⟨nofun, fun ⟨place, h⟩ => by cases place <;> cases h⟩

end Value

namespace Placeholder

variable {reading : Reading} {bindings : Fields} {value result : Value} {text : String}
  {exempt : List Nat → Prop} {entries : Fields} {items : List Value}

/-! ## Strict and tolerant resolution -/

theorem fill_tolerates {cs filled : List Char} (h : fill bindings false cs = .ok filled) :
    fill bindings true cs = .ok filled := by
  obtain ⟨parts, hparts, hpure⟩ := bind_eq_ok.mp h
  refine bind_eq_ok.mpr ⟨parts, ?_, hpure⟩
  have hpiece : ∀ (i : Nat) piece, (pieces cs)[i]? = some piece → ∀ t,
      pieceText bindings false piece = .ok t ↔ pieceText bindings true piece = .ok t ∧
        ∀ name, piece = .name name → Fields.find? (String.ofList name) bindings ≠ none := by
    intro i piece _ t
    cases piece with
    | char c => simp [pieceText]
    | name name =>
      rcases hfind : Fields.find? (String.ofList name) bindings with _ | found <;>
        simp [pieceText, hfind]
  exact ((mapM_ok_iff_of hpiece parts).mp hparts).1

/-- What is resolved without unknown names is resolved alike if they are tolerated. -/
theorem resolveText_tolerates {expand expand' : String → Value → Except Error Value}
    (hexpand : ∀ name parsed result, expand name parsed = .ok result →
      expand' name parsed = .ok result)
    (h : resolveText reading bindings false expand text = .ok result) :
    resolveText reading bindings true expand' text = .ok result := by
  cases kind reading bindings text with
  | mixed hwhole =>
    rw [resolveText_mixed hwhole] at h ⊢
    rcases hfill : fill bindings false text.toList with e | filled <;> rw [hfill] at h
    · cases h
    · rw [fill_tolerates hfill]
      exact h
  | unbound name hwhole hfind =>
    rw [resolveText_unbound hwhole hfind] at h
    cases h
  | plain name value hwhole hfind hwritten => rwa [resolveText_plain hwhole hfind hwritten] at h ⊢
  | written name value parsed hwhole hfind hwritten =>
    rw [resolveText_written hwhole hfind hwritten] at h ⊢
    exact hexpand _ _ _ h

theorem expand_tolerates {free : Nat} {opened : List String} {name : String} {parsed : Value}
    (h : expand reading bindings false free opened name parsed = .ok result) :
    expand reading bindings true free opened name parsed = .ok result := by
  induction free generalizing opened name parsed result with
  | zero => cases h
  | succ free ih =>
    rw [expand] at h ⊢
    split at h
    · cases h
    · rename_i hname
      rw [if_neg hname]
      exact Value.replaceTexts_mono parsed (fun text _ r hr =>
        resolveText_tolerates (fun _ _ _ => ih) hr) h

theorem resolve_tolerates (h : resolve reading bindings false value = .ok result) :
    resolve reading bindings true value = .ok result :=
  Value.replaceTexts_mono value (fun _ _ _ hr =>
    resolveText_tolerates (fun _ _ _ => expand_tolerates) hr) h

/-- Where unknown names are not tolerated, a value resolves to the same unless it consults one. -/
theorem resolve_strict_ok_iff :
    resolve reading bindings false value = .ok result ↔
      resolve reading bindings true value = .ok result ∧
        ¬ConsultsUnbound reading bindings value := by
  constructor
  · intro h
    refine ⟨resolve_tolerates h, fun hunbound => ?_⟩
    obtain ⟨e, he⟩ : ∃ e, resolve reading bindings false value = .error e := hunbound.fails
    rw [h] at he
    cases he
  · rintro ⟨htolerant, hbound⟩
    rcases hstrict : resolve reading bindings false value with e | other
    · rcases circular_or_unbound hstrict with hcircular | ⟨-, hunbound⟩
      · obtain ⟨e', he'⟩ : ∃ e', resolve reading bindings true value = .error e' :=
          resolve_fails_of_circular hcircular
        rw [htolerant] at he'
        cases he'
      · exact absurd hunbound hbound
    · rw [resolve_tolerates hstrict] at htolerant
      exact htolerant

/-! ## Places -/

/-- the places in a section of a recipe that are resolved again when it runs: the parameters of
matrices and recipes that stand in the section by themselves, in lists, or among the sources of an
entry that combines them -/
inductive DeferredIn : Value → List Nat → Prop where
  | params {entries : Fields} {position : Nat} {key : String} {params : Value}
    (hentry : entries[position]? = some (key, params)) (hkey : key ∈ deferred) :
    DeferredIn (.object entries) [position]
  | listed {items : List Value} {position : Nat} {item : Value} {place : List Nat}
    (hitem : items[position]? = some item) (h : DeferredIn item place) :
    DeferredIn (.list items) (position :: place)
  | source {entries params : Fields} {position parameter : Nat} {key : String} {sources : Value}
    {place : List Nat} (hentry : entries[position]? = some (key, .object params))
    (hkey : key ∈ combined) (hsources : params[parameter]? = some ("sources", sources))
    (h : DeferredIn sources place) : DeferredIn (.object entries) (position :: parameter :: place)

/-- the places in a recipe that are resolved again when it runs -/
inductive DeferredPlace (recipe : Fields) : List Nat → Prop where
  | hooks {position : Nat} {body : Value} (h : recipe[position]? = some ("run", body)) :
    DeferredPlace recipe [position]
  | entry {position : Nat} {name : String} {body : Value} {place : List Nat}
    (hsection : recipe[position]? = some (name, body)) (hname : name ∈ sections)
    (h : DeferredIn body place) : DeferredPlace recipe (position :: place)

/-- whether a text in a value consults a name without a value, at a place that lies within no exempt
one -/
def LacksValue (reading : Reading) (bindings : Fields) (exempt : List Nat → Prop)
    (value : Value) : Prop :=
  ∃ place text, value.at? place = some (.string text) ∧
    (∀ outer, outer <+: place → ¬exempt outer) ∧ ConsultsUnbound reading bindings (.string text)

theorem lacksValue_congr {exempt' : List Nat → Prop} (h : ∀ place, exempt place ↔ exempt' place) :
    LacksValue reading bindings exempt value ↔ LacksValue reading bindings exempt' value := by
  rw [funext fun place => propext (h place)]

/-- A value that is exempt as a whole lacks nothing. -/
theorem not_lacksValue_of_whole (h : exempt []) : ¬LacksValue reading bindings exempt value := by
  rintro ⟨place, text, -, hplace, -⟩
  exact hplace [] (List.nil_prefix ..) h

/-- Where nothing is exempt, a value lacks what it consults. -/
theorem lacksValue_of_none (h : ∀ place, ¬exempt place) :
    LacksValue reading bindings exempt value ↔ ConsultsUnbound reading bindings value := by
  constructor
  · rintro ⟨place, text, hplace, -, name, hconsults, hfind⟩
    have htext := (Value.mem_texts_iff_at? value).mpr ⟨place, hplace⟩
    refine ⟨name, ?_, hfind⟩
    cases hconsults with
    | mentioned hself hname =>
      obtain rfl := List.mem_singleton.mp hself
      exact .mentioned htext hname
    | written hself hwhole hbound hstructure hname =>
      obtain rfl := List.mem_singleton.mp hself
      exact .written htext hwhole hbound hstructure hname
  · rintro ⟨name, hconsults, hfind⟩
    have hself (text : String) : text ∈ (Value.string text).texts := List.mem_singleton_self text
    cases hconsults with
    | mentioned htext hname =>
      obtain ⟨place, hplace⟩ := (Value.mem_texts_iff_at? value).mp htext
      exact ⟨place, _, hplace, fun outer _ => h outer, name, .mentioned (hself _) hname, hfind⟩
    | written htext hwhole hbound hstructure hname =>
      obtain ⟨place, hplace⟩ := (Value.mem_texts_iff_at? value).mp htext
      exact ⟨place, _, hplace, fun outer _ => h outer, name,
        .written (hself _) hwhole hbound hstructure hname, hfind⟩

/-- What a list or mapping lacks one of its parts lacks. -/
theorem lacksValue_iff_parts (htext : ∀ text, value ≠ .string text) (hself : ¬exempt []) :
    LacksValue reading bindings exempt value ↔ ∃ position part,
      value.parts[position]? = some part ∧
        LacksValue reading bindings (fun place => exempt (position :: place)) part := by
  constructor
  · rintro ⟨_ | ⟨position, place⟩, text, hplace, hexempt, hunbound⟩
    · exact absurd (Option.some.inj hplace) (htext text)
    · rw [Value.at?_cons] at hplace
      obtain ⟨part, hpart, hplace⟩ := Option.bind_eq_some_iff.mp hplace
      refine ⟨position, part, hpart, place, text, hplace, fun outer houter => ?_, hunbound⟩
      exact hexempt _ (List.cons_prefix_cons.mpr ⟨rfl, houter⟩)
  · rintro ⟨position, part, hpart, place, text, hplace, hexempt, hunbound⟩
    refine ⟨position :: place, text, ?_, fun outer houter => ?_, hunbound⟩
    · rw [Value.at?_cons, hpart]
      exact hplace
    · cases outer with
      | nil => exact hself
      | cons first outer =>
        obtain ⟨rfl, hrest⟩ := List.cons_prefix_cons.mp houter
        exact hexempt outer hrest

/-! ## Passes that spare places -/

/-- a pass that makes of a value what tolerant resolution makes of it, unless a place that is not
exempt lacks a value -/
def Spares (reading : Reading) (bindings : Fields) (pass : Value → Except Error Value)
    (exempt : List Nat → Prop) (value : Value) : Prop :=
  ∀ result, pass value = .ok result ↔ resolve reading bindings true value = .ok result ∧
    ¬LacksValue reading bindings exempt value

namespace Spares

variable {pass inner : Value → Except Error Value}
  {change : String → Value → Except Error Value}

theorem strict (hpass : pass value = resolve reading bindings false value)
    (h : ∀ place, ¬exempt place) : Spares reading bindings pass exempt value := by
  intro result
  rw [hpass, lacksValue_of_none h]
  exact resolve_strict_ok_iff

theorem tolerant (hpass : pass value = resolve reading bindings true value) (h : exempt []) :
    Spares reading bindings pass exempt value := by
  intro result
  rw [hpass, and_iff_left (not_lacksValue_of_whole h)]

theorem congr {exempt' : List Nat → Prop} (h : ∀ place, exempt place ↔ exempt' place)
    (hspares : Spares reading bindings pass exempt value) :
    Spares reading bindings pass exempt' value := by
  intro result
  rw [← lacksValue_congr h]
  exact hspares result

/-- A list is resolved item by item. -/
theorem list (hpass : pass (.list items) = do return .list (← items.mapM inner))
    (hself : ¬exempt []) (hitems : ∀ position item, items[position]? = some item →
      Spares reading bindings inner (fun place => exempt (position :: place)) item) :
    Spares reading bindings pass exempt (.list items) := by
  intro result
  have htolerant : resolve reading bindings true (.list items) =
      (do return .list (← items.mapM (resolve reading bindings true))) := by
    rw [resolve, Value.replaceTexts, Value.replaceInItems_eq_mapM]
    rfl
  rw [hpass, htolerant, lacksValue_iff_parts (fun _ h => by cases h) hself]
  simp only [bind_eq_ok, mapM_ok_iff_of hitems, not_exists, not_and]
  constructor
  · rintro ⟨results, ⟨hok, hall⟩, hpure⟩
    exact ⟨⟨results, hok, hpure⟩, hall⟩
  · rintro ⟨⟨results, hok, hpure⟩, hall⟩
    exact ⟨results, ⟨hok, hall⟩, hpure⟩

/-- A mapping is resolved entry by entry. -/
theorem object (hpass : pass (.object entries) = do
      return .object (← entries.mapM fun (name, value) => return (name, ← change name value)))
    (hself : ¬exempt [])
    (hentries : ∀ position name value, entries[position]? = some (name, value) →
      Spares reading bindings (change name) (fun place => exempt (position :: place)) value) :
    Spares reading bindings pass exempt (.object entries) := by
  intro result
  have htolerant : resolve reading bindings true (.object entries) = do
      return .object (← entries.mapM fun (name, value) =>
        return (name, ← resolve reading bindings true value)) := by
    rw [resolve, Value.replaceTexts, Value.replaceInEntries_eq_mapM]
    rfl
  have hentry : ∀ position entry, entries[position]? = some entry → ∀ entry',
      (do return (entry.1, ← change entry.1 entry.2)) = Except.ok entry' ↔
        (do return (entry.1, ← resolve reading bindings true entry.2)) = Except.ok entry' ∧
          ¬LacksValue reading bindings (fun place => exempt (position :: place)) entry.2 := by
    rintro position ⟨name, value⟩ hentry entry'
    have hvalue := hentries position name value hentry
    simp only [bind_eq_ok, hvalue _]
    constructor
    · rintro ⟨value', ⟨hok, hlacks⟩, hpure⟩
      exact ⟨⟨value', hok, hpure⟩, hlacks⟩
    · rintro ⟨⟨value', hok, hpure⟩, hlacks⟩
      exact ⟨value', ⟨hok, hlacks⟩, hpure⟩
  have hparts : (∀ position entry, entries[position]? = some entry →
        ¬LacksValue reading bindings (fun place => exempt (position :: place)) entry.2) ↔
      ¬∃ position part, (Value.object entries).parts[position]? = some part ∧
        LacksValue reading bindings (fun place => exempt (position :: place)) part := by
    simp only [Value.parts, List.getElem?_map, Option.map_eq_some_iff, not_exists, not_and]
    constructor
    · rintro hall position _ ⟨entry, hentry, rfl⟩
      exact hall position entry hentry
    · exact fun hall position entry hentry => hall position _ ⟨entry, hentry, rfl⟩
  rw [hpass, htolerant, lacksValue_iff_parts (fun _ h => by cases h) hself, ← hparts]
  simp only [bind_eq_ok, mapM_ok_iff_of hentry]
  constructor
  · rintro ⟨results, ⟨hok, hall⟩, hpure⟩
    exact ⟨⟨results, hok, hpure⟩, hall⟩
  · rintro ⟨⟨results, hok, hpure⟩, hall⟩
    exact ⟨results, ⟨hok, hall⟩, hpure⟩

end Spares

/-! ## Sections -/

/-- the places in the parameters of an entry that combines sources which are resolved again when it
runs -/
def DeferredAmong (params : Value) (place : List Nat) : Prop :=
  ∃ entries parameter sources rest, params = .object entries ∧
    entries[parameter]? = some ("sources", sources) ∧ place = parameter :: rest ∧
    DeferredIn sources rest

theorem deferredIn_item {position : Nat} {item : Value} (hitem : items[position]? = some item)
    (place : List Nat) : DeferredIn (.list items) (position :: place) ↔ DeferredIn item place := by
  constructor
  · intro h
    cases h with
    | listed hitem' h =>
      obtain rfl := Option.some.inj (hitem.symm.trans hitem')
      exact h
  · exact .listed hitem

theorem deferredIn_entry {position : Nat} {key : String} {params : Value}
    (hentry : entries[position]? = some (key, params)) (place : List Nat) :
    DeferredIn (.object entries) (position :: place) ↔
      key ∈ deferred ∧ place = [] ∨ key ∈ combined ∧ DeferredAmong params place := by
  constructor
  · intro h
    cases h with
    | params hentry' hkey =>
      obtain ⟨rfl, rfl⟩ := Prod.mk.inj (Option.some.inj (hentry.symm.trans hentry'))
      exact .inl ⟨hkey, rfl⟩
    | source hentry' hkey hsources h =>
      obtain ⟨rfl, rfl⟩ := Prod.mk.inj (Option.some.inj (hentry.symm.trans hentry'))
      exact .inr ⟨hkey, _, _, _, _, rfl, hsources, rfl, h⟩
  · rintro (⟨hkey, rfl⟩ | ⟨hkey, inner, parameter, sources, rest, rfl, hsources, rfl, h⟩)
    · exact .params hentry hkey
    · exact .source hentry hkey hsources h

theorem deferredAmong_entry {position : Nat} {key : String} {source : Value}
    (hentry : entries[position]? = some (key, source)) (place : List Nat) :
    DeferredAmong (.object entries) (position :: place) ↔
      key = "sources" ∧ DeferredIn source place := by
  constructor
  · rintro ⟨inner, parameter, sources, rest, hparams, hsources, hplace, h⟩
    obtain rfl := Value.object.inj hparams
    obtain ⟨rfl, rfl⟩ := List.cons.inj hplace
    obtain ⟨rfl, rfl⟩ := Prod.mk.inj (Option.some.inj (hentry.symm.trans hsources))
    exact ⟨rfl, h⟩
  · rintro ⟨rfl, h⟩
    exact ⟨_, _, _, _, rfl, hentry, rfl, h⟩

/-- What is no list and no mapping has no place that is resolved again. -/
theorem not_deferredIn_scalar (hlist : ∀ items, value ≠ .list items)
    (hobject : ∀ entries, value ≠ .object entries) (place : List Nat) :
    ¬DeferredIn value place := by
  rintro (_ | ⟨_, _⟩ | ⟨_, _, _, _⟩)
  · exact hobject _ rfl
  · exact hlist _ rfl
  · exact hobject _ rfl

theorem not_deferredAmong_of_ne (hobject : ∀ entries, value ≠ .object entries) (place : List Nat) :
    ¬DeferredAmong value place := by
  rintro ⟨entries, _, _, _, rfl, -⟩
  exact hobject entries rfl

/-- The parameters of an entry are resolved strictly but for what is resolved again. -/
theorem spares_under {key : String}
    (h : Spares reading bindings (resolveCombined (resolve reading bindings false)
      (resolve reading bindings true)) (DeferredAmong value) value) :
    Spares reading bindings
      (resolveUnder (resolve reading bindings false) (resolve reading bindings true) key)
      (fun place => key ∈ deferred ∧ place = [] ∨ key ∈ combined ∧ DeferredAmong value place)
      value := by
  by_cases hdeferred : key ∈ deferred
  · refine .tolerant ?_ (.inl ⟨hdeferred, rfl⟩)
    simp [resolveUnder, hdeferred]
  by_cases hcombined : key ∈ combined
  · have hunder :
        resolveUnder (resolve reading bindings false) (resolve reading bindings true) key =
          resolveCombined (resolve reading bindings false) (resolve reading bindings true) := by
      funext params
      simp [resolveUnder, hdeferred, hcombined]
    rw [hunder]
    exact .congr (fun place => by simp [hdeferred, hcombined]) h
  · refine .strict ?_ fun place => by simp [hdeferred, hcombined]
    simp [resolveUnder, hdeferred, hcombined]

/-- Of the parameters of an entry that combines sources the sources are resolved as entries. -/
theorem spares_source {key : String}
    (h : Spares reading bindings (resolveSteps reading bindings) (DeferredIn value) value) :
    Spares reading bindings
      (resolveSource (resolve reading bindings false) (resolve reading bindings true) key)
      (fun place => key = "sources" ∧ DeferredIn value place) value := by
  by_cases hkey : key = "sources"
  · have hsource : resolveSource (resolve reading bindings false) (resolve reading bindings true)
        key = resolveSteps reading bindings := by
      funext source
      simp [resolveSource, hkey, resolveSteps]
    rw [hsource]
    exact .congr (fun place => (and_iff_right hkey).symm) h
  · refine .strict ?_ fun place hplace => hkey hplace.1
    simp [resolveSource, hkey]

/-- The entries of a section, and the parameters of an entry that combines sources, are resolved
strictly but for what is resolved again when they run. -/
theorem spares_sections (value : Value) :
    Spares reading bindings (resolveSteps reading bindings) (DeferredIn value) value ∧
    Spares reading bindings (resolveCombined (resolve reading bindings false)
      (resolve reading bindings true)) (DeferredAmong value) value := by
  induction value using Value.ind_parts with
  | h value ih =>
    cases value with
    | list items =>
      constructor
      · have hitems : resolveSteps reading bindings (.list items) =
            (do return .list (← items.mapM (resolveSteps reading bindings))) := by
          change resolveEntries _ _ _ = _
          rw [resolveEntries, resolveItems_eq_mapM]
          rfl
        refine .list hitems nofun fun position item hitem => ?_
        refine .congr (fun place => (deferredIn_item hitem place).symm) ?_
        exact (ih item (List.mem_of_getElem? hitem)).1
      · exact .strict rfl (not_deferredAmong_of_ne nofun)
    | object entries =>
      constructor
      · have hentries : resolveSteps reading bindings (.object entries) = do
            return .object (← entries.mapM fun (key, params) =>
              return (key, ← resolveUnder (resolve reading bindings false)
                (resolve reading bindings true) key params)) := by
          change resolveEntries _ _ _ = _
          rw [resolveEntries, resolveParams_eq_mapM]
        refine .object hentries nofun fun position key params hentry => ?_
        have hparams := ih params (List.mem_map_of_mem (List.mem_of_getElem? hentry))
        exact .congr (fun place => (deferredIn_entry hentry place).symm) (spares_under hparams.2)
      · have hentries : resolveCombined (resolve reading bindings false)
            (resolve reading bindings true) (.object entries) = do
              return .object (← entries.mapM fun (key, value) =>
                return (key, ← resolveSource (resolve reading bindings false)
                  (resolve reading bindings true) key value)) := by
          rw [resolveCombined, resolveSources_eq_mapM]
        have hself : ¬DeferredAmong (.object entries) [] := by
          rintro ⟨_, _, _, _, -, -, h, -⟩
          cases h
        refine .object hentries hself fun position key source hentry => ?_
        have hsource := ih source (List.mem_map_of_mem (List.mem_of_getElem? hentry))
        exact .congr (fun place => (deferredAmong_entry hentry place).symm)
          (spares_source hsource.1)
    | _ => exact ⟨.strict rfl (not_deferredIn_scalar nofun nofun),
        .strict rfl (not_deferredAmong_of_ne nofun)⟩

/-! ## Recipes -/

theorem deferredPlace_section {recipe : Fields} {position : Nat} {name : String} {body : Value}
    (hsection : recipe[position]? = some (name, body)) (place : List Nat) :
    DeferredPlace recipe (position :: place) ↔
      name = "run" ∧ place = [] ∨ name ∈ sections ∧ DeferredIn body place := by
  constructor
  · intro h
    cases h with
    | hooks hsection' =>
      obtain ⟨rfl, -⟩ := Prod.mk.inj (Option.some.inj (hsection.symm.trans hsection'))
      exact .inl ⟨rfl, rfl⟩
    | entry hsection' hname h =>
      obtain ⟨rfl, rfl⟩ := Prod.mk.inj (Option.some.inj (hsection.symm.trans hsection'))
      exact .inr ⟨hname, h⟩
  · rintro (⟨rfl, rfl⟩ | ⟨hname, h⟩)
    · exact .hooks hsection
    · exact .entry hsection hname h

/-- A section of a recipe is resolved strictly but for what is resolved again when it runs. -/
theorem spares_section (name : String) (body : Value) :
    Spares reading bindings (resolveSection reading bindings name)
      (fun place => name = "run" ∧ place = [] ∨ name ∈ sections ∧ DeferredIn body place) body := by
  by_cases hhooks : name = "run"
  · refine .tolerant ?_ (.inl ⟨hhooks, rfl⟩)
    simp [resolveSection, hhooks]
  by_cases hsections : name ∈ sections
  · have hsection : resolveSection reading bindings name = resolveSteps reading bindings := by
      funext body
      simp [resolveSection, hhooks, hsections]
    rw [hsection]
    exact .congr (fun place => by simp [hhooks, hsections]) (spares_sections body).1
  · refine .strict ?_ fun place => by simp [hhooks, hsections]
    simp [resolveSection, hhooks, hsections]

/-- A recipe is resolved strictly but for what is resolved again when it runs. -/
theorem spares_recipe (recipe : Fields) :
    Spares reading bindings (resolveRecipe reading bindings) (DeferredPlace recipe)
      (.object recipe) := by
  refine .object rfl nofun fun position name body hsection => ?_
  exact .congr (fun place => (deferredPlace_section hsection place).symm) (spares_section name body)

/-- The parameters of an entry of a section are not resolved again, whatever they are called, unless
the entry is a matrix, a recipe, or one that combines sources. -/
theorem not_deferredPlace_param {recipe entries : Fields} {steps : List Value} {name key : String}
    {params : Value} {position number parameter : Nat}
    (hsection : recipe[position]? = some (name, .list steps))
    (hstep : steps[number]? = some (.object entries))
    (hparams : entries[parameter]? = some (key, params))
    (hdeferred : key ∉ deferred) (hcombined : key ∉ combined) (rest : List Nat) :
    ¬DeferredPlace recipe (position :: number :: parameter :: rest) := by
  rw [deferredPlace_section hsection, deferredIn_item hstep, deferredIn_entry hparams]
  simp [hdeferred, hcombined]

/-- A recipe that can be resolved resolves to what it resolves to with unknown names tolerated
everywhere. It cannot be resolved, although it could with unknown names tolerated, if and only if a
name without a value is consulted at a place that is not resolved again. The parameters of an
ordinary entry are no such place. -/
theorem resolveRecipe_tolerates (reading : Reading) (bindings recipe : Fields) :
    (∀ resolved, resolveRecipe reading bindings (.object recipe) = .ok resolved →
      resolve reading bindings true (.object recipe) = .ok resolved) ∧
    ((∃ e, resolveRecipe reading bindings (.object recipe) = .error e) ∧
        (∃ resolved, resolve reading bindings true (.object recipe) = .ok resolved) ↔
      LacksValue reading bindings (DeferredPlace recipe) (.object recipe) ∧
        ∃ resolved, resolve reading bindings true (.object recipe) = .ok resolved) ∧
    (∀ position name steps number entries parameter key params rest,
      recipe[position]? = some (name, .list steps) → steps[number]? = some (.object entries) →
      entries[parameter]? = some (key, params) → key ∉ deferred → key ∉ combined →
      ¬DeferredPlace recipe (position :: number :: parameter :: rest)) := by
  have hspares : Spares reading bindings (resolveRecipe reading bindings) (DeferredPlace recipe)
      (.object recipe) := spares_recipe recipe
  refine ⟨fun resolved h => ((hspares resolved).mp h).1, and_congr_left ?_, ?_⟩
  · rintro ⟨resolved, htolerant⟩
    constructor
    · rintro ⟨e, he⟩
      refine Classical.byContradiction fun hlacks => ?_
      rw [(hspares resolved).mpr ⟨htolerant, hlacks⟩] at he
      cases he
    · intro hlacks
      rcases hstrict : resolveRecipe reading bindings (.object recipe) with e | other
      · exact ⟨e, rfl⟩
      · exact absurd hlacks ((hspares other).mp hstrict).2
  · intro position name steps number entries parameter key params rest
    exact fun hsection hstep hparams hdeferred hcombined =>
      not_deferredPlace_param hsection hstep hparams hdeferred hcombined rest

/-- A column of the name of an entry that is resolved again is no such entry. -/
example : resolveRecipe readDocument [] (.object [("wrangles", .list
      [.object [("rename", .object [("matrix", .string "${heading}")])]])]) =
    .error (.of (.unknownVariable "heading")) :=
  rfl

end Placeholder

end TableRecipe
