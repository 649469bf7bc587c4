import TableRecipe.Proofs.Outcome
import TableRecipe.Proofs.Selector.Expansion
import TableRecipe.Proofs.Selector.Places
import TableRecipe.Proofs.Selector.Wildcards

/-!
# What selectors mean

Every selector has a meaning in a list of columns, or a reason why it has none: it cannot be read,
it is a slice that does not move, or it finds nothing and must find something. A list of selectors
stands for the columns that their meanings stand for.

* `Selector.finds` — the columns that a selector finds;
* `Selector.meaning` — what a text means as a selector;
* `Selector.fallback` — the meaning put in front of selectors that all take columns away;
* `Selector.expand_iff` — the columns of a list of selectors, or the first reason why there are
  none.
-/

namespace TableRecipe.Selector

variable {columns selectors selected result : List String} {text : String} {selector : Selector}
  {slice : Slice}

/-! ## The meaning of a selector -/

/-- the column at a place, counted from the end if the place is negative -/
def columnAt? (columns : List String) (place : Int) : Option String :=
  if 0 ≤ place then columns[place.toNat]? else columns.reverse[(-place - 1).toNat]?

/-- the columns that a selector finds, in order -/
def finds (columns : List String) (selector : Selector) : List String :=
  match selector.kind with
  | .name => if selector.body ∈ columns then [selector.body] else []
  | .position place => (columnAt? columns place).toList
  | .slice slice => (slice.places columns.length).filterMap (columns[·]?)
  | .wildcard _ => columns.filter fun column => Wildcard.Matches selector.body.toList column.toList
  | .pattern regex => columns.filter fun column => regex.isMatch column.toList

/-- how a failure names what a selector did not find -/
def missing (columns : List String) (selector : Selector) : String :=
  match selector.kind with
  | .position _ => s!"{selector.body} (position out of range for {columns.length} columns)"
  | _ => selector.body

/-- whether a selector is a slice that does not move -/
def standsStill (selector : Selector) : Bool :=
  match selector.kind with
  | .slice slice => slice.distance = 0
  | _ => false

/-- the columns that a selector finds, unless it stands still or lacks what it must find -/
def findSome (columns : List String) (selector : Selector) : Except Error (List String) := do
  if selector.standsStill then throw (.validation "slice step cannot be zero")
  if selector.finds columns = [] ∧ selector.optional = false then
    throw (.unknownColumn (selector.missing columns))
  return selector.finds columns

/-- what a text means as a selector: the column that has this name, or else what the selector
finds -/
def meaning (columns : List String) (text : String) : Except Error Meaning := do
  if text ∈ columns then return ⟨true, [text]⟩
  let selector ← read text
  return ⟨!selector.negated, ← selector.findSome columns⟩

/-- the meaning in front of a list of selectors: all columns, if each selector takes columns away,
none is the name of a column and none contains a colon -/
def fallback (columns selectors : List String) : List Meaning :=
  if selectors ≠ [] ∧ ∀ text ∈ selectors, isNegated text ∧ text ∉ columns ∧ ':' ∉ text.toList then
    [⟨true, columns⟩]
  else []

/-- the slice by which a selector finds columns -/
def slice? (selector : Selector) : Option Slice :=
  match selector.kind with
  | .slice slice => some slice
  | _ => none

/-- whether no slice among selectors steps out of the integers of 64 bits -/
def StepsFit (columns selectors : List String) : Prop :=
  ∀ text ∈ selectors, text ∉ columns →
    ∀ slice ∈ (read text).toOption.bind slice?, slice.StepsFit columns.length

instance : Decidable (StepsFit columns selectors) :=
  inferInstanceAs (Decidable (∀ _ ∈ _, _ → ∀ _ ∈ _, _))

/-! ## Finding columns -/

theorem filter_eq_of_nodup (hdistinct : columns.Nodup) :
    columns.filter (· = text) = if text ∈ columns then [text] else [] := by
  rw [List.filter_eq]
  split
  · rename_i hmem
    rw [List.count_eq_one_of_mem hdistinct hmem]
    rfl
  · rename_i hmem
    rw [List.count_eq_zero_of_not_mem hmem]
    rfl

theorem columnAt?_eq (columns : List String) (place : Int) :
    columnAt? columns place =
      let resolved := if place < 0 then columns.length + place else place
      if resolved < 0 then none else columns[resolved.toNat]? := by
  rw [columnAt?]
  by_cases hplace : 0 ≤ place
  · simp [hplace, Int.not_lt.mpr hplace]
  · have hnegative : place < 0 := by omega
    simp only [hplace, hnegative, if_true, if_false]
    by_cases hthere : columns.length + place < 0
    · rw [if_pos hthere, List.getElem?_eq_none (by rw [List.length_reverse]; omega)]
    · rw [if_neg hthere, List.getElem?_reverse (by omega)]
      congr 1
      omega

/-- A selector whose search goes well must have found a column unless it is optional. -/
theorem selectSome_of_ok {found : List String} (hselect : selector.select columns = .ok found) :
    selector.selectSome columns =
      if found = [] ∧ selector.optional = false then .error (.unknownColumn selector.body)
      else .ok found := by
  rw [selectSome, hselect]
  change (if found.isEmpty && !selector.optional then _ else _) = _
  by_cases hnone : found = [] ∧ selector.optional = false
  · rw [if_pos (by simp [hnone]), if_pos hnone]
    rfl
  · rw [if_neg (by simpa using hnone), if_neg hnone]
    rfl

/-- A selector whose search goes well has its columns, or too few of them. -/
theorem selectSome_of_select (hselect : selector.select columns = .ok (selector.finds columns))
    (hmoves : selector.standsStill = false)
    (hmissing : selector.finds columns = [] → selector.optional = false →
      selector.missing columns = selector.body) :
    selector.selectSome columns = selector.findSome columns := by
  rw [selectSome_of_ok hselect, findSome, hmoves]
  change _ = if selector.finds columns = [] ∧ selector.optional = false then _ else _
  by_cases hnone : selector.finds columns = [] ∧ selector.optional = false
  · rw [if_pos hnone, if_pos hnone, hmissing hnone.1 hnone.2]
    rfl
  · rw [if_neg hnone, if_neg hnone]
    rfl

theorem regex_of_kindOf {body : List Char} {regex : Pattern.Regex}
    (h : kindOf text body = .ok (.wildcard regex)) : regex = Wildcard.regex body := by
  rw [kindOf] at h
  split at h
  · split at h <;> cases h
  · split at h
    · rw [Wildcard.wholeName?_expression] at h
      split at h
      · rename_i hread
        cases h
        exact (Option.some_inj.mp (Option.ite_none_right_eq_some.mp hread).2).symm
      · cases h
    · split at h
      · cases h
      · split at h <;> cases h

/-- The regular expression of a wildcard that has been read is its own. -/
theorem regex_of_read {regex : Pattern.Regex} (hread : read text = .ok selector)
    (hkind : selector.kind = .wildcard regex) :
    regex = Wildcard.regex selector.body.toList := by
  obtain ⟨kind, hkindOf, hselector⟩ := bind_eq_ok.mp hread
  cases hselector
  obtain rfl : kind = .wildcard regex := hkind
  rw [String.toList_ofList]
  exact regex_of_kindOf hkindOf

/-- A selector that moves finds its columns. -/
theorem selectSome_eq (hread : read text = .ok selector) (hdistinct : columns.Nodup)
    (hfits : ∀ slice ∈ selector.slice?, slice.StepsFit columns.length) :
    selector.selectSome columns = selector.findSome columns := by
  obtain ⟨body, negated, optional, kind⟩ := selector
  cases kind with
  | name =>
    refine selectSome_of_select ?_ rfl fun _ _ => rfl
    exact congrArg Except.ok (filter_eq_of_nodup hdistinct)
  | position place =>
    have hthere := columnAt?_eq columns place
    rcases hfound : columnAt? columns place with _ | column <;> rw [hfound] at hthere
    · cases optional with
      | false =>
        simp [selectSome, select, findSome, standsStill, finds, missing, hfound, ← hthere]
        rfl
      | true =>
        refine selectSome_of_select ?_ rfl fun _ h => by cases h
        simp [select, finds, hfound, ← hthere]
    · refine selectSome_of_select ?_ rfl fun h _ => by simp [finds, hfound] at h
      simp [select, finds, hfound, ← hthere]
  | slice slice =>
    by_cases hstep : slice.distance = 0
    · simp [selectSome, select, Slice.positions_eq, findSome, standsStill, hstep]
      rfl
    · refine selectSome_of_select ?_ (by simp [standsStill, hstep]) fun _ _ => rfl
      simp only [select, Slice.positions_eq_places hstep (hfits slice rfl)]
      rfl
  | wildcard regex =>
    have hregex : regex = Wildcard.regex body.toList := regex_of_read hread rfl
    subst hregex
    refine selectSome_of_select ?_ rfl fun _ _ => rfl
    simp only [select, finds, ← Wildcard.isMatch_regex]
    simp
  | pattern regex => exact selectSome_of_select rfl rfl fun _ _ => rfl

/-! ## Lists of selectors -/

/-- A selector that is no column takes or adds the columns that it finds. -/
theorem apply_of_read (hname : text ∉ columns) (hread : read text = .ok selector) :
    apply columns selected text =
      (do return Meaning.take selected ⟨!selector.negated, ← selector.selectSome columns⟩) := by
  rw [apply, if_neg (by simpa using hname), hread]
  show (selector.selectSome columns >>= fun found => _) = _
  refine bind_congr_ok fun found _ => ?_
  cases selector.negated <;> simp [Meaning.take]

/-- What is neither a column nor a selector is refused. -/
theorem apply_of_read_error {error : Error} (hname : text ∉ columns)
    (hread : read text = .error error) : apply columns selected text = .error error := by
  rw [apply, if_neg (by simpa using hname), hread]
  rfl

/-- A selector on its own that takes no columns away starts from none. -/
theorem expand_single (h : isNegated text = false) :
    expand columns [text] = apply columns [] text := by
  have hfull : startsFull columns [text] = false := by simp [startsFull, h]
  rw [expand, hfull, List.foldlM_cons]
  simp

/-- A selector has the effect of its meaning, or fails for the reason why it has none. -/
theorem apply_eq (hdistinct : columns.Nodup)
    (hfits : text ∉ columns →
      ∀ slice ∈ (read text).toOption.bind slice?, slice.StepsFit columns.length) :
    apply columns selected text = (do return Meaning.take selected (← meaning columns text)) := by
  by_cases hname : text ∈ columns
  · simp [apply, meaning, hname, Meaning.take]
  · rcases hread : read text with error | selector
    · simp [apply, meaning, hname, hread]
      rfl
    · have hslice : ∀ slice ∈ selector.slice?, slice.StepsFit columns.length := by
        rw [hread] at hfits
        exact hfits hname
      rw [apply_of_read hname hread, selectSome_eq hread hdistinct hslice, meaning, if_neg hname,
        hread]
      simp only [bind_assoc, pure_bind]
      rfl

/-- The effects of selectors, one after the other, are those of their meanings. -/
theorem foldlM_apply (hdistinct : columns.Nodup) (hfits : StepsFit columns selectors) :
    selectors.foldlM (apply columns) selected =
      (do return (← selectors.mapM (meaning columns)).foldl Meaning.take selected) := by
  induction selectors generalizing selected with
  | nil => rfl
  | cons text rest ih =>
    obtain ⟨hfirst, hrest⟩ := List.forall_mem_cons.mp hfits
    rw [List.foldlM_cons, List.mapM_cons, apply_eq hdistinct hfirst]
    simp only [bind_assoc, pure_bind, ih hrest, List.foldl_cons]

/-- Adding new columns puts them at the end. -/
theorem foldl_addOnce_of_nodup {found : List String} (h : (selected ++ found).Nodup) :
    found.foldl addOnce selected = selected ++ found := by
  induction found generalizing selected with
  | nil => simp
  | cons first rest ih =>
    have hnew : first ∉ selected := fun hmem =>
      (List.nodup_append.mp h).2.2 first hmem first (List.mem_cons_self ..) rfl
    rw [List.foldl_cons, show addOnce selected first = selected ++ [first] by simp [addOnce, hnew],
      ih (by simpa using h)]
    simp

theorem startsFull_iff : startsFull columns selectors ↔
    selectors ≠ [] ∧ ∀ text ∈ selectors, isNegated text ∧ text ∉ columns ∧ ':' ∉ text.toList := by
  simp [startsFull, forall_and, and_assoc]

/-- All columns are selected to begin with if selectors only take columns away. -/
theorem foldl_take_fallback (hdistinct : columns.Nodup) :
    (fallback columns selectors).foldl Meaning.take [] =
      if startsFull columns selectors then columns else [] := by
  simp only [fallback, ← startsFull_iff]
  split
  · exact foldl_addOnce_of_nodup (by simpa using hdistinct)
  · rfl

/-- The columns of selectors are those that their meanings lead to. -/
theorem expand_eq (hdistinct : columns.Nodup) (hfits : StepsFit columns selectors) :
    expand columns selectors = (do
      return (fallback columns selectors ++ (← selectors.mapM (meaning columns))).foldl
        Meaning.take []) := by
  rw [expand, ← foldl_take_fallback hdistinct, foldlM_apply hdistinct hfits]
  simp only [List.foldl_append]

/-- **The columns that selectors stand for.** A list of selectors stands for the columns that their
meanings stand for, behind all columns if each of them only takes columns away. It has no columns
if and only if one of the selectors has no meaning, and then for the reason why the first such one
has none. -/
theorem expand_iff (hdistinct : columns.Nodup) (hfits : StepsFit columns selectors) :
    (∀ result, expand columns selectors = .ok result ↔
      ∃ meanings, selectors.mapM (meaning columns) = .ok meanings ∧
        Expansion (fallback columns selectors ++ meanings) result) ∧
    (∀ error, expand columns selectors = .error error ↔
      ∃ before text after, selectors = before ++ text :: after ∧
        (∀ earlier ∈ before, ∃ meant, meaning columns earlier = .ok meant) ∧
        meaning columns text = .error error) := by
  rw [expand_eq hdistinct hfits]
  constructor
  · intro result
    rw [bind_eq_ok]
    refine exists_congr fun meanings => and_congr_right fun _ => ?_
    rw [pure_eq_ok]
    exact ⟨fun h => h ▸ expansion_foldl _, fun h => (expansion_foldl _).unique h⟩
  · intro error
    rw [← mapM_eq_error_iff, bind_pure_eq_error]

/-- four columns, of which one has a name that looks like a selector -/
def fourColumns : List String := ["a", "b", "c", "-a"]

/-- a name, three places, one of the columns there taken away, every other place from the last on,
and a name that need not be there -/
def fiveSelectors : List String := ["-a", "0:3", "-b", "::-2", "d?"]

/-- The column taken away enters again behind the others. -/
theorem expand_iff_fiveSelectors :
    fourColumns.Nodup ∧ StepsFit fourColumns fiveSelectors ∧
      ∃ meanings, fiveSelectors.mapM (meaning fourColumns) = .ok meanings ∧
        Expansion (fallback fourColumns fiveSelectors ++ meanings) ["-a", "a", "c", "b"] := by
  have hdistinct : fourColumns.Nodup := by decide
  have hfits : StepsFit fourColumns fiveSelectors := by decide +kernel
  have hexpand : expand fourColumns fiveSelectors = .ok ["-a", "a", "c", "b"] := by
    rw [expand_eq hdistinct hfits]
    decide +kernel
  exact ⟨hdistinct, hfits, ((expand_iff hdistinct hfits).1 _).mp hexpand⟩

end TableRecipe.Selector
