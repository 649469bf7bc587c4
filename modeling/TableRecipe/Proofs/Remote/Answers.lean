import Mathlib.Data.List.Forall2
import Mathlib.Data.List.Induction
import TableRecipe.Proofs.Outcome
import TableRecipe.Remote.Batch

/-!
# Answers put together

The answers to several chunks are added one by one to what came back before. What they come to can
be said of all of them at once: lists are put one behind the other, and so are the rows of answers
in columns, whose names are those that came last. An answer is refused if it is of neither form, or
not of the form of those before it.

* `Answers.InColumns` — an answer with names and rows;
* `Answers.Gathered` — what answers of one form come to;
* `Answers.Refused` — the answers that cannot be added, with the failure of each;
* `Answers.foldlM_absorb_eq_ok`, `Answers.absorb_eq_error` — adding answers one by one is just that;
* `Answers.elements`, `Answers.values_of_gathered` — the values that come back, one for every
  element.
-/

namespace TableRecipe.Answers

variable {payload : Value} {earlier payloads : List Value} {answers result : Answers} {e : Error}
  {fields : Fields} {name : String} {items rows : List Value}

/-! ## Answers in columns -/

/-- an answer with names and rows: a mapping that has a list of names and a list of rows -/
def InColumns (payload : Value) (table : List String × List (List Value)) : Prop :=
  ∃ fields names, payload = .object fields ∧ Fields.find? "columns" fields = some (.list names) ∧
    Fields.find? "data" fields = some (.list (table.2.map .list)) ∧ table.1 = names.map columnName

theorem listOf_eq_ok :
    listOf fields name = .ok items ↔ Fields.find? name fields = some (.list items) := by
  rw [listOf]
  split
  · rename_i found h
    simp [h]
  · rename_i h
    exact ⟨nofun, fun hfound => absurd hfound (h items)⟩

theorem listOf_eq_error : listOf fields name = .error e ↔
    (∀ items, Fields.find? name fields ≠ some (.list items)) ∧
      e = .unexpectedResponse s!"object response without a '{name}' list" := by
  rw [listOf]
  split
  · rename_i found h
    simp [h]
  · rename_i h
    simp only [Except.error.injEq, eq_comm (a := e), ne_eq]
    exact ⟨fun he => ⟨h, he⟩, And.right⟩

theorem mapM_rowOf_eq_ok {cells : List (List Value)} :
    rows.mapM rowOf = .ok cells ↔ rows = cells.map .list := by
  induction rows generalizing cells with
  | nil =>
    rw [List.mapM_nil, pure_eq_ok]
    cases cells <;> simp
  | cons row rest ih =>
    rw [List.mapM_cons, bind_eq_ok]
    constructor
    · rintro ⟨first, hfirst, h⟩
      obtain ⟨others, hothers, h⟩ := bind_eq_ok.mp h
      obtain rfl := pure_eq_ok.mp h
      cases row with
      | list cells =>
        obtain rfl := Except.ok.inj hfirst
        rw [ih.mp hothers, List.map_cons]
      | _ => cases hfirst
    · intro h
      cases cells with
      | nil => cases h
      | cons first others =>
        obtain ⟨rfl, hrest⟩ := List.cons.inj h
        exact ⟨first, rfl, bind_eq_ok.mpr ⟨others, ih.mpr hrest, rfl⟩⟩

theorem rowOf_eq_error {row : Value} : rowOf row = .error e ↔
    (∀ cells, row ≠ .list cells) ∧ e = .unexpectedResponse "'data' rows must be lists" := by
  cases row with
  | list cells => exact ⟨nofun, fun h => absurd rfl (h.1 cells)⟩
  | _ => simp [rowOf, eq_comm]

theorem mapM_rowOf_eq_error : rows.mapM rowOf = .error e ↔
    (∃ row ∈ rows, ∀ cells, row ≠ .list cells) ∧
      e = .unexpectedResponse "'data' rows must be lists" := by
  constructor
  · intro h
    obtain ⟨row, hmem, h⟩ := mapM_error h
    obtain ⟨hcells, he⟩ := rowOf_eq_error.mp h
    exact ⟨⟨row, hmem, hcells⟩, he⟩
  · rintro ⟨⟨row, hmem, hcells⟩, rfl⟩
    rcases h : rows.mapM rowOf with e' | cells
    · -- every row that fails fails alike
      obtain ⟨other, -, hother⟩ := mapM_error h
      rw [(rowOf_eq_error.mp hother).2]
    · obtain rfl := mapM_rowOf_eq_ok.mp h
      obtain ⟨cells, -, rfl⟩ := List.mem_map.mp hmem
      exact absurd rfl (hcells cells)

theorem parts_eq_ok {table : List String × List (List Value)} :
    parts fields = .ok table ↔ InColumns (.object fields) table := by
  rw [parts, bind_eq_ok]
  constructor
  · rintro ⟨names, hnames, h⟩
    obtain ⟨rows, hrows, h⟩ := bind_eq_ok.mp h
    obtain ⟨cells, hcells, h⟩ := bind_eq_ok.mp h
    obtain rfl := pure_eq_ok.mp h
    rw [mapM_rowOf_eq_ok.mp hcells] at hrows
    exact ⟨fields, names, rfl, listOf_eq_ok.mp hnames, listOf_eq_ok.mp hrows, rfl⟩
  · rintro ⟨_, names, hfields, hnames, hrows, hcolumns⟩
    obtain rfl := Value.object.inj hfields
    refine ⟨names, listOf_eq_ok.mpr hnames, bind_eq_ok.mpr ⟨_, listOf_eq_ok.mpr hrows, ?_⟩⟩
    refine bind_eq_ok.mpr ⟨table.2, mapM_rowOf_eq_ok.mpr rfl, ?_⟩
    rw [← hcolumns]
    rfl

theorem not_inColumns_list (table : List String × List (List Value)) :
    ¬InColumns (.list items) table := by
  rintro ⟨_, _, h, -⟩
  cases h

/-! ## What answers come to -/

/-- what answers of one form come to -/
inductive Gathered : List Value → Answers → Prop
  /-- nothing came back -/
  | empty : Gathered [] .empty
  /-- lists came back: their items, one list behind the other -/
  | flat {lists : List (List Value)} (hsome : lists ≠ []) :
    Gathered (lists.map .list) (.flat lists.flatten)
  /-- answers in columns came back: their rows, under the names that came last -/
  | columnar {payloads : List Value} {tables : List (List String × List (List Value))}
      {last : List String × List (List Value)} (hall : List.Forall₂ InColumns payloads tables)
      (hlast : tables.getLast? = some last) :
    Gathered payloads (.columnar last.1 (tables.flatMap (·.2)))

/-- the answers that cannot be added to those that came before, and how they fail -/
inductive Refused : List Value → Value → Error → Prop
  /-- an answer that is neither a list nor a mapping -/
  | unknown {earlier : List Value} {payload : Value} (hlist : ∀ items, payload ≠ .list items)
      (hobject : ∀ fields, payload ≠ .object fields) :
    Refused earlier payload (.unexpectedResponse
      s!"expected a list or a columns/data object, got {kindOf payload}")
  /-- a mapping that has no list of names -/
  | withoutNames {earlier : List Value} {fields : Fields}
      (hnames : ∀ names, Fields.find? "columns" fields ≠ some (.list names)) :
    Refused earlier (.object fields)
      (.unexpectedResponse "object response without a 'columns' list")
  /-- a mapping that has no list of rows -/
  | withoutRows {earlier : List Value} {fields : Fields} {names : List Value}
      (hnames : Fields.find? "columns" fields = some (.list names))
      (hrows : ∀ rows, Fields.find? "data" fields ≠ some (.list rows)) :
    Refused earlier (.object fields) (.unexpectedResponse "object response without a 'data' list")
  /-- a row that is no list of cells -/
  | withoutCells {earlier : List Value} {fields : Fields} {names rows : List Value} {row : Value}
      (hnames : Fields.find? "columns" fields = some (.list names))
      (hrows : Fields.find? "data" fields = some (.list rows)) (hmem : row ∈ rows)
      (hcells : ∀ cells, row ≠ .list cells) :
    Refused earlier (.object fields) (.unexpectedResponse "'data' rows must be lists")
  /-- a list behind answers in columns -/
  | listBehindColumns {earlier items : List Value} (hsome : earlier ≠ [])
      (hbefore : ∀ payload ∈ earlier, ∃ table, InColumns payload table) :
    Refused earlier (.list items) mixed
  /-- an answer in columns behind lists -/
  | columnsBehindList {earlier : List Value} {payload : Value}
      {table : List String × List (List Value)} (hsome : earlier ≠ [])
      (hbefore : ∀ payload ∈ earlier, ∃ items, payload = .list items)
      (hcolumns : InColumns payload table) :
    Refused earlier payload mixed

/-! ## Adding one answer -/

/-- A mapping fails as an answer by the first of its parts that is missing: the names, the rows, or
the cells of a row. -/
theorem parts_eq_error : parts fields = .error e ↔
    listOf fields "columns" = .error e ∨
      ∃ names, listOf fields "columns" = .ok names ∧
        (listOf fields "data" = .error e ∨
          ∃ rows, listOf fields "data" = .ok rows ∧ rows.mapM rowOf = .error e) := by
  rw [parts, bind_eq_error]
  refine or_congr Iff.rfl (exists_congr fun names => and_congr Iff.rfl ?_)
  rw [bind_eq_error]
  refine or_congr Iff.rfl (exists_congr fun rows => and_congr Iff.rfl ?_)
  exact bind_pure_eq_error

theorem absorb_inColumns {table : List String × List (List Value)} (h : InColumns payload table) :
    answers.absorb payload = match answers with
      | .empty => .ok (.columnar table.1 table.2)
      | .columnar _ rows => .ok (.columnar table.1 (rows ++ table.2))
      | .flat _ => .error mixed := by
  obtain ⟨fields, -, rfl, -⟩ := id h
  rw [absorb, parts_eq_ok.mpr h]
  cases answers <;> rfl

/-- What can be added is a list, or an answer in columns. -/
theorem form_of_absorb (h : answers.absorb payload = .ok result) :
    (∃ items, payload = .list items) ∨ ∃ table, InColumns payload table := by
  cases payload with
  | list items => exact .inl ⟨items, rfl⟩
  | object fields =>
    obtain ⟨table, htable, -⟩ := bind_eq_ok.mp h
    exact .inr ⟨table, parts_eq_ok.mp htable⟩
  | _ => cases h

namespace Gathered

theorem eq_empty (h : Gathered [] answers) : answers = .empty := by
  generalize hnone : ([] : List Value) = earlier at h
  cases h with
  | empty => rfl
  | flat hsome => exact absurd (List.map_eq_nil_iff.mp hnone.symm) hsome
  | columnar hall hlast =>
    subst hnone
    cases hall
    cases hlast

theorem eq_nil (h : Gathered earlier .empty) : earlier = [] := by
  cases h
  rfl

theorem lists {values : List Value} (h : Gathered earlier (.flat values)) :
    ∃ lists : List (List Value),
      lists ≠ [] ∧ earlier = lists.map .list ∧ values = lists.flatten := by
  cases h with
  | flat hsome => exact ⟨_, hsome, rfl, rfl⟩

theorem inColumns {columns : List String} {rows : List (List Value)}
    (h : Gathered earlier (.columnar columns rows)) :
    ∃ tables last, List.Forall₂ InColumns earlier tables ∧ tables.getLast? = some last ∧
      columns = last.1 ∧ rows = tables.flatMap (·.2) := by
  cases h with
  | columnar hall hlast => exact ⟨_, _, hall, hlast, rfl, rfl⟩

end Gathered

theorem exists_of_forall₂ {α β : Type} {R : α → β → Prop} {xs : List α} {ys : List β}
    (h : List.Forall₂ R xs ys) : ∀ x ∈ xs, ∃ y, R x y := by
  induction h with
  | nil => exact nofun
  | cons hxy _ ih => exact List.forall_mem_cons.mpr ⟨⟨_, hxy⟩, ih⟩

theorem forall₂_concat_iff {α β : Type} {R : α → β → Prop} {x : α} {xs : List α} {ys : List β} :
    List.Forall₂ R (xs ++ [x]) ys ↔ ∃ y zs, R x y ∧ List.Forall₂ R xs zs ∧ ys = zs ++ [y] := by
  rw [← List.forall₂_reverse_iff, List.reverse_append, List.reverse_singleton,
    List.singleton_append, List.forall₂_cons_left_iff]
  constructor
  · rintro ⟨y, zs, hy, hzs, h⟩
    refine ⟨y, zs.reverse, hy, ?_, ?_⟩
    · rwa [← List.forall₂_reverse_iff, List.reverse_reverse]
    · rw [← List.reverse_reverse ys, h, List.reverse_cons]
  · rintro ⟨y, zs, hy, hzs, rfl⟩
    exact ⟨y, zs.reverse, hy, List.forall₂_reverse_iff.mpr hzs, by simp⟩

/-- What answers come to with one more is what they come to, with that one added. -/
theorem gathered_concat_iff : Gathered (earlier ++ [payload]) result ↔
    ∃ answers, Gathered earlier answers ∧ answers.absorb payload = .ok result := by
  constructor
  · intro h
    cases result with
    | empty => simpa using h.eq_nil
    | flat values =>
      obtain ⟨lists, -, hlists, rfl⟩ := h.lists
      rcases List.eq_nil_or_concat' lists with rfl | ⟨before, last, rfl⟩
      · simp at hlists
      rw [List.map_append, List.map_singleton] at hlists
      obtain ⟨rfl, hlast⟩ := List.append_inj' hlists rfl
      obtain rfl : payload = .list last := by simpa using hlast
      by_cases hsome : before = []
      · exact ⟨.empty, by simpa [hsome] using Gathered.empty, by simp [absorb, hsome]⟩
      · exact ⟨.flat before.flatten, .flat hsome, by simp [absorb]⟩
    | columnar columns rows =>
      obtain ⟨tables, last, hall, hlast, rfl, rfl⟩ := h.inColumns
      obtain ⟨table, before, htable, hbefore, rfl⟩ := forall₂_concat_iff.mp hall
      obtain rfl : table = last := by simpa using hlast
      rcases hlast : before.getLast? with _ | former
      · obtain rfl := List.getLast?_eq_none_iff.mp hlast
        cases hbefore
        exact ⟨.empty, .empty, by simp [absorb_inColumns htable]⟩
      · exact ⟨_, .columnar hbefore hlast, by simp [absorb_inColumns htable]⟩
  · rintro ⟨answers, hanswers, h⟩
    rcases form_of_absorb h with ⟨items, rfl⟩ | ⟨table, htable⟩
    · cases answers with
      | empty =>
        obtain rfl := hanswers.eq_nil
        obtain rfl := Except.ok.inj h
        simpa using @Gathered.flat [items] (by simp)
      | flat values =>
        obtain ⟨lists, -, rfl, rfl⟩ := hanswers.lists
        obtain rfl := Except.ok.inj h
        simpa using @Gathered.flat (lists ++ [items]) (by simp)
      | columnar columns rows => cases h
    · rw [absorb_inColumns htable] at h
      cases answers with
      | empty =>
        obtain rfl := hanswers.eq_nil
        obtain rfl := Except.ok.inj h
        simpa using @Gathered.columnar [payload] [table] table (.cons htable .nil) rfl
      | flat values => cases h
      | columnar columns rows =>
        obtain ⟨tables, last, hall, -, rfl, rfl⟩ := hanswers.inColumns
        obtain rfl := Except.ok.inj h
        simpa using @Gathered.columnar (earlier ++ [payload]) (tables ++ [table]) table
          (forall₂_concat_iff.mpr ⟨table, tables, htable, hall, rfl⟩) (by simp)

/-- Adding answers one by one comes to what they come to all at once. -/
theorem foldlM_absorb_eq_ok :
    payloads.foldlM absorb .empty = .ok result ↔ Gathered payloads result := by
  induction payloads using List.reverseRecOn generalizing result with
  | nil =>
    rw [List.foldlM_nil, pure_eq_ok]
    constructor
    · rintro rfl
      exact .empty
    · exact fun h => h.eq_empty.symm
  | append_singleton earlier payload ih =>
    rw [List.foldlM_append, bind_eq_ok, gathered_concat_iff]
    refine exists_congr fun answers => and_congr ih ?_
    rw [List.foldlM_cons]
    simp only [List.foldlM_nil, bind_pure]

theorem absorb_object_eq_error : answers.absorb (.object fields) = .error e ↔
    parts fields = .error e ∨
      ∃ table, InColumns (.object fields) table ∧
        (∃ values, answers = .flat values) ∧ e = mixed := by
  rw [absorb, bind_eq_error]
  refine or_congr Iff.rfl (exists_congr fun table => and_congr parts_eq_ok ?_)
  cases answers with
  | flat values =>
    refine ⟨fun h => ⟨⟨values, rfl⟩, (Except.error.inj h).symm⟩, ?_⟩
    rintro ⟨-, rfl⟩
    rfl
  | _ =>
    refine ⟨nofun, ?_⟩
    rintro ⟨⟨_, h⟩, -⟩
    cases h

/-- An answer cannot be added just if it is refused, and it fails as told. -/
theorem absorb_eq_error (h : Gathered earlier answers) :
    answers.absorb payload = .error e ↔ Refused earlier payload e := by
  constructor
  · intro herror
    cases payload with
    | list items =>
      cases answers with
      | columnar columns rows =>
        obtain rfl := Except.error.inj herror
        obtain ⟨tables, last, hall, hlast, -⟩ := h.inColumns
        refine .listBehindColumns ?_ (exists_of_forall₂ hall)
        rintro rfl
        cases hall
        cases hlast
      | _ => cases herror
    | object fields =>
      rcases absorb_object_eq_error.mp herror with hparts | ⟨table, htable, ⟨values, rfl⟩, rfl⟩
      · rcases parts_eq_error.mp hparts with hnames | ⟨names, hnames, hrows | ⟨rows, hrows, hcells⟩⟩
        · obtain ⟨hmissing, rfl⟩ := listOf_eq_error.mp hnames
          exact .withoutNames hmissing
        · obtain ⟨hmissing, rfl⟩ := listOf_eq_error.mp hrows
          exact .withoutRows (listOf_eq_ok.mp hnames) hmissing
        · obtain ⟨⟨row, hmem, hmissing⟩, rfl⟩ := mapM_rowOf_eq_error.mp hcells
          exact .withoutCells (listOf_eq_ok.mp hnames) (listOf_eq_ok.mp hrows) hmem hmissing
      · obtain ⟨lists, hsome, rfl, rfl⟩ := h.lists
        refine .columnsBehindList (by simpa using hsome) ?_ htable
        intro payload hmem
        obtain ⟨items, -, rfl⟩ := List.mem_map.mp hmem
        exact ⟨items, rfl⟩
    | _ =>
      obtain rfl := Except.error.inj herror
      exact .unknown nofun nofun
  · intro hrefused
    cases hrefused with
    | unknown hlist hobject =>
      cases payload with
      | list items => exact absurd rfl (hlist items)
      | object fields => exact absurd rfl (hobject fields)
      | _ => rfl
    | withoutNames hnames =>
      exact absorb_object_eq_error.mpr
        (.inl (parts_eq_error.mpr (.inl (listOf_eq_error.mpr ⟨hnames, rfl⟩))))
    | withoutRows hnames hrows =>
      exact absorb_object_eq_error.mpr (.inl (parts_eq_error.mpr
        (.inr ⟨_, listOf_eq_ok.mpr hnames, .inl (listOf_eq_error.mpr ⟨hrows, rfl⟩)⟩)))
    | withoutCells hnames hrows hmem hcells =>
      exact absorb_object_eq_error.mpr (.inl (parts_eq_error.mpr
        (.inr ⟨_, listOf_eq_ok.mpr hnames, .inr ⟨_, listOf_eq_ok.mpr hrows,
          mapM_rowOf_eq_error.mpr ⟨⟨_, hmem, hcells⟩, rfl⟩⟩⟩)))
    | listBehindColumns hsome hbefore =>
      cases answers with
      | empty => exact absurd h.eq_nil hsome
      | flat values =>
        obtain ⟨lists, hlists, rfl, -⟩ := h.lists
        obtain ⟨first, rest, rfl⟩ := List.exists_cons_of_ne_nil hlists
        obtain ⟨table, htable⟩ := hbefore (.list first) (by simp)
        exact absurd htable (not_inColumns_list table)
      | columnar columns rows => rfl
    | columnsBehindList hsome hbefore hcolumns =>
      rw [absorb_inColumns hcolumns]
      cases answers with
      | empty => exact absurd h.eq_nil hsome
      | flat values => rfl
      | columnar columns rows =>
        obtain ⟨tables, last, hall, -⟩ := h.inColumns
        obtain ⟨first, rest, rfl⟩ := List.exists_cons_of_ne_nil hsome
        obtain ⟨items, rfl⟩ := hbefore first (List.mem_cons_self ..)
        obtain ⟨table, htable⟩ := exists_of_forall₂ hall _ (List.mem_cons_self ..)
        exact absurd htable (not_inColumns_list table)

/-! ## Elements -/

/-- the elements of an answer: the items of a list, or the rows of an answer in columns -/
def elements : Value → List Value
  | .list items => items
  | .object fields =>
    match Fields.find? "data" fields with
    | some (.list rows) => rows
    | _ => []
  | _ => []

/-- the value of an element: a row is read under the names that came last -/
def valueOf : Answers → Value → Value
  | .columnar columns _, .list cells => .object (Fields.ofPairs (columns.zip cells))
  | _, element => element

theorem elements_inColumns {table : List String × List (List Value)} (h : InColumns payload table) :
    elements payload = table.2.map .list := by
  obtain ⟨fields, names, rfl, -, hrows, -⟩ := h
  rw [elements, hrows]

theorem flatMap_elements_lists (lists : List (List Value)) :
    (lists.map .list).flatMap elements = lists.flatten := by
  rw [List.flatMap_map]
  exact List.flatMap_id

theorem flatMap_elements_inColumns {tables : List (List String × List (List Value))}
    (h : List.Forall₂ InColumns payloads tables) :
    payloads.flatMap elements = (tables.flatMap (·.2)).map .list := by
  induction h with
  | nil => rfl
  | cons hfirst _ ih =>
    rw [List.flatMap_cons, List.flatMap_cons, List.map_append, ih, elements_inColumns hfirst]

/-- There is one value for every element, in the order of the answers. -/
theorem values_of_gathered (h : Gathered payloads answers) :
    answers.values = (payloads.flatMap elements).map answers.valueOf := by
  cases h with
  | empty => rfl
  | flat hsome =>
    rw [flatMap_elements_lists]
    exact (List.map_id _).symm
  | columnar hall hlast =>
    rw [flatMap_elements_inColumns hall, List.map_map]
    rfl

end TableRecipe.Answers
