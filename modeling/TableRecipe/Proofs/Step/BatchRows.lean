import TableRecipe.Proofs.Remote.Chunks
import TableRecipe.Proofs.Table.Rows
import TableRecipe.Step.Apply

/-!
# Rows filled in batches

A column is sent in chunks, and the values that come back are counted once, all together. A row is
therefore filled from the element that stands at its place once the answers to all chunks are put
one behind the other. That element is the one for this row in the answer to its own chunk as long
as every chunk was answered with as many elements as it has items; if the lengths of the answers
differ from those of the chunks and only come to the same sum, some row is filled from elsewhere.

* `Remote.origin` — where an item of lists put one behind the other comes from;
* `Remote.origin_chunks`, `Remote.origin_eq_iff` — where it comes from in chunks, and when two ways
  of cutting agree;
* `Table.filled`, `Table.cells?_putAnswers` — what an answer fills a column with;
* `Step.applyBatch_origins` — which element of which answer every row is filled from.
-/

namespace TableRecipe

namespace Remote

variable {α : Type}

/-! ## Where items come from -/

/-- where an item of lists put one behind the other comes from, by their lengths: which list, and
the place in that list -/
def origin : (lengths : List Nat) → (place : Nat) → Nat × Nat
  | [], place => (0, place)
  | length :: rest, place =>
    if place < length then (0, place)
    else ((origin rest (place - length)).1 + 1, (origin rest (place - length)).2)

theorem origin_of_lt {length place : Nat} {rest : List Nat} (h : place < length) :
    origin (length :: rest) place = (0, place) := by
  rw [origin, if_pos h]

theorem origin_of_le {length place : Nat} {rest : List Nat} (h : length ≤ place) :
    origin (length :: rest) place =
      ((origin rest (place - length)).1 + 1, (origin rest (place - length)).2) := by
  rw [origin, if_neg (Nat.not_lt.mpr h)]

theorem origin_add {length : Nat} {rest : List Nat} (place : Nat) :
    origin (length :: rest) (length + place) =
      ((origin rest place).1 + 1, (origin rest place).2) := by
  rw [origin_of_le (Nat.le_add_right ..), Nat.add_sub_cancel_left]

/-- The first item beyond a part comes from a later part. -/
theorem origin_ne_of_lt {length size : Nat} {rest others : List Nat} (h : length < size) :
    origin (length :: rest) length ≠ origin (size :: others) length := by
  rw [origin_of_le (Nat.le_refl length), origin_of_lt h]
  exact nofun

/-- The item at a place of lists put one behind the other is the one that it comes from. -/
theorem getElem?_flatten_origin (lists : List (List α)) (place : Nat) :
    lists.flatten[place]? =
      (lists[(origin (lists.map (·.length)) place).1]?).bind
        (·[(origin (lists.map (·.length)) place).2]?) := by
  induction lists generalizing place with
  | nil => rfl
  | cons first rest ih =>
    rw [List.flatten_cons, List.map_cons]
    rcases Nat.lt_or_ge place first.length with hlt | hge
    · rw [origin_of_lt hlt, List.getElem?_append_left hlt]
      rfl
    · obtain ⟨beyond, rfl⟩ := Nat.exists_eq_add_of_le hge
      rw [origin_add, List.getElem?_append_right hge, Nat.add_sub_cancel_left, ih]
      rfl

/-- Items that were cut into chunks of one size come from the chunk and the place that one gets by
dividing. -/
theorem origin_chunksOf {size place : Nat} {items : List α} (h : place < items.length) :
    origin ((chunksOf size items).map (·.length)) place =
      (place / (size + 1), place % (size + 1)) := by
  fun_induction chunksOf size items generalizing place with
  | case1 => cases h
  | case2 item rest ih =>
    rw [List.map_cons, List.length_cons, List.length_take]
    rw [List.length_cons] at h
    rcases Nat.lt_or_ge place (min size rest.length + 1) with hlt | hge
    · have hsmall : place < size + 1 := by omega
      rw [origin_of_lt hlt, Nat.div_eq_of_lt hsmall, Nat.mod_eq_of_lt hsmall]
    · -- the first chunk is full, as the place is beyond it
      rw [Nat.min_eq_left (by omega)] at hge ⊢
      obtain ⟨beyond, rfl⟩ := Nat.exists_eq_add_of_le hge
      have hbeyond : beyond < (rest.drop size).length := by
        rw [List.length_drop]
        omega
      rw [origin_add, ih hbeyond, Nat.add_div_left _ (Nat.succ_pos size), Nat.add_mod_left]

theorem origin_chunks {size place : Nat} {items : List α} (h : place < items.length) :
    origin ((chunks size items).map (·.length)) place =
      (place / max size 1, place % max size 1) := by
  rw [show max size 1 = size - 1 + 1 by omega]
  exact origin_chunksOf h

/-- Two ways of cutting a list into so many parts are the same if every item comes from the same
part and the same place in it. -/
theorem origin_eq_iff {lengths sizes : List Nat} (hcount : lengths.length = sizes.length)
    (hsum : lengths.sum = sizes.sum) :
    (∀ place < sizes.sum, origin lengths place = origin sizes place) ↔ lengths = sizes := by
  constructor
  · intro h
    induction lengths generalizing sizes with
    | nil => exact (List.eq_nil_of_length_eq_zero hcount.symm).symm
    | cons length rest ih =>
      cases sizes with
      | nil => cases hcount
      | cons size others =>
        rw [List.sum_cons, List.sum_cons] at hsum
        rw [List.sum_cons] at h
        obtain rfl : length = size := by
          rcases Nat.lt_trichotomy length size with hlt | heq | hgt
          · exact absurd (h length (by omega)) (origin_ne_of_lt hlt)
          · exact heq
          · exact absurd (h size (by omega)).symm (origin_ne_of_lt hgt)
        rw [ih (Nat.succ.inj hcount) (Nat.add_left_cancel hsum) fun place hplace => ?_]
        have horigin := h (length + place) (Nat.add_lt_add_left hplace _)
        rw [origin_add, origin_add] at horigin
        obtain ⟨hpart, hwithin⟩ := Prod.mk.inj horigin
        exact Prod.ext (Nat.succ.inj hpart) hwithin
  · rintro rfl place -
    rfl

/-! ## Elements of answers -/

/-- how many elements every answer has -/
def elementCounts (payloads : List Value) : List Nat :=
  payloads.map fun payload => (Answers.elements payload).length

/-- the element at a place of answers, by the number of the answer and the place in it -/
def elementAt (payloads : List Value) (place : Nat × Nat) : Option Value :=
  (payloads[place.1]?).bind fun payload => (Answers.elements payload)[place.2]?

theorem getElem?_elements (payloads : List Value) (place : Nat) :
    (payloads.flatMap Answers.elements)[place]? =
      elementAt payloads (origin (elementCounts payloads) place) := by
  rw [List.flatMap_def, getElem?_flatten_origin, List.map_map, List.getElem?_map, Option.bind_map]
  rfl

end Remote

namespace Table

variable {table result : Table} {output : List String} {answers : List Value} {step : String}

/-! ## Columns filled with answers -/

/-- the field of an answer under a name, null if there is none -/
def fieldUnder (name : String) : Value → Value
  | .object fields => (Fields.find? name fields).getD .null
  | _ => .null

/-- what an answer fills a column with: a single column takes the answer itself, one of several the
field of its name -/
def filled (output : List String) (name : String) (answer : Value) : Value :=
  match output with
  | [_] => answer
  | _ => fieldUnder name answer

theorem filled_of_several {name : String} (h : ∀ column, output ≠ [column]) :
    filled output name = fieldUnder name := by
  rcases output with _ | ⟨first, _ | ⟨second, rest⟩⟩
  · rfl
  · exact absurd rfl (h first)
  · rfl

theorem fieldOf_ok {name : String} {answer cell : Value}
    (h : fieldOf output step name answer = .ok cell) : cell = fieldUnder name answer := by
  cases answer with
  | object fields => exact (Except.ok.inj h).symm
  | _ => cases h

theorem mapM_fieldOf {name : String} {cells : List Value}
    (h : answers.mapM (fieldOf output step name) = .ok cells) :
    cells = answers.map (fieldUnder name) := by
  induction answers generalizing cells with
  | nil => exact (pure_eq_ok.mp h).symm
  | cons answer rest ih =>
    rw [List.mapM_cons] at h
    obtain ⟨cell, hcell, h⟩ := bind_eq_ok.mp h
    obtain ⟨others, hothers, h⟩ := bind_eq_ok.mp h
    obtain rfl := pure_eq_ok.mp h
    rw [fieldOf_ok hcell, ih hothers, List.map_cons]

/-- Filling columns one after the other gives every one of them its fields. -/
theorem cells?_putFields {names : List String} {name : String}
    (h : names.foldlM (fun table column => do
      let cells ← answers.mapM (fieldOf output step column)
      table.edit (Edit.setColumn column cells)) table = .ok result) :
    result.cells? name =
      if name ∈ names then some (answers.map (fieldUnder name)) else table.cells? name := by
  induction names generalizing table with
  | nil =>
    obtain rfl := pure_eq_ok.mp h
    simp
  | cons column rest ih =>
    rw [List.foldlM_cons] at h
    obtain ⟨middle, hmiddle, h⟩ := bind_eq_ok.mp h
    obtain ⟨cells, hcells, hedit⟩ := bind_eq_ok.mp hmiddle
    obtain rfl := mapM_fieldOf hcells
    rw [ih h, cells?_setColumn hedit]
    by_cases hrest : name ∈ rest
    · rw [if_pos hrest, if_pos (List.mem_cons_of_mem _ hrest)]
    · by_cases hcolumn : name = column
      · subst hcolumn
        rw [if_neg hrest, if_pos rfl, if_pos (List.mem_cons_self ..)]
      · rw [if_neg hrest, if_neg hcolumn, if_neg (List.not_mem_cons_of_ne_of_not_mem hcolumn hrest)]

/-- Answers are put into a table only if there is one for every row, and then every column to fill
has one cell for every answer, in their order. -/
theorem cells?_putAnswers (h : table.putAnswers output answers step = .ok result) :
    answers.length = table.length ∧
      ∀ name ∈ output, result.cells? name = some (answers.map (filled output name)) := by
  simp only [putAnswers] at h
  by_cases hlength : answers.length = table.length
  · simp only [hlength, ne_eq, not_true_eq_false, if_false] at h
    refine ⟨hlength, fun name hname => ?_⟩
    split at h
    · rename_i column
      obtain rfl := List.mem_singleton.mp hname
      rw [cells?_setColumn h, if_pos rfl]
      exact congrArg some (List.map_id _).symm
    · rename_i hseveral
      rw [cells?_putFields h, if_pos hname, filled_of_several hseveral]
  · simp only [ne_eq, hlength, not_false_eq_true, if_true] at h
    exact (throw_ne_ok h).elim

end Table

namespace Step

open Remote

variable {context : Context} {world after : World} {table result : Table} {request : Request}
  {input output : List String} {size : Option Nat}

/-! ## Rows -/

/-- **Where rows are filled from.** If a column was sent in chunks and the step succeeds, then every
row is filled from the element that its place falls upon when the answers are put one behind the
other. For every row this is the element at the place that the row has in its own chunk, in the
answer to that chunk, if and only if every chunk was answered with as many elements as it has
items. -/
theorem applyBatch_origins (hrectangular : table.Rectangular)
    (h : (applyBatch table request input output size).runIn context world = (.ok result, after)) :
    ∃ column items rounds payloads answers,
      let chunkSize := size.getD context.settings.batchSize
      Selector.expand table.names input = .ok [column] ∧ table.cells column = .ok items ∧
      chunks chunkSize items = rounds.map (·.1) ∧
      Answered context request world rounds payloads ∧
      Answers.Gathered payloads answers ∧
      (∀ row < table.length, ∃ element,
        elementAt payloads (origin (elementCounts payloads) row) = some element ∧
        ∀ name ∈ output,
          result.cell? name row = some (Table.filled output name (answers.valueOf element))) ∧
      ((∀ row < table.length,
          origin (elementCounts payloads) row = (row / max chunkSize 1, row % max chunkSize 1)) ↔
        elementCounts payloads = rounds.map (·.1.length)) := by
  obtain ⟨columns, hcolumns, h⟩ := Engine.ofExcept_bind_ok h
  rcases columns with _ | ⟨column, _ | ⟨other, rest⟩⟩
  · exact (Engine.throw_ok h).elim
  · obtain ⟨items, hitems, h⟩ := Engine.ofExcept_bind_ok h
    rw [Engine.runIn_read_bind] at h
    obtain ⟨answers, middle, hsent, h⟩ := Engine.bind_ok h
    obtain ⟨hput, -⟩ := Engine.ofExcept_ok h
    obtain ⟨rounds, payloads, hchunks, hanswered, hgathered, -⟩ := sendAll_eq_ok.mp hsent
    obtain ⟨hlength, hcells⟩ := Table.cells?_putAnswers hput
    rw [Answers.values_of_gathered hgathered] at hlength hcells
    rw [List.length_map] at hlength
    refine ⟨column, items, rounds, payloads, answers, hcolumns, hitems, hchunks, hanswered,
      hgathered, fun row hrow => ?_, ?_⟩
    · obtain ⟨element, helement⟩ : ∃ element,
          (payloads.flatMap Answers.elements)[row]? = some element :=
        ⟨_, List.getElem?_eq_getElem (hlength ▸ hrow)⟩
      refine ⟨element, (getElem?_elements payloads row).symm.trans helement, fun name hname => ?_⟩
      rw [Table.cell?, hcells name hname, Option.bind_some, List.getElem?_map, List.getElem?_map,
        helement]
      rfl
    · -- the chunks hold one item for every row
      have hitemsLength : items.length = table.length :=
        Table.length_of_cells? hrectangular (Table.cells_eq_ok.mp hitems)
      have hsizes : ((chunks (size.getD context.settings.batchSize) items).map (·.length)) =
          rounds.map (·.1.length) := by
        rw [hchunks, List.map_map]
        rfl
      have hsizesSum : (rounds.map (·.1.length)).sum = table.length := by
        rw [← hsizes, ← List.length_flatten, (slices_chunks _ items).joined, hitemsLength]
      rw [← hsizesSum, ← origin_eq_iff (by simp [elementCounts, hanswered.length_eq])
        (by rw [hsizesSum, ← hlength, List.length_flatMap, elementCounts])]
      refine forall₂_congr fun row hrow => ?_
      rw [← hsizes, origin_chunks (by omega)]
  · exact (Engine.throw_ok h).elim

/-- three rows of a letter each -/
def threeLetters : Table where
  columns := [⟨"a", [.string "x", .string "y", .string "z"]⟩]
  index := [0, 1, 2]

/-- the letters, each with a number in another column -/
def numbered : Table where
  columns := threeLetters.columns ++ [⟨"b", [.ofInt 1, .ofInt 2, .ofInt 3]⟩]
  index := [0, 1, 2]

theorem applyBatch_origins_numbered :
    let context := scripted {} [.ok ⟨200, "[1, 2]"⟩, .ok ⟨200, "[3]"⟩]
    ∃ payloads answers,
      Answers.Gathered payloads answers ∧
      (∃ after, (applyBatch threeLetters { url := "s" } ["a"] ["b"] (some 2)).runIn context {} =
        (.ok numbered, after)) ∧
      (∀ row < 3, ∃ element,
        elementAt payloads (origin (elementCounts payloads) row) = some element ∧
        numbered.cell? "b" row = some (answers.valueOf element)) ∧
      ((∀ row < 3, origin (elementCounts payloads) row = (row / 2, row % 2)) ↔
        elementCounts payloads = [2, 1]) := by
  intro context
  obtain ⟨after, hrun⟩ : ∃ after,
      (applyBatch threeLetters { url := "s" } ["a"] ["b"] (some 2)).runIn context {} =
        (.ok numbered, after) :=
    ⟨_, Prod.ext (by decide +kernel) rfl⟩
  obtain ⟨column, items, rounds, payloads, answers, hcolumn, hitems, hchunks, -, hgathered, hrows,
    horigin⟩ := applyBatch_origins (by decide) hrun
  obtain rfl : "a" = column := by
    have hexpand : Selector.expand threeLetters.names ["a"] = .ok ["a"] := by decide +kernel
    exact List.head_eq_of_cons_eq (Except.ok.inj (hexpand.symm.trans hcolumn))
  obtain rfl := Except.ok.inj hitems
  have hsizes : rounds.map (·.1.length) = [2, 1] := by
    have hlengths := congrArg (List.map List.length) hchunks
    rw [List.map_map] at hlengths
    exact hlengths.symm.trans (by decide +kernel)
  rw [hsizes] at horigin
  exact ⟨payloads, answers, hgathered, ⟨after, hrun⟩, fun row hrow => by
    obtain ⟨element, helement, hfilled⟩ := hrows row hrow
    exact ⟨element, helement, hfilled "b" (List.mem_singleton_self _)⟩, horigin⟩

/-- Answers whose lengths make up for each other are accepted: the answer to the first chunk has no
element for the second row, which is filled from the answer to the other chunk. -/
theorem row_filled_from_other_chunk :
    let context := scripted {} [.ok ⟨200, "[1]"⟩, .ok ⟨200, "[2, 3]"⟩]
    let payloads := [Value.list [.ofInt 1], .list [.ofInt 2, .ofInt 3]]
    (∃ after, (applyBatch threeLetters { url := "s" } ["a"] ["b"] (some 2)).runIn context {} =
        (.ok numbered, after)) ∧
      (∃ rounds, chunks 2 [Value.string "x", .string "y", .string "z"] = rounds.map (·.1) ∧
        Answered context { url := "s" } {} rounds payloads) ∧
      elementAt payloads (1 / 2, 1 % 2) = none ∧
      elementAt payloads (1, 0) = some (.ofInt 2) ∧
      numbered.cell? "b" 1 = some (.ofInt 2) := by
  intro context payloads
  refine ⟨⟨_, Prod.ext (by decide +kernel) rfl⟩, ?_, rfl, rfl, by decide⟩
  refine ⟨[([.string "x", .string "y"], 1), ([.string "z"], 1)], by decide +kernel, ?_⟩
  exact .cons (by decide) (by decide +kernel) (.cons (by decide) (by decide +kernel) .nil)

end Step

end TableRecipe
