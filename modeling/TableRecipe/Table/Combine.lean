import TableRecipe.Table.Edit

/-!
# Combining tables

* `Table.union` — rows of one table below those of another;
* `Table.concatenate` — columns of one table beside those of another;
* `Table.join` — rows of both tables that agree on key columns, in one of the four ways of
  `JoinKind`.
-/

namespace TableRecipe

/-- which rows without a partner a join keeps -/
inductive JoinKind where
  /-- none -/
  | inner
  /-- those of the left table -/
  | left
  /-- those of the right table, which then also leads the order -/
  | right
  /-- those of both -/
  | outer
  deriving DecidableEq, Repr, Inhabited

namespace JoinKind

/-- the kind of join that a word names, in any ASCII case -/
def ofWord (word : String) : Except Error JoinKind :=
  match word.map Char.toLower with
  | "inner" => .ok inner
  | "left" => .ok left
  | "right" => .ok right
  | "outer" | "full" => .ok outer
  | other => .error (.validation
      s!"join 'how' must be one of inner, left, right, outer (got '{other}')")

end JoinKind

namespace Table

/-! ## Rows below rows -/

/-- the rows of one table, then those of another, labelled anew: columns in the order in which
rows first show them, cells that a side lacks being null -/
def union (table other : Table) : Table :=
  let rows := table.rows ++ other.rows
  let combined :=
    if rows.isEmpty then
      { columns := (other.names.foldl
          (fun names name => if names.contains name then names else names ++ [name])
          table.names).map fun name => ⟨name, []⟩ }
    else ofRows rows
  { combined with dates := uniteNames table.dates other.dates }

/-! ## Columns beside columns -/

/-- cells followed by nulls up to a length -/
def pad (cells : List Value) (length : Nat) : List Value :=
  cells ++ List.replicate (length - cells.length) .null

/-- adds the columns of a table, padded, to those collected so far -/
def addColumns (rows : Nat) (source : Table) : List Column → Table → Except Error Table
  | [], combined => .ok combined
  | column :: rest, combined => do
    if combined.has column.name then
      throw (.validation
        s!"cannot concatenate: column '{column.name}' appears in more than one source")
    let wider ← combined.edit (Edit.setColumn column.name (pad column.cells rows))
    addColumns rows source rest
      (if source.isDate column.name then wider.markDate column.name else wider)

/-- the columns of one table, then those of another, row beside row; the shorter side is padded
with nulls and the rows are labelled anew -/
def concatenate (table other : Table) : Except Error Table := do
  let rows := max table.length other.length
  let combined ← addColumns rows table table.columns (ofIndex (List.range rows))
  addColumns rows other other.columns combined

/-! ## Rows that agree -/

/-- the key of every row: the keys of its cells in the key columns, set apart by a separator that
no key contains -/
def keyRows (table : Table) (names : List String) : Except Error (List String) := do
  let columns ← names.mapM table.cells
  return (List.range table.length).map fun row =>
    "\x1f".intercalate (columns.map fun cells => ((cells[row]?).getD .null).key)

/-- the positions at which a key occurs, ascending -/
def positionsOfKey (keys : List String) (key : String) : List Nat :=
  keys.zipIdx.filterMap fun (other, position) => if other = key then some position else none

/-- the pairs of rows that a join puts side by side, given the keys of both tables -/
def pairRows (kind : JoinKind) (left right : List String) : List (Option Nat × Option Nat) :=
  match kind with
  | .right =>
    right.zipIdx.flatMap fun (key, row) =>
      match positionsOfKey left key with
      | [] => [(none, some row)]
      | partners => partners.map fun partner => (some partner, some row)
  | kind =>
    let paired := left.zipIdx.flatMap fun (key, row) =>
      match positionsOfKey right key with
      | [] => if kind = .inner then [] else [(some row, none)]
      | partners => partners.map fun partner => (some row, some partner)
    if kind = .outer then
      paired ++ right.zipIdx.filterMap fun (key, row) =>
        if left.contains key then none else some (none, some row)
    else paired

/-- where a key column bears the same name on both sides: its places there -/
def sharedKeys (table other : Table) (leftOn rightOn : List String) : List (Nat × Nat) :=
  (leftOn.zip rightOn).filterMap fun (left, right) =>
    if left = right then do some (← table.position? left, ← other.position? right) else none

/-- the cell of a row that may be missing -/
def cellAt (cells : List Value) : Option Nat → Value
  | some row => (cells[row]?).getD .null
  | none => .null

/-- the rows of two tables that agree on key columns. A key column of one name on both sides
appears once and takes the right value where there is no left row; other names that occur on
both sides are told apart by the endings `_x` and `_y`. The rows are labelled anew. -/
def join (table other : Table) (leftOn rightOn : List String) (kind : JoinKind) :
    Except Error Table := do
  if leftOn.isEmpty || leftOn.length ≠ rightOn.length then
    throw (.validation
      "join requires left_on and right_on with the same, non-zero number of columns")
  leftOn.forM fun name => discard (table.cells name)
  rightOn.forM fun name => discard (other.cells name)
  let shared := table.sharedKeys other leftOn rightOn
  let rightColumns := other.columns.zipIdx.filterMap fun (column, place) =>
    if shared.any (·.2 = place) then none else some column
  let pairs := pairRows kind (← table.keyRows leftOn) (← other.keyRows rightOn)
  let fromLeft := table.columns.zipIdx.map fun (column, place) =>
    let partner := (shared.find? (·.1 = place)).bind fun (_, place) => other.columns[place]?
    { name :=
        if rightColumns.any (·.name = column.name) then column.name ++ "_x" else column.name
      cells := pairs.map fun (left, right) =>
        match left, partner with
        | none, some partner => cellAt partner.cells right
        | left, _ => cellAt column.cells left : Column }
  let fromRight := rightColumns.map fun column =>
    { name := if table.has column.name then column.name ++ "_y" else column.name
      cells := pairs.map fun (_, right) => cellAt column.cells right : Column }
  return {
    columns := fromLeft ++ fromRight
    index := List.range pairs.length
    dates := uniteNames table.dates other.dates }

end Table

end TableRecipe
