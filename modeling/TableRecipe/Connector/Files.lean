import TableRecipe.Csv
import TableRecipe.Engine
import TableRecipe.Json.Parser
import TableRecipe.Step.Params
import TableRecipe.Table.Edit

/-!
# Tables in files

The connector `file` reads and writes tables in a format that the ending of the file tells: records
separated by commas under a line of names, a list of rows as mappings, or one such mapping a line.

* `Files.Format` — the formats;
* `Files.encode` — the content of a file that holds a table;
* `Files.decode` — the table in the content of a file;
* `Files.read`, `Files.write` — access to files.
-/

namespace TableRecipe.Files

/-- how a file holds a table -/
inductive Format where
  /-- comma-separated records, the first one holding the names -/
  | csv
  /-- a list of rows -/
  | json
  /-- a row on every line -/
  | jsonLines
  deriving DecidableEq, Repr, Inhabited

/-- the format that the ending of a path tells, in any ASCII case -/
def Format.ofPath (path : String) : Except Error Format :=
  match (FilePath.extension? path).map fun ending => ending.map Char.toLower with
  | some "csv" => .ok csv
  | some "json" => .ok json
  | some "jsonl" | some "ndjson" => .ok jsonLines
  | _ => .error (.validation
      s!"file: unable to detect the format of '{path}' from its extension")

/-! ## The text of a table -/

/-- the records of a table: its names, then the texts of its rows -/
def recordsOf (table : Table) : List (List String) :=
  table.names :: (List.range table.length).map fun row =>
    table.names.map fun name => ((table.cell? name row).map Value.text).getD ""

/-- a row on a line of its own -/
def lineOf (row : Fields) : String := (Value.object row).json ++ "\n"

/-- the text of a table in a format -/
def encode (table : Table) : Format → String
  | .csv => Csv.write (recordsOf table)
  | .json => String.ofList (Json.writeIndented 0 (.list (table.rows.map .object)))
  | .jsonLines => String.join (table.rows.map lineOf)

/-! ## The table in a text -/

/-- a failure to read comma-separated records -/
def csvFailure : Error := .of (.fileSystem "csv error: ")

/-- a failure to read a document -/
def jsonFailure : Error := .of (.document "")

/-- the table in records: every cell is a text -/
def tableOfRecords : List (List String) → Except Error Table
  | [] => .ok {}
  | names :: rows =>
    Table.ofColumns (names.zipIdx.map fun (name, place) =>
      { name, cells := rows.map fun row => .string ((row[place]?).getD "") })

/-- the row that a value is, the rows being counted from 1 -/
def rowOf (value : Value) (number : Nat) : Except Error Fields :=
  match value with
  | .object row => .ok row
  | other => .error (.validation s!"row {number} must be an object, got {other.json}")

/-- the rows in a list -/
def rowsOfList (items : List Value) : Except Error (List Fields) :=
  items.zipIdx.mapM fun (item, place) => rowOf item (place + 1)

/-- the table in a list of rows -/
def tableOfDocument : Value → Except Error Table
  | .list items => return Table.ofRows (← rowsOfList items)
  | _ => .error (.validation "JSON file must hold a list of row objects")

/-- the row on a line, the lines being counted from 1; blank lines are passed over -/
def rowOfLine (line : Option String) (number : Nat) : Except Error (Option Fields) :=
  match line with
  | none => .error (.of (.fileSystem FileFailure.notText.message))
  | some text =>
    if (Split.trim text.toList).isEmpty then .ok none
    else match Json.read? text with
      | none => .error jsonFailure
      | some value => some <$> rowOf value number

/-- the table in lines of rows -/
def tableOfLines (lines : List (Option String)) : Except Error Table := do
  let rows ← lines.zipIdx.mapM fun (line, place) => rowOfLine line (place + 1)
  return Table.ofRows (rows.filterMap id)

/-- the table that the content of a file holds in a format -/
def decode (content : Content) : Format → Except Error Table
  | .csv =>
    match content.text?.bind Csv.read? with
    | some records => tableOfRecords records
    | none => .error csvFailure
  | .json =>
    match content.text?.bind Json.read? with
    | some document => tableOfDocument document
    | none => .error jsonFailure
  | .jsonLines => tableOfLines content.lines

/-! ## Files -/

/-- the path that parameters name, with the format that it tells -/
def target (params : Fields) : Except Error (String × Format) := do
  let path ← Params.text params "name" "file"
  return (path, ← Format.ofPath path)

/-- a refusal of the file system, as it appears in a format -/
def refusal (format : Format) (failure : FileFailure) : Error :=
  match format with
  | .csv => csvFailure
  | _ => .of (.fileSystem failure.message)

/-- a refusal of the file system to give the content of what was opened, as it appears in a
format -/
def contentRefusal (format : Format) (failure : FileFailure) : Error :=
  match format with
  | .json => jsonFailure
  | other => refusal other failure

/-- the table in the file that parameters name -/
def read (params : Fields) : Engine Table := do
  let (path, format) ← Engine.ofExcept (target params)
  match (← Engine.files).open? path with
  | .error failure => throw (refusal format failure)
  | .ok (.error failure) => throw (contentRefusal format failure)
  | .ok (.ok content) => Engine.ofExcept (decode content format)

/-- writes a table into the file that parameters name -/
def write (table : Table) (params : Fields) : Engine Unit := do
  let (path, format) ← Engine.ofExcept (target params)
  match (← Engine.files).write? path (.ofText (encode table format)) with
  | .error failure => throw (refusal format failure)
  | .ok files => Engine.setFiles files

end TableRecipe.Files
