import TableRecipe.Connector.Files
import TableRecipe.Connector.Sample

/-!
# Using connectors

* `Connector.read` — the table that a connector reads;
* `Connector.write` — writes a table to a connector;
* `Connector.act` — runs an action of a connector.
-/

namespace TableRecipe.Connector

/-- the failure of a connector that has no source -/
def unreadable (connector : Connector) : Error :=
  .unsupported s!"connector '{connector.name}' cannot be read from"

/-- the failure of a connector that has no destination -/
def unwritable (connector : Connector) : Error :=
  .unsupported s!"connector '{connector.name}' cannot be written to"

/-- the failure of a connector that has no action -/
def inactive (connector : Connector) : Error :=
  .unsupported s!"connector '{connector.name}' has no run action"

/-! ## The log -/

/-- a row of the log: texts between bars -/
def logRow (texts : List String) : String := " | ".intercalate texts

/-- logs the shape and the first rows of a table, ten unless told otherwise -/
def logTable (table : Table) (params : Fields) : Engine Unit := do
  let limit := ((Fields.find? "rows" params).bind Value.natural?).getD 10
  Engine.record (.log
    s!"{table.length} rows x {table.width} columns: {logRow table.names}")
  (List.range (min table.length limit)).forM fun row =>
    Engine.record (.log (logRow (table.names.map fun name =>
      ((table.cell? name row).map Value.text).getD "")))

/-- logs a message -/
def logMessage (params : Fields) : Engine Unit :=
  Engine.record (.log (((Fields.find? "message" params).map Value.text).getD ""))

/-! ## The three uses -/

/-- the table that a connector reads -/
def read (connector : Connector) (params : Fields) : Engine Table :=
  match connector with
  | test => Sample.read params
  | file => Files.read params
  | console => throw connector.unreadable
  | host own =>
    match own.read? with
    | none => throw connector.unreadable
    | some read => do
      Engine.record (.read own.name params)
      Engine.ofExcept (read params)

/-- writes a table to a connector -/
def write (connector : Connector) (table : Table) (params : Fields) : Engine Unit :=
  match connector with
  | test => throw connector.unwritable
  | file => Files.write table params
  | console => logTable table params
  | host own =>
    match own.write? with
    | none => throw connector.unwritable
    | some write => do
      Engine.record (.write own.name params table)
      Engine.ofExcept (write table params)

/-- runs an action of a connector -/
def act (connector : Connector) (params : Fields) : Engine Unit :=
  match connector with
  | test | file => throw connector.inactive
  | console => logMessage params
  | host own =>
    match own.run? with
    | none => throw connector.inactive
    | some run => do
      Engine.record (.act own.name params)
      Engine.ofExcept (run params)

end TableRecipe.Connector
