import TableRecipe.Remote.Send

/-!
# Sending many values

A list of values is sent in chunks of equal size. A service answers a chunk either with a list or
with a mapping of `columns` and `data`; one call keeps to one of the two forms.

* `Answers` — what came back for the chunks so far, with `Answers.absorb`;
* `Answers.values` — the values that came back;
* `Remote.chunks` — a list in chunks;
* `Remote.sendAll` — a call for all chunks, in order.
-/

namespace TableRecipe

/-- what came back for the chunks so far -/
inductive Answers where
  /-- nothing yet -/
  | empty
  /-- lists of values, one behind the other -/
  | flat (values : List Value)
  /-- rows under the names that came last -/
  | columnar (columns : List String) (rows : List (List Value))
  deriving DecidableEq, Repr, Inhabited

namespace Answers

/-- how many values came back -/
def length : Answers → Nat
  | empty => 0
  | flat values => values.length
  | columnar _ rows => rows.length

/-- the values that came back; a row becomes a mapping -/
def values : Answers → List Value
  | empty => []
  | flat values => values
  | columnar columns rows => rows.map fun row => .object (Fields.ofPairs (columns.zip row))

/-- the failure of answers in both forms -/
def mixed : Error :=
  .unexpectedResponse "chunk responses mixed flat lists and columnar objects"

/-- a name of a column: a text, or the JSON text of another value -/
def columnName : Value → String
  | .string name => name
  | other => other.json

/-- the list under a name of an answer -/
def listOf (fields : Fields) (name : String) : Except Error (List Value) :=
  match Fields.find? name fields with
  | some (.list items) => .ok items
  | _ => .error (.unexpectedResponse s!"object response without a '{name}' list")

/-- the cells of a row of an answer -/
def rowOf : Value → Except Error (List Value)
  | .list cells => .ok cells
  | _ => .error (.unexpectedResponse "'data' rows must be lists")

/-- the names and rows of an answer that is a mapping -/
def parts (fields : Fields) : Except Error (List String × List (List Value)) := do
  let columns ← listOf fields "columns"
  let rows ← listOf fields "data"
  return (columns.map columnName, ← rows.mapM rowOf)

/-- the kind of a value, in words -/
def kindOf : Value → String
  | .null => "null"
  | .bool _ => "a boolean"
  | .number _ => "a number"
  | .string _ => "a string"
  | .list _ => "a list"
  | .object _ => "an object"

/-- adds the answer for one more chunk -/
def absorb (answers : Answers) : Value → Except Error Answers
  | .list items =>
    match answers with
    | empty => .ok (flat items)
    | flat values => .ok (flat (values ++ items))
    | columnar _ _ => .error mixed
  | .object fields => do
    let (columns, rows) ← parts fields
    match answers with
    | empty => return columnar columns rows
    | columnar _ earlier => return columnar columns (earlier ++ rows)
    | flat _ => throw mixed
  | other => .error (.unexpectedResponse
      s!"expected a list or a columns/data object, got {kindOf other}")

end Answers

namespace Remote

/-- a list in chunks of `size + 1` items, the last one perhaps shorter -/
def chunksOf (size : Nat) : List α → List (List α)
  | [] => []
  | item :: rest => (item :: rest.take size) :: chunksOf size (rest.drop size)
termination_by items => items.length
decreasing_by simp only [List.length_cons, List.length_drop]; omega

/-- a list in chunks of a size, zero counting as one -/
def chunks (size : Nat) (items : List α) : List (List α) := chunksOf (size - 1) items

/-- sends chunks one after the other, adding the answers to those so far -/
def sendChunks (request : Request) : Answers → List (List Value) → Engine Answers
  | answers, [] => return answers
  | answers, chunk :: rest => do
    let payload ← send request (.list chunk)
    sendChunks request (← Engine.ofExcept (answers.absorb payload)) rest

/-- sends a list of values in chunks and answers what came back -/
def sendAll (request : Request) (items : List Value) (size : Nat) : Engine Answers :=
  sendChunks request .empty (chunks size items)

end Remote

end TableRecipe
