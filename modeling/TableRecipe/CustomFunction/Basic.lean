import TableRecipe.Table.Basic
import TableRecipe.Text.Split

/-!
# Custom functions

Functions of the host program that recipes may call. One that accepts tables receives the whole
table and returns one; the others are called once for every row, with cells and parameters under
the names they declare.

* `Signature` — what a function accepts, with `Signature.admits`;
* `CustomFunction` — a function under a name;
* `CustomFunction.register` — functions by name, a later one replacing an earlier one.
-/

namespace TableRecipe

/-- what a custom function accepts -/
structure Signature where
  /-- whether it works on whole tables -/
  acceptsTable : Bool := false
  /-- the names of its parameters -/
  parameters : List String := []
  /-- whether it takes parameters under other names, too -/
  isOpen : Bool := false
  deriving DecidableEq, Repr, Inhabited

namespace Signature

/-- of a function on whole tables -/
def ofTables : Signature := { acceptsTable := true, isOpen := true }

/-- of a function that is called for every row -/
def ofRows (parameters : List String) : Signature := { parameters }

/-- the signature with parameters under all other names, too -/
def opened (signature : Signature) : Signature := { signature with isOpen := true }

/-- whether the name is one of the parameters -/
def declares (signature : Signature) (name : String) : Bool := signature.parameters.contains name

/-- whether a value may be passed under the name -/
def admits (signature : Signature) (name : String) : Bool :=
  signature.isOpen || signature.declares name

end Signature

/-- what a custom function returns -/
inductive Output where
  /-- a table -/
  | table (table : Table)
  /-- a value -/
  | value (value : Value)
  deriving DecidableEq, Repr, Inhabited

/-- a custom function -/
structure CustomFunction where
  /-- its name -/
  name : String
  /-- what it accepts -/
  signature : Signature
  /-- what it returns for a table, if it is given one, and values by name -/
  call : Option Table → Fields → Except Error Output

namespace CustomFunction

/-- adds a function to those known, in place of one that has its name -/
def register (functions : List CustomFunction) (function : CustomFunction) :
    List CustomFunction :=
  functions.filter (·.name ≠ function.name) ++ [function]

/-- the function of a name -/
def find (functions : List CustomFunction) (name : String) : Except Error CustomFunction :=
  match functions.find? (·.name = name) with
  | some function => .ok function
  | none => .error (.of (.unknownFunction name))

/-- the name in a reference to a custom function, which starts with `custom.` -/
def reference? (text : String) : Option String :=
  (Split.after? "custom.".toList text.toList).map String.ofList

/-- the names of functions, ascending -/
def names (functions : List CustomFunction) : List String :=
  (functions.map (·.name)).mergeSort fun a b => a ≤ b

end CustomFunction

end TableRecipe
