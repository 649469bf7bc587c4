import TableRecipe.Table.Basic

/-!
# Connectors

What a recipe may read from, write to, or run. Some come with this library; host programs add
others.

* `HostConnector` — a connector of a host program: each of its three uses is optional;
* `Connector` — a connector;
* `Draws` — where made-up rows take their random choices from.
-/

namespace TableRecipe

/-- a connector of a host program -/
structure HostConnector where
  /-- its name -/
  name : String
  /-- the table it reads -/
  read? : Option (Fields → Except Error Table) := none
  /-- writes a table -/
  write? : Option (Table → Fields → Except Error Unit) := none
  /-- runs an action -/
  run? : Option (Fields → Except Error Unit) := none

/-- a connector -/
inductive Connector where
  /-- made-up rows -/
  | test
  /-- files by their ending -/
  | file
  /-- lines of the log -/
  | console
  /-- one of the host program -/
  | host (connector : HostConnector)

namespace Connector

/-- the name that messages use -/
def name : Connector → String
  | test => "test"
  | file => "file"
  | console => "console"
  | host connector => connector.name

/-- the connectors that come with this library, by name -/
def standard : List (String × Connector) := [("test", test), ("file", file), ("console", console)]

/-- adds a connector to those known, in place of one that has its name -/
def register (connectors : List (String × Connector)) (name : String) (connector : Connector) :
    List (String × Connector) :=
  connectors.filter (·.1 ≠ name) ++ [(name, connector)]

/-- the connector of a name -/
def find (connectors : List (String × Connector)) (name : String) : Except Error Connector :=
  match connectors.lookup name with
  | some connector => .ok connector
  | none => .error (.of (.unknownConnector name))

end Connector

/-- a source of random choices, each made anew for the number of choices made before -/
structure Draws where
  /-- an integer between two bounds -/
  integer (drawn : Nat) (low high : Int) : Int
  /-- a floating-point number between two bounds -/
  decimal (drawn : Nat) (low high : Binary64) : Binary64
  /-- integers stay within the bounds -/
  integer_mem (drawn : Nat) (low high : Int) (h : low ≤ high) :
    low ≤ integer drawn low high ∧ integer drawn low high ≤ high
  /-- floating-point numbers stay within the bounds -/
  decimal_mem (drawn : Nat) (low high : Binary64) (h : low.compare? high ≠ some .gt) :
    low.compare? (decimal drawn low high) ≠ some .gt
      ∧ (decimal drawn low high).compare? high ≠ some .gt

namespace Draws

/-- takes the least number every time -/
def least : Draws where
  integer _ low _ := low
  decimal _ low _ := low
  integer_mem _ low _ h := ⟨Int.le_refl low, h⟩
  decimal_mem _ low _ h := ⟨by
    cases low with
    | finite negative units => simp [Binary64.compare?, compare, compareOfLessAndEq]
    | infinite negative => cases negative <;> decide
    | undefined => simp [Binary64.compare?], h⟩

instance : Inhabited Draws := ⟨least⟩

end Draws

end TableRecipe
