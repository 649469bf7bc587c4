import TableRecipe.Number

/-!
# Values

What a cell of a table holds, and what recipes and variables are written in: null, truth values,
numbers, texts, lists, and mappings whose entries keep the order in which they were inserted.

* `Value` — a value;
* `Fields` — the entries of a mapping, with look-up, insertion and removal.
-/

namespace TableRecipe

/-- a value -/
inductive Value where
  /-- no value -/
  | null
  /-- a truth value -/
  | bool (flag : Bool)
  /-- a number -/
  | number (number : Number)
  /-- a text -/
  | string (text : String)
  /-- a list of values -/
  | list (items : List Value)
  /-- a mapping, its entries in order of insertion -/
  | object (entries : List (String × Value))
  deriving Repr, Inhabited

/-- the entries of a mapping, in order of insertion -/
abbrev Fields := List (String × Value)

namespace Fields

/-- the value under a name -/
def find? (name : String) : Fields → Option Value
  | [] => none
  | (key, value) :: rest => if key = name then some value else find? name rest

/-- whether the name has an entry -/
def has (fields : Fields) (name : String) : Bool := (find? name fields).isSome

/-- sets the value under a name: a name that has an entry keeps its place, a new one goes last -/
def insert (name : String) (value : Value) : Fields → Fields
  | [] => [(name, value)]
  | (key, old) :: rest =>
    if key = name then (key, value) :: rest else (key, old) :: insert name value rest

/-- inserts entries one after the other -/
def extend (fields more : Fields) : Fields :=
  more.foldl (fun all (name, value) => insert name value all) fields

/-- the entries of a list of pairs, a repeated name keeping its first place and its last value -/
def ofPairs (pairs : List (String × Value)) : Fields := extend [] pairs

/-- the entries but for the names given -/
def without (fields : Fields) (names : List String) : Fields :=
  fields.filter fun (name, _) => !names.contains name

/-- the entries without one name, the last entry moving into its place -/
def swapRemove (fields : Fields) (name : String) : Fields :=
  match fields.findIdx? (·.1 = name), fields.getLast? with
  | some place, some last =>
    if place + 1 = fields.length then fields.dropLast else (fields.dropLast).set place last
  | _, _ => fields

/-- the names, in order -/
def names (fields : Fields) : List String := fields.map (·.1)

end Fields

namespace Value

mutual
/-- equality of values: same kinds, same numbers, same order -/
def decEq : (a b : Value) → Decidable (a = b)
  | .null, .null => isTrue rfl
  | .bool a, .bool b => if h : a = b then isTrue (by rw [h]) else isFalse (by simp [h])
  | .number a, .number b => if h : a = b then isTrue (by rw [h]) else isFalse (by simp [h])
  | .string a, .string b => if h : a = b then isTrue (by rw [h]) else isFalse (by simp [h])
  | .list a, .list b =>
    match decEqItems a b with
    | isTrue h => isTrue (by rw [h])
    | isFalse h => isFalse (by simp [h])
  | .object a, .object b =>
    match decEqEntries a b with
    | isTrue h => isTrue (by rw [h])
    | isFalse h => isFalse (by simp [h])
  | .null, .bool _ | .null, .number _ | .null, .string _ | .null, .list _ | .null, .object _
  | .bool _, .null | .bool _, .number _ | .bool _, .string _ | .bool _, .list _ | .bool _, .object _
  | .number _, .null | .number _, .bool _ | .number _, .string _ | .number _, .list _
  | .number _, .object _ | .string _, .null | .string _, .bool _ | .string _, .number _
  | .string _, .list _ | .string _, .object _ | .list _, .null | .list _, .bool _
  | .list _, .number _ | .list _, .string _ | .list _, .object _ | .object _, .null
  | .object _, .bool _ | .object _, .number _ | .object _, .string _ | .object _, .list _ =>
    isFalse (by simp)
/-- equality of lists of values -/
def decEqItems : (a b : List Value) → Decidable (a = b)
  | [], [] => isTrue rfl
  | a :: as, b :: bs =>
    match a.decEq b, decEqItems as bs with
    | isTrue h, isTrue t => isTrue (by rw [h, t])
    | isFalse h, _ => isFalse (by simp [h])
    | _, isFalse t => isFalse (by simp [t])
  | [], _ :: _ | _ :: _, [] => isFalse (by simp)
/-- equality of entries -/
def decEqEntries : (a b : List (String × Value)) → Decidable (a = b)
  | [], [] => isTrue rfl
  | (k, a) :: as, (l, b) :: bs =>
    if hk : k = l then
      match a.decEq b, decEqEntries as bs with
      | isTrue h, isTrue t => isTrue (by rw [hk, h, t])
      | isFalse h, _ => isFalse (by simp [h])
      | _, isFalse t => isFalse (by simp [t])
    else isFalse (by simp [hk])
  | [], _ :: _ | _ :: _, [] => isFalse (by simp)
end

instance : DecidableEq Value := decEq

/-- whether the value is null -/
def isNull : Value → Bool
  | null => true
  | _ => false

/-- the value under a name, if the value is a mapping that has it -/
def field? (name : String) : Value → Option Value
  | object entries => Fields.find? name entries
  | _ => none

/-- the integer as a value -/
def ofInt (n : Int) : Value := number (.integer n)

/-- the floating-point number as a value, null if it is not finite -/
def ofBinary64 (x : Binary64) : Value :=
  match Number.ofBinary64? x with
  | some n => number n
  | none => null

/-- the value as an unsigned integer, if it is one -/
def natural? : Value → Option Nat
  | number n => n.natural?
  | _ => none

end Value

end TableRecipe
