import TableRecipe.Value
import TableRecipe.Yaml.Node
import TableRecipe.Text.Split

/-!
# Data of YAML documents

What a document means. A plain scalar may be null, a truth value or a number, every other one is a
text, unless a tag says otherwise. Keys of mappings may be anything, but no two are equal.

* `Yaml.Data` — the meaning of a node;
* `Yaml.plainData?` — the meaning of a plain scalar;
* `Yaml.Data.same` — the equality of keys;
* `Yaml.data?` — the meaning of a document.
-/

namespace TableRecipe.Yaml

/-- the meaning of a node -/
inductive Data where
  /-- nothing -/
  | null
  /-- a truth value -/
  | bool (flag : Bool)
  /-- an integer of 64 bits, signed or not -/
  | integer (value : Int)
  /-- any other number -/
  | decimal (value : Binary64)
  /-- a text -/
  | string (text : String)
  /-- a list -/
  | list (items : List Data)
  /-- a mapping -/
  | mapping (entries : List (Data × Data))
  /-- data under a tag that has no meaning here -/
  | tagged (tag : String) (data : Data)
  deriving Repr, Inhabited

/-! ## Plain scalars -/

/-- a number with a sign in front -/
structure Signed where
  /-- whether the sign is a minus -/
  negative : Bool
  /-- what follows the sign -/
  body : List Char

/-- a text without its sign -/
def signed (cs : List Char) : Signed :=
  match cs with
  | '-' :: rest => ⟨true, rest⟩
  | '+' :: rest => ⟨false, rest⟩
  | _ => ⟨false, cs⟩

/-- the number written in digits of a base -/
def naturalIn? (base : Nat) (digits : List Char) : Option Nat :=
  if digits.isEmpty then none
  else digits.foldlM (fun n c => do
    let digit ← Json.hexValue? c
    if digit < base then some (n * base + digit) else none) 0

/-- the number after a sign: in base 16, 8 or 2 behind `0x`, `0o` or `0b`, else in base 10 -/
def magnitude? : List Char → Option Nat
  | '0' :: 'x' :: rest => naturalIn? 16 rest
  | '0' :: 'o' :: rest => naturalIn? 8 rest
  | '0' :: 'b' :: rest => naturalIn? 2 rest
  | cs => naturalIn? 10 cs

/-- whether the text is a run of digits with a needless zero in front, which is no number -/
def hasLeadingZero (cs : List Char) : Bool :=
  match (signed cs).body with
  | '0' :: digit :: rest => (digit :: rest).all Decimal.isDigit
  | _ => false

/-- the integer that a text denotes -/
def integer? (cs : List Char) : Option Int :=
  if hasLeadingZero cs then none
  else
    let signed := signed cs
    (magnitude? signed.body).map fun n => if signed.negative then -(n : Int) else n

/-- whether an integer is a signed or unsigned one of so many bits -/
def fits (bits : Nat) (n : Int) : Bool := -Nat.pow 2 (bits - 1) ≤ n && n < Nat.pow 2 bits

/-- the floating-point number that a text denotes; a magnitude beyond all numbers is none -/
def decimal? (cs : List Char) : Option Binary64 :=
  let signed := signed cs
  let body := String.ofList signed.body
  if [".inf", ".Inf", ".INF"].contains body then some (.infinite signed.negative)
  else if [".nan", ".NaN", ".NAN"].contains (String.ofList cs) then some .undefined
  else if cs.head? = some '+' && signed.body.head?.any (fun c => c = '+' || c = '-') then none
  else (Decimal.read? cs).filter Binary64.isFinite

/-- the number that a text denotes, if it denotes one; the inner `none` is an integer of more than
64 bits that is not read as a floating-point number, either -/
def number? (cs : List Char) : Option (Option Data) :=
  match integer? cs with
  | some n =>
    if fits 64 n then some (some (.integer n))
    else if fits 128 n then some none
    else if hasLeadingZero cs then none
    else (decimal? cs).map fun x => some (.decimal x)
  | none =>
    if hasLeadingZero cs then none else (decimal? cs).map fun x => some (.decimal x)

/-- whether the text stands for null -/
def isNullWord (text : String) : Bool := ["null", "Null", "NULL", "~"].contains text

/-- the truth value that a text stands for -/
def boolWord? (text : String) : Option Bool :=
  if ["true", "True", "TRUE"].contains text then some true
  else if ["false", "False", "FALSE"].contains text then some false
  else none

/-- the meaning of a plain scalar, `none` for an integer that has too many bits -/
def plainData? (text : String) : Option Data :=
  if text.isEmpty || isNullWord text then some .null
  else match boolWord? text with
    | some flag => some (.bool flag)
    | none =>
      match number? text.toList with
      | some number => number
      | none => some (.string text)

/-! ## Tags -/

/-- the lead of the tags that have a meaning -/
def coreTag : String := "tag:yaml.org,2002:"

/-- the meaning of a scalar under a tag of the core of the language -/
def coreData? (kind text : String) : Option Data :=
  match kind with
  | "null" => if isNullWord text then some .null else none
  | "bool" => (boolWord? text).map .bool
  | "int" =>
    match integer? text.toList with
    | some n => if fits 64 n then some (.integer n) else none
    | none => none
  | "float" => (decimal? text.toList).map .decimal
  | _ => some (.string text)

/-- the name of a tag that has no meaning here -/
def ownTag? (tag : String) : Option String :=
  match tag.toList with
  | '!' :: c :: rest => some (String.ofList (c :: rest))
  | _ => none

/-- the meaning of a scalar -/
def scalarData? (tag : Option String) (text : String) (plain : Bool) : Option Data :=
  let untagged := if plain then plainData? text else some (.string text)
  match tag with
  | none => untagged
  | some tag =>
    match ownTag? tag with
    | some name => untagged.map (.tagged name)
    | none =>
      if tag = "!" then untagged
      else match Split.after? coreTag.toList tag.toList with
        | some kind => coreData? (String.ofList kind) text
        | none => some (.string text)

/-- data under the tag of a list or mapping -/
def underTag (tag : Option String) (data : Data) : Data :=
  match tag.bind ownTag? with
  | some name => .tagged name data
  | none => data

/-! ## Equality -/

/-- equality of floating-point numbers as keys: both zeros are equal, and so are all undefined
ones -/
def sameDecimal (a b : Binary64) : Bool :=
  (a = .undefined && b = .undefined) || a.compare? b = some .eq

/-- equality of keys, which no mapping may repeat: entries of mappings have no order; `depth`
bounds how deep the data nest -/
def Data.same : (depth : Nat) → Data → Data → Bool
  | 0, _, _ => false
  | depth + 1, a, b =>
    match a, b with
    | .null, .null => true
    | .bool a, .bool b => a = b
    | .integer a, .integer b => a = b
    | .decimal a, .decimal b => sameDecimal a b
    | .string a, .string b => a = b
    | .list a, .list b => a.length = b.length && (a.zip b).all fun (x, y) => same depth x y
    | .mapping a, .mapping b =>
      a.length = b.length && a.all fun (key, value) =>
        b.any fun (other, found) => same depth key other && same depth value found
    | .tagged tag a, .tagged other b => tag = other && same depth a b
    | _, _ => false

/-! ## Documents -/

/-- how deep lists and mappings may nest -/
def maxDepth : Nat := 128

/-- how deep data may nest, each level perhaps under a tag -/
def maxDataDepth : Nat := 2 * maxDepth + 4

/-- gives meaning to nodes, counting how often names are used -/
abbrev Compose := StateT Nat Option

/-- the entries of a mapping, of which no two have equal keys -/
def entriesOf (data : Node → Compose Data) : (seen : List (Data × Data)) →
    List (Node × Node) → Compose (List (Data × Data))
  | seen, [] => return seen.reverse
  | seen, (key, value) :: rest => do
    let key ← data key
    if seen.any fun (other, _) => Data.same maxDataDepth key other then fun _ => none
    else
      let value ← data value
      entriesOf data ((key, value) :: seen) rest

/-- the node that a use of a name stands for; names are used at most a hundred times for every
start and end of a node -/
def follow (document : Document) (number : Nat) : Compose Node := do
  let uses := (← get) + 1
  set uses
  if document.events * 100 < uses then fun _ => none
  else match document.named? number with
    | some node => return node
    | none => fun _ => none

/-- the meaning of a node that is no use of a name; `depth` lists and mappings may still open -/
def nodeData (document : Document) : (depth : Nat) → Node → Compose Data
  | 0, .scalar tag text plain => fun uses => (scalarData? tag text plain).map (·, uses)
  | 0, _ => fun _ => none
  | depth + 1, node =>
    let inner := fun (child : Node) => do
      match child with
      | .alias number => nodeData document depth (← follow document number)
      | child => nodeData document depth child
    match node with
    | .scalar tag text plain => fun uses => (scalarData? tag text plain).map (·, uses)
    | .list tag items => return underTag tag (.list (← items.mapM inner))
    | .mapping tag entries => return underTag tag (.mapping (← entriesOf inner [] entries))
    | .alias _ => fun _ => none

/-- the meaning of a document -/
def documentData? (document : Document) : Option Data :=
  match document.root with
  | none => some .null
  | some root => ((nodeData document maxDepth root).run 0).map (·.1)

/-- the meaning of a text, if it is one document -/
def data? (text : String) : Option Data := do
  documentData? (← document? (← tokens? text))

end TableRecipe.Yaml
