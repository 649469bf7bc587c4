import TableRecipe.Pattern.Search
import TableRecipe.Json.Printer
import TableRecipe.Selector.Slice
import TableRecipe.Selector.Wildcard

/-!
# Selecting columns

A selector names columns: by name, by place (`2`, `-1`), by slice (`1:3`), by wildcard (`col_*`)
or by regular expression (`regex:^a`). With a minus in front it takes columns away, with a
question mark at the end it may match nothing.

* `Selector` — a selector, with `Selector.read` and `Selector.select`;
* `Selector.expand` — the columns of a list of selectors, in the order in which they were first
  selected;
* `Selector.expandRenames` — the new names that pairs of selectors and names give to columns;
* `Selector.ofValue` — the list of selectors in a parameter.
-/

namespace TableRecipe

/-- how a selector finds columns -/
inductive SelectorKind where
  /-- by name -/
  | name
  /-- by place, from the end if negative -/
  | position (place : Int)
  /-- by slice -/
  | slice (slice : Slice)
  /-- by a name with stars, as a regular expression that matches the whole name -/
  | wildcard (regex : Pattern.Regex)
  /-- by a regular expression that matches the whole name -/
  | pattern (regex : Pattern.Regex)

/-- a selector -/
structure Selector where
  /-- the text without its signs -/
  body : String
  /-- whether columns are taken away -/
  negated : Bool
  /-- whether it may match nothing -/
  optional : Bool
  /-- how columns are found -/
  kind : SelectorKind

namespace Selector

/-- whether a text is a selector that takes columns away: neither a negative place nor a slice -/
def isNegated (text : String) : Bool :=
  text.toList.head? = some '-' && (Slice.integer? text.toList).isNone
    && (Slice.read? text.toList).isNone

/-- the regular expression that a whole name has to match -/
def wholeName? (pattern : List Char) : Option Pattern.Regex :=
  Pattern.read? ("^(?:".toList ++ pattern ++ ")$".toList)

/-- the kind of a selector without its signs -/
def kindOf (text : String) (body : List Char) : Except Error SelectorKind :=
  match Split.after? "regex:".toList body with
  | some pattern =>
    match wholeName? pattern with
    | some regex => .ok (.pattern regex)
    | none => .error (.validation s!"invalid selector pattern '{text}': ")
  | none =>
    if body.contains '*' then
      match wholeName? (Wildcard.expression body) with
      | some regex => .ok (.wildcard regex)
      | none => .error (.validation (s!"invalid wildcard selector '{text}': " ++
          "Compiled regex exceeds size limit of 10485760 bytes."))
    else match Slice.integer? body with
      | some place => .ok (.position place)
      | none =>
        match Slice.read? body with
        | some slice => .ok (.slice slice)
        | none => .ok .name

/-- the selector that a text writes -/
def read (text : String) : Except Error Selector := do
  let negated := isNegated text
  let body := if negated then text.toList.drop 1 else text.toList
  let optional := body.getLast? = some '?'
  let body := if optional then body.dropLast else body
  return { body := String.ofList body, negated, optional, kind := ← kindOf text body }

/-- the columns that a selector finds, without regard to its sign -/
def select (selector : Selector) (columns : List String) : Except Error (List String) :=
  match selector.kind with
  | .name => return columns.filter (· = selector.body)
  | .wildcard regex | .pattern regex =>
    return columns.filter fun column => regex.isMatch column.toList
  | .position place =>
    let length : Int := columns.length
    let resolved := if place < 0 then length + place else place
    match if resolved < 0 then none else columns[resolved.toNat]? with
    | some column => return [column]
    | none =>
      if selector.optional then return []
      else throw (.unknownColumn
        s!"{selector.body} (position out of range for {columns.length} columns)")
  | .slice slice => return (← slice.positions columns.length).filterMap (columns[·]?)

/-- the columns that a selector finds, of which there must be one unless it is optional -/
def selectSome (selector : Selector) (columns : List String) : Except Error (List String) := do
  let found ← selector.select columns
  if found.isEmpty && !selector.optional then throw (.unknownColumn selector.body)
  return found

/-- adds a column at the end unless it is there -/
def addOnce (selected : List String) (column : String) : List String :=
  if selected.contains column then selected else selected ++ [column]

/-- the effect of one selector on the columns selected so far -/
def apply (columns : List String) (selected : List String) (text : String) :
    Except Error (List String) := do
  if columns.contains text then return addOnce selected text
  let selector ← read text
  let found ← selector.selectSome columns
  if selector.negated then return selected.filter (!found.contains ·)
  return found.foldl addOnce selected

/-- whether a list of selectors starts from all columns: each takes columns away, none is the name
of a column, none contains a colon -/
def startsFull (columns selectors : List String) : Bool :=
  !selectors.isEmpty && selectors.all isNegated
    && !selectors.any columns.contains && !selectors.any (·.toList.contains ':')

/-- the columns that a list of selectors stands for, each once, in the order in which they were
selected -/
def expand (columns selectors : List String) : Except Error (List String) :=
  selectors.foldlM (apply columns) (if startsFull columns selectors then columns else [])

/-! ## New names -/

/-- references of the form `\1` in the form `$1`, with braces -/
def dollarReferences : List Char → List Char
  | [] => []
  | c :: rest =>
    let digits := rest.takeWhile Letter.isAsciiDigit
    if c = '\\' && !digits.isEmpty then
      ['$', '\x7b'] ++ digits ++ ['\x7d'] ++ dollarReferences (rest.dropWhile Letter.isAsciiDigit)
    else c :: dollarReferences rest
termination_by cs => cs.length
decreasing_by
  · have := (List.dropWhile_sublist (l := rest) Letter.isAsciiDigit).length_le
    simp only [List.length_cons]
    omega
  · simp

/-- the new name that a selector and a replacement give to a column it found -/
def renamed (selector : Selector) (replacement column : String) : String :=
  match selector.kind with
  | .wildcard regex =>
    String.ofList (regex.replaceFirst column.toList (Wildcard.template replacement.toList))
  | .pattern regex =>
    String.ofList (regex.replaceFirst column.toList (dollarReferences replacement.toList))
  | _ => replacement

/-- gives a column a new name, in place if it had one already -/
def putName (column name : String) : List (String × String) → List (String × String)
  | [] => [(column, name)]
  | (other, old) :: rest =>
    if other = column then (column, name) :: rest else (other, old) :: putName column name rest

/-- the effect of one selector and replacement on the new names so far -/
def applyRename (columns : List String) (renames : List (String × String))
    (pair : String × String) : Except Error (List (String × String)) := do
  let (text, replacement) := pair
  if columns.contains text then return putName text replacement renames
  let selector ← read text
  let found ← selector.selectSome columns
  return found.foldl
    (fun renames column => putName column (selector.renamed replacement column) renames) renames

/-- the new names that pairs of selectors and replacements give to columns -/
def expandRenames (columns : List String) (pairs : List (String × String)) :
    Except Error (List (String × String)) :=
  pairs.foldlM (applyRename columns) []

/-! ## Parameters -/

/-- one selector of a list -/
def itemOfValue : Value → Except Error String
  | .string text => .ok text
  | .number number => .ok (String.ofList number.text)
  | other => .error (.validation
      s!"column selectors must be strings or integers, got {other.json}")

/-- the selectors in a parameter: a text, a number, or a list of either -/
def ofValue : Value → Except Error (List String)
  | .null => .ok []
  | .string text => .ok [text]
  | .number number => .ok [String.ofList number.text]
  | .list items => items.mapM itemOfValue
  | other => .error (.validation s!"column selectors must be a string or a list, got {other.json}")

end Selector

end TableRecipe
