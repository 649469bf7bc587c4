import TableRecipe.Pattern.Reader
import TableRecipe.Text.Split

/-!
# Wildcards

A name with stars: each star stands for any text without line breaks. The name is translated into
a regular expression in which each star is a group, and a new name with stars into a template that
refers to these groups.

* `Wildcard.expression` — the regular expression of a name with stars;
* `Wildcard.template` — the template of a new name.
-/

namespace TableRecipe.Wildcard

/-- the regular expression of a name with stars -/
def expression (name : List Char) : List Char :=
  "(.*)".toList.intercalate ((Split.on '*' name).map Pattern.escape)

/-- a new name with its stars replaced by references to the groups from `number` on -/
def references : (number : Nat) → List Char → List Char
  | _, [] => []
  | number, c :: rest =>
    if c = '*' then
      ['$', '\x7b'] ++ (toString number).toList ++ ['\x7d'] ++ references (number + 1) rest
    else if c = '$' then '$' :: '$' :: references number rest
    else c :: references number rest

/-- the template of a new name: its first star stands for the first group -/
def template (name : List Char) : List Char := references 1 name

end TableRecipe.Wildcard
