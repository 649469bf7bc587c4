import TableRecipe.Pattern.Search

/-!
# Patterns of `LIKE`

`%` stands for any text, `_` for any character, and every other character for itself up to case.
A pattern is translated into a regular expression.

* `Like.expression` — the regular expression of a pattern;
* `Like.hasForm?` — whether a text has the form of a pattern.
-/

namespace TableRecipe.Like

/-- the part of the regular expression that a character of a pattern stands for -/
def piece (c : Char) : List Char :=
  if c = '%' then ['.', '*'] else if c = '_' then ['.'] else Pattern.escape [c]

/-- the regular expression of a pattern -/
def expression (pattern : List Char) : List Char :=
  "(?is)^".toList ++ pattern.flatMap piece ++ ['$']

/-- whether a text has the form of a pattern, unknown if the regular expression is too large -/
def hasForm? (pattern text : List Char) : Option Bool :=
  (Pattern.read? (expression pattern)).map (·.isMatch text)

end TableRecipe.Like
