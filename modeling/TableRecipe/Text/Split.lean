import TableRecipe.Text.Letter

/-!
# Trimming and splitting

* `Split.trim`, `Split.trimStart`, `Split.trimEnd` — a text without the blanks around it;
* `Split.on` — the pieces of a text between the occurrences of a character;
* `Split.has` — whether a text holds another.
-/

namespace TableRecipe.Split

/-- the text without the blanks in front -/
def trimStart (cs : List Char) : List Char := cs.dropWhile Letter.isBlank

/-- the text without the blanks at the end -/
def trimEnd (cs : List Char) : List Char := (cs.reverse.dropWhile Letter.isBlank).reverse

/-- the text without the blanks around it -/
def trim (cs : List Char) : List Char := trimEnd (trimStart cs)

/-- the pieces between the occurrences of a character: one more than there are occurrences -/
def on (separator : Char) : List Char → List (List Char)
  | [] => [[]]
  | c :: rest =>
    if c = separator then [] :: on separator rest
    else match on separator rest with
      | [] => [[c]]
      | piece :: pieces => (c :: piece) :: pieces

/-- whether `part` occurs in a text -/
def has (part : List Char) : List Char → Bool
  | [] => part.isEmpty
  | c :: rest => part.isPrefixOf (c :: rest) || has part rest

/-- the text after `lead`, if it starts with it -/
def after? (lead cs : List Char) : Option (List Char) :=
  if lead.isPrefixOf cs then some (cs.drop lead.length) else none

/-- a text without the blanks around it -/
def trimText (text : String) : String := String.ofList (trim text.toList)

end TableRecipe.Split
