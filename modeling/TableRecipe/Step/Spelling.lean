import TableRecipe.Text.LetterCase
import TableRecipe.Error

/-!
# Letter case of texts

* `Spelling` — the four ways to write a text;
* `Spelling.apply` — a text written in one of them.
-/

namespace TableRecipe

/-- a way to write a text -/
inductive Spelling where
  /-- small letters -/
  | lower
  /-- capital letters -/
  | upper
  /-- a capital letter at the start of every word -/
  | title
  /-- a capital letter at the start -/
  | sentence
  deriving DecidableEq, Repr, Inhabited

namespace Spelling

/-- the way that a word names, in any ASCII case -/
def ofWord (word : String) : Except Error Spelling :=
  match word.map Char.toLower with
  | "lower" => .ok lower
  | "upper" => .ok upper
  | "title" => .ok title
  | "sentence" => .ok sentence
  | other => .error (.validation
      s!"convert.case: unknown case '{other}', expected lower, upper, title or sentence")

/-- a text with a capital at the start of every run of letters and numerals -/
def titleFrom : (startsWord : Bool) → List Char → List Char
  | _, [] => []
  | startsWord, c :: rest =>
    if Letter.isAlphanumeric c then
      (if startsWord then LetterCase.upper c else LetterCase.lower c) ++ titleFrom false rest
    else c :: titleFrom true rest

/-- a text whose first letter is a capital -/
def capitalized : List Char → List Char
  | [] => []
  | c :: rest => if Letter.isAlphabetic c then LetterCase.upper c ++ rest else c :: capitalized rest

/-- a text written in a certain way -/
def applyTo : Spelling → List Char → List Char
  | lower, cs => LetterCase.lowerText cs
  | upper, cs => LetterCase.upperText cs
  | title, cs => titleFrom true cs
  | sentence, cs => capitalized (LetterCase.lowerText cs)

/-- a text written in a certain way -/
def apply (spelling : Spelling) (text : String) : String :=
  String.ofList (spelling.applyTo text.toList)

end Spelling

end TableRecipe
