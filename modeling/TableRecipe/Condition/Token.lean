import TableRecipe.Error
import TableRecipe.Number
import TableRecipe.Text.Split

/-!
# Words of a condition

The text of a condition falls into names, keywords, texts in single quotes, numbers, parameters,
operators and punctuation. Names that are no plain words stand in double quotes, backquotes or
brackets.

* `Token` — a word, with `Token.text`, its form inside messages;
* `Token.scan` — the words of a text.
-/

namespace TableRecipe

/-- the words with a meaning of their own -/
inductive Keyword where
  | and | or | not | among | like | between | is | null | truth | falsity
  deriving DecidableEq, Repr

namespace Keyword

/-- the spelling of a keyword in capitals -/
def text : Keyword → String
  | and => "AND"
  | or => "OR"
  | not => "NOT"
  | among => "IN"
  | like => "LIKE"
  | between => "BETWEEN"
  | is => "IS"
  | null => "NULL"
  | truth => "TRUE"
  | falsity => "FALSE"

/-- all keywords -/
def all : List Keyword := [and, or, not, among, like, between, is, null, truth, falsity]

/-- the keyword that a word spells, in any ASCII case -/
def ofWord? (word : List Char) : Option Keyword :=
  all.find? fun keyword => keyword.text.toList = word.map Char.toUpper

end Keyword

/-- the signs that compare -/
inductive Operator where
  | equal | doubleEqual | bangEqual | angles | less | lessEqual | greater | greaterEqual
  deriving DecidableEq, Repr

namespace Operator

/-- the spelling of a sign -/
def text : Operator → String
  | equal => "="
  | doubleEqual => "=="
  | bangEqual => "!="
  | angles => "<>"
  | less => "<"
  | lessEqual => "<="
  | greater => ">"
  | greaterEqual => ">="

end Operator

/-- a word of a condition -/
inductive Token where
  /-- the name of a column -/
  | column (name : String)
  /-- a keyword -/
  | word (keyword : Keyword)
  /-- a text in single quotes -/
  | literal (text : String)
  /-- a number without sign -/
  | number (value : Binary64)
  /-- a parameter by place -/
  | positional
  /-- a parameter by name -/
  | named (name : String)
  /-- a comparison -/
  | sign (operator : Operator)
  /-- a minus -/
  | minus
  /-- an opening parenthesis -/
  | openParen
  /-- a closing parenthesis -/
  | closeParen
  /-- a comma -/
  | comma
  deriving DecidableEq, Repr

namespace Token

/-- the form of a word inside messages -/
def message : Token → String
  | column name => "Ident(" ++ Quoted.text name ++ ")"
  | word keyword => "Keyword(" ++ Quoted.text keyword.text ++ ")"
  | literal text => "Str(" ++ Quoted.text text ++ ")"
  | number value => "Num(" ++ String.ofList (value.text .clause) ++ ")"
  | positional => "Positional"
  | named name => "Named(" ++ Quoted.text name ++ ")"
  | sign operator => "Op(" ++ Quoted.text operator.text ++ ")"
  | minus => "Minus"
  | openParen => "LParen"
  | closeParen => "RParen"
  | comma => "Comma"

/-- the form of a word that may be missing -/
def messageOf : Option Token → String
  | none => "None"
  | some token => "Some(" ++ token.message ++ ")"

/-- the text up to a closing quote, with what follows it; a doubled quote stands for itself -/
def readQuoted (close : Char) : List Char → Option (List Char × List Char)
  | [] => none
  | [c] => if c = close then some ([], []) else none
  | c :: d :: rest =>
    if c = close then
      if d = close && close ≠ ']' then
        (readQuoted close rest).map fun (text, rest) => (close :: text, rest)
      else some ([], d :: rest)
    else (readQuoted close (d :: rest)).map fun (text, rest) => (c :: text, rest)

/-- the operator that a text starts with -/
def readOperator? : List Char → Option (Operator × List Char)
  | '=' :: '=' :: rest => some (.doubleEqual, rest)
  | '!' :: '=' :: rest => some (.bangEqual, rest)
  | '<' :: '>' :: rest => some (.angles, rest)
  | '<' :: '=' :: rest => some (.lessEqual, rest)
  | '>' :: '=' :: rest => some (.greaterEqual, rest)
  | '=' :: rest => some (.equal, rest)
  | '<' :: rest => some (.less, rest)
  | '>' :: rest => some (.greater, rest)
  | _ => none

/-- a character of a parameter's name -/
def isParameter (c : Char) : Bool := Letter.isAlphanumeric c || c = '_'

/-- a character of a plain word after its first -/
def isWordPart (c : Char) : Bool := Letter.isAlphanumeric c || c = '_' || c = '.'

/-- a character of a number -/
def isNumberPart (c : Char) : Bool := Letter.isAsciiDigit c || c = '.' || c = 'e' || c = 'E'

/-- whether a number starts here: with a digit, or a point and a digit -/
def startsNumber : List Char → Bool
  | '.' :: c :: _ => Letter.isAsciiDigit c
  | c :: _ => Letter.isAsciiDigit c
  | [] => false

/-- an operator, a number or a plain word of the text `whole`, at a text that is not empty -/
def readPlain (whole : String) (first : Char) (rest : List Char) :
    Except Error (Option Token × List Char) :=
  match readOperator? (first :: rest) with
  | some (operator, rest) => .ok (some (.sign operator), rest)
  | none =>
    if first = '!' then .error (.conditionSyntax "'!' must be followed by '='")
    else if startsNumber (first :: rest) then
      let literal := (first :: rest).takeWhile isNumberPart
      match Decimal.read? literal with
      | some value => .ok (some (.number value), (first :: rest).dropWhile isNumberPart)
      | none => .error (.conditionSyntax s!"invalid number '{String.ofList literal}'")
    else if Letter.isAlphabetic first || first = '_' then
      let letters := (first :: rest).takeWhile isWordPart
      let token := match Keyword.ofWord? letters with
        | some keyword => Token.word keyword
        | none => .column (String.ofList letters)
      .ok (some token, (first :: rest).dropWhile isWordPart)
    else .error (.conditionSyntax s!"unexpected character '{first}' in '{whole}'")

/-- one word of the text `whole`, or nothing for a blank, at a text that is not empty -/
def readOne (whole : String) (first : Char) (rest : List Char) :
    Except Error (Option Token × List Char) :=
  let quoted := fun (close : Char) (make : String → Token) =>
    match readQuoted close rest with
    | some (text, rest) => .ok (some (make (String.ofList text)), rest)
    | none => .error (.conditionSyntax s!"unterminated '{close}' in '{whole}'")
  if Letter.isBlank first then .ok (none, rest)
  else if first = '(' then .ok (some .openParen, rest)
  else if first = ')' then .ok (some .closeParen, rest)
  else if first = ',' then .ok (some .comma, rest)
  else if first = '?' then .ok (some .positional, rest)
  else if first = '-' then .ok (some .minus, rest)
  else if first = '\'' then quoted '\'' .literal
  else if first = '"' then quoted '"' .column
  else if first = '\x60' then quoted '\x60' .column
  else if first = '[' then quoted ']' .column
  else if first = ':' then
    let name := rest.takeWhile isParameter
    if name.isEmpty then .error (.conditionSyntax "expected a parameter name after ':'")
    else .ok (some (.named (String.ofList name)), rest.dropWhile isParameter)
  else readPlain whole first rest

/-- the words of the rest of a text; `fuel` bounds their number -/
def scanFrom (whole : String) : (fuel : Nat) → List Char → Except Error (List Token)
  | 0, _ => .ok []
  | _, [] => .ok []
  | fuel + 1, first :: rest => do
    match ← readOne whole first rest with
    | (none, rest) => scanFrom whole fuel rest
    | (some token, rest) => return token :: (← scanFrom whole fuel rest)

/-- the words of a text -/
def scan (text : String) : Except Error (List Token) :=
  scanFrom text (text.toList.length + 1) text.toList

end Token

end TableRecipe
