import TableRecipe.Value

/-!
# JSON text of values

* `Json.write` — compact, without blanks;
* `Json.writeIndented` — one entry to a line, indented by two blanks a level;
* `Value.json` — the compact text;
* `Value.text` — the text of a value inside other text: texts stand for themselves and null for
  nothing.
-/

namespace TableRecipe

namespace Json

/-- a hexadecimal digit in lower case -/
def hexDigit (n : Nat) : Char := if n < 10 then Char.ofNat (48 + n) else Char.ofNat (87 + n)

/-- a character inside quotes: quotes, backslashes and controls are escaped, nothing else -/
def escape (c : Char) : List Char :=
  if c = '"' then ['\\', '"']
  else if c = '\\' then ['\\', '\\']
  else if c = '\n' then ['\\', 'n']
  else if c = '\r' then ['\\', 'r']
  else if c = '\t' then ['\\', 't']
  else if c.toNat = 8 then ['\\', 'b']
  else if c.toNat = 12 then ['\\', 'f']
  else if c.toNat < 32 then
    ['\\', 'u', '0', '0', hexDigit (c.toNat / 16), hexDigit (c.toNat % 16)]
  else [c]

/-- a text in quotes -/
def quote (text : String) : List Char := '"' :: (text.toList.flatMap escape ++ ['"'])

mutual
/-- the compact text of a value -/
def write : Value → List Char
  | .null => ['n', 'u', 'l', 'l']
  | .bool true => ['t', 'r', 'u', 'e']
  | .bool false => ['f', 'a', 'l', 's', 'e']
  | .number n => n.text
  | .string text => quote text
  | .list items => '[' :: (writeItems items ++ [']'])
  | .object entries => '\x7b' :: (writeEntries entries ++ ['\x7d'])
/-- values separated by commas -/
def writeItems : List Value → List Char
  | [] => []
  | [item] => write item
  | item :: rest => write item ++ ',' :: writeItems rest
/-- entries separated by commas -/
def writeEntries : List (String × Value) → List Char
  | [] => []
  | [(name, value)] => quote name ++ ':' :: write value
  | (name, value) :: rest => quote name ++ ':' :: (write value ++ ',' :: writeEntries rest)
end

/-- a line break and the indentation of a level -/
def newLine (level : Nat) : List Char := '\n' :: List.replicate (2 * level) ' '

mutual
/-- the indented text of a value that stands at a level -/
def writeIndented (level : Nat) : Value → List Char
  | .list [] => ['[', ']']
  | .list (item :: rest) =>
    '[' :: (newLine (level + 1) ++ writeIndented (level + 1) item ++ writeIndentedItems level rest)
  | .object [] => ['\x7b', '\x7d']
  | .object ((name, value) :: rest) =>
    '\x7b' :: (newLine (level + 1) ++ quote name ++ [':', ' '] ++ writeIndented (level + 1) value
      ++ writeIndentedEntries level rest)
  | .null => write .null
  | .bool flag => write (.bool flag)
  | .number n => write (.number n)
  | .string text => write (.string text)
/-- the items after the first, and the closing bracket -/
def writeIndentedItems (level : Nat) : List Value → List Char
  | [] => newLine level ++ [']']
  | item :: rest =>
    ',' :: (newLine (level + 1) ++ writeIndented (level + 1) item ++ writeIndentedItems level rest)
/-- the entries after the first, and the closing brace -/
def writeIndentedEntries (level : Nat) : List (String × Value) → List Char
  | [] => newLine level ++ ['\x7d']
  | (name, value) :: rest =>
    ',' :: (newLine (level + 1) ++ quote name ++ [':', ' '] ++ writeIndented (level + 1) value
      ++ writeIndentedEntries level rest)
end

end Json

namespace Value

/-- the compact JSON text of a value -/
def json (value : Value) : String := String.ofList (Json.write value)

/-- the key by which equal values are found: the compact text, which tells `1` from `1.0` and
from `"1"` -/
def key (value : Value) : String := value.json

/-- a value inside other text: texts verbatim, null as nothing, everything else as JSON -/
def text : Value → String
  | .string text => text
  | .null => ""
  | other => other.json

end Value

end TableRecipe
