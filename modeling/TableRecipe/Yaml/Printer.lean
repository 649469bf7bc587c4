import TableRecipe.Yaml.Data

/-!
# Text of YAML data

Data in the block style, an entry to a line, as it stands for a key that is a list or mapping.

* `Yaml.scalarText` — the text of a scalar, between quotes if it would else mean something
  different;
* `Yaml.Data.render` — the text of data.
-/

namespace TableRecipe.Yaml

/-! ## Scalars -/

/-- the text of an integer -/
def integerText (n : Int) : String := String.ofList (Number.integerText n)

/-- the text of a floating-point number -/
def decimalText : Binary64 → String
  | .infinite negative => if negative then "-.inf" else ".inf"
  | .undefined => ".nan"
  | x => String.ofList (x.text .key)

/-- words that some readers take for truth values -/
def oldTruthWords : List String :=
  ["y", "Y", "yes", "Yes", "YES", "n", "N", "no", "No", "NO", "true", "True", "TRUE", "false",
    "False", "FALSE", "on", "On", "ON", "off", "Off", "OFF"]

/-- characters that a plain scalar does not begin with -/
def openingMarks : List Char :=
  ['#', ',', '[', ']', '\x7b', '\x7d', '&', '*', '!', '|', '>', '\'', '"', '%', '@', '\x60']

/-- whether a character behind another one ends a plain scalar -/
def endsPlain : (before : Char) → List Char → Bool
  | _, [] => false
  | before, c :: rest =>
    (c = ':' && endsWord rest) || (c = '#' && isBlank before) || endsPlain c rest

/-- whether a text without line ends may be written plainly -/
def isPlain (cs : List Char) : Bool :=
  match cs with
  | [] => false
  | c :: rest =>
    !(openingMarks.contains c || ((c = '?' || c = ':' || c = '-') && endsWord rest)
      || startsMark '-' (cs.take 3) || startsMark '.' (cs.take 3)
      || c = ' ' || cs.getLast? = some ' ' || endsPlain c rest)

/-- whether a character that ends no line is written as it is -/
def isPrintable (c : Char) : Bool :=
  isAllowed c && c ≠ '\t' && c ≠ '\r' && c.toNat ≠ 0x85 && c.toNat ≠ 0xfeff && !isBreak c

/-- whether a text has line ends of any kind -/
def hasLines (cs : List Char) : Bool :=
  cs.any fun c => isBreak c || c = '\r' || c.toNat = 0x85

/-- whether a character of the first kind stands right in front of one of the second -/
def hasPair (first second : Char → Bool) : List Char → Bool
  | c :: d :: rest => (first c && second d) || hasPair first second (d :: rest)
  | _ => false

/-- whether a text keeps its characters, line ends among them, outside double quotes: a blank in
front of a line end would be lost -/
def keepsLines (cs : List Char) : Bool :=
  cs.all (fun c => isPrintable c || isBreak c) && !hasPair (· = ' ') isBreak cs

/-- whether a text may be a block of lines -/
def isBlock (cs : List Char) : Bool := keepsLines cs && cs.getLast? ≠ some ' '

/-- whether a text may stand between single quotes -/
def isSingleQuotable (cs : List Char) : Bool := keepsLines cs && !hasPair isBreak (· = ' ') cs

/-- the letter that stands for a character behind a backslash -/
def escapeLetter? (c : Char) : Option Char :=
  match c.toNat with
  | 0x00 => some '0'
  | 0x07 => some 'a'
  | 0x08 => some 'b'
  | 0x09 => some 't'
  | 0x0a => some 'n'
  | 0x0b => some 'v'
  | 0x0c => some 'f'
  | 0x0d => some 'r'
  | 0x1b => some 'e'
  | 0x22 => some '"'
  | 0x5c => some '\\'
  | 0x85 => some 'N'
  | 0x2028 => some 'L'
  | 0x2029 => some 'P'
  | _ => none

/-- a character between double quotes -/
def escape (c : Char) : List Char :=
  match escapeLetter? c with
  | some letter => ['\\', letter]
  | none =>
    let digits := (Nat.toDigits 16 c.toNat).map Char.toUpper
    let pad := fun width => List.replicate (width - digits.length) '0' ++ digits
    if isPrintable c then [c]
    else if c.toNat ≤ 0xff then '\\' :: 'x' :: pad 2
    else if c.toNat ≤ 0xffff then '\\' :: 'u' :: pad 4
    else '\\' :: 'U' :: pad 8

/-- a text between double quotes -/
def doubleQuoted (cs : List Char) : List Char := '"' :: (cs.flatMap escape ++ ['"'])

/-- characters, each line of which that is not empty starts at a column; `starts` says whether a
line starts here -/
def indentLines (column : Nat) : (starts : Bool) → List Char → List Char
  | _, [] => []
  | starts, c :: rest =>
    if isBreak c then c :: indentLines column true rest
    else
      (if starts then List.replicate column ' ' else []) ++ c :: indentLines column false rest

/-- a text between single quotes, those inside doubled, whose further lines stand at a column -/
def singleQuoted (column : Nat) (cs : List Char) : List Char :=
  let body := cs.flatMap fun c => if c = '\'' then ['\'', '\''] else [c]
  '\'' :: indentLines column false (body ++ ['\''])

/-- a text as a block of lines at a column. The mark in front says how far the lines are indented
if they would else hide it, and what becomes of the line ends behind the last line. -/
def blockText (column : Nat) (cs : List Char) : List Char :=
  let hint := if cs.head?.any fun c => c = ' ' || isBreak c then ['2'] else []
  let sign :=
    match cs.reverse with
    | last :: before =>
      if !isBreak last then ['-'] else if before.head?.all isBreak then ['+'] else []
    | [] => ['-']
  '|' :: (hint ++ sign ++ '\n' :: indentLines column true cs)

/-- whether the text means itself when it is written plainly -/
def meansItself (text : String) : Bool :=
  match plainData? text with
  | some (.string _) => !hasLeadingZero text.toList
  | _ => false

/-- a text as a scalar, whose further lines stand at a column -/
def stringText (column : Nat) (text : String) : String :=
  let cs := text.toList
  String.ofList <|
    if oldTruthWords.contains text then singleQuoted column cs
    else if cs.contains '\n' then
      if isBlock cs then blockText column cs else doubleQuoted cs
    else if cs.all isPrintable && isPlain cs && meansItself text then cs
    else if isSingleQuotable cs then singleQuoted column cs
    else doubleQuoted cs

/-- the marks that stand in a tag as they are -/
def tagMarks : List Char :=
  ['-', '_', ';', '/', '?', ':', '@', '&', '=', '+', '$', ',', '.', '!', '~', '*', '\'', '(', ')',
    '[', ']']

/-- a tag, the bytes of other characters than letters, digits and some marks being numbers -/
def tagText (tag : String) : String :=
  String.ofList <| '!' :: tag.toList.flatMap fun c =>
    if c.isAlphanum || tagMarks.contains c then [c]
    else (String.singleton c).toUTF8.toList.flatMap fun byte =>
      let digits := (Nat.toDigits 16 byte.toNat).map Char.toUpper
      '%' :: (List.replicate (2 - digits.length) '0' ++ digits)

/-! ## Collections -/

/-- a line end and the blanks up to a column -/
def lineAt (column : Nat) : String := String.ofList ('\n' :: List.replicate column ' ')

/-- what sets a text apart from one on the next line, at a column: nothing if the text ends its
last line itself -/
def lineBehind (text : String) (column : Nat) : String :=
  if text.toList.getLast?.any isBreak then String.ofList (List.replicate column ' ')
  else lineAt column

/-- texts below each other, at a column -/
def stack (column : Nat) : List String → String
  | [] => ""
  | [text] => text
  | text :: rest => text ++ lineBehind text column ++ stack column rest

/-- the length of data that take one line, without quotes -/
def Data.lineLength? : Data → Option Nat
  | .null => some 4
  | .bool flag => some (if flag then 4 else 5)
  | .integer n => some (integerText n).utf8ByteSize
  | .decimal x => some (decimalText x).utf8ByteSize
  | .string text => if hasLines text.toList then none else some text.utf8ByteSize
  | .list items => if items.isEmpty then some 0 else none
  | .mapping entries => if entries.isEmpty then some 0 else none
  | .tagged tag data => data.lineLength?.map (1 + tag.utf8ByteSize + ·)

/-- whether data take one line that may stand in front of a colon -/
def Data.isShort (data : Data) : Bool := data.lineLength?.any (· ≤ 128)

/-- whether data are a list with items -/
def Data.isFullList : Data → Bool
  | .list (_ :: _) => true
  | _ => false

/-- whether data are a mapping with entries -/
def Data.isFullMapping : Data → Bool
  | .mapping (_ :: _) => true
  | _ => false

/-- whether data are a list with items behind a tag -/
def Data.isTaggedList : Data → Bool
  | .tagged _ data => data.isFullList
  | _ => false

/-- the column of data that are a part of an entry, the entry being at `column`: all are indented
but lists that start on a line of their own -/
def Data.columnBehindMark (column : Nat) (data : Data) : Nat :=
  if data.isTaggedList then column else column + 2

/-- the column of data that stand alone: no block, but the lines of a text, are indented -/
def Data.columnAlone : Data → Nat
  | .tagged _ data => if data.isFullList || data.isFullMapping then 0 else 2
  | _ => 0

/-- the text of data behind a mark, their further lines standing at a column; `depth` bounds how
deep they nest -/
def Data.render : (depth : Nat) → (column : Nat) → Data → String
  | 0, _, _ => ""
  | _ + 1, _, .null => "null"
  | _ + 1, _, .bool flag => if flag then "true" else "false"
  | _ + 1, _, .integer n => integerText n
  | _ + 1, _, .decimal x => decimalText x
  | _ + 1, column, .string text => stringText column text
  | _ + 1, _, .list [] => "[]"
  | _ + 1, _, .mapping [] => "\x7b\x7d"
  | depth + 1, column, .list items =>
    stack column (items.map fun item => "- " ++ render depth (column + 2) item)
  | depth + 1, column, .mapping entries =>
    stack column (entries.map fun (key, value) =>
      if key.isShort then
        let place :=
          if value.isFullList then lineAt column ++ render depth column value
          else if value.isFullMapping then
            lineAt (column + 2) ++ render depth (column + 2) value
          else " " ++ render depth (value.columnBehindMark column) value
        render depth (column + 2) key ++ ":" ++ place
      else
        let first := render depth (key.columnBehindMark column) key
        "? " ++ first ++ lineBehind first column ++ ": "
          ++ render depth (value.columnBehindMark column) value)
  | depth + 1, column, .tagged tag data =>
    let place := if data.isFullList || data.isFullMapping then lineAt column else " "
    tagText tag ++ place ++ render depth column data

/-! ## Values -/

/-- the text that a key becomes -/
def keyText : Data → String
  | .string text => text
  | .bool flag => if flag then "true" else "false"
  | .integer n => integerText n
  | .decimal x => decimalText x
  | .null => "null"
  | other => Split.trimText (other.render maxDataDepth other.columnAlone)

/-- the value that data stand for: keys become texts, tags are dropped, and numbers beyond all
finite ones are null -/
def Data.toValue : (depth : Nat) → Data → Value
  | 0, _ => .null
  | _ + 1, .null => .null
  | _ + 1, .bool flag => .bool flag
  | _ + 1, .integer n => .ofInt n
  | _ + 1, .decimal x => .ofBinary64 x
  | _ + 1, .string text => .string text
  | depth + 1, .list items => .list (items.map (toValue depth))
  | depth + 1, .mapping entries =>
    .object (Fields.ofPairs (entries.map fun (key, value) => (keyText key, toValue depth value)))
  | depth + 1, .tagged _ data => toValue depth data

/-- the value that a text writes, if it is one document -/
def read? (text : String) : Option Value := (data? text).map (Data.toValue maxDataDepth)

end TableRecipe.Yaml
