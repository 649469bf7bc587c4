import TableRecipe.Yaml.ScalarText

/-!
# Tokens of YAML documents

The signs of a document and, where indentation stands for signs, the signs that it stands for.

* `Yaml.Token` — a token;
* `Yaml.Scanner` — what was read of a document so far: a colon later on may turn a scalar or
  collection into the key of a mapping, as long as it stands on the same line;
* `Yaml.tokens?` — the tokens of a document.
-/

namespace TableRecipe.Yaml

/-- a sign of a document -/
inductive Token where
  /-- the end of all documents -/
  | streamEnd
  /-- the version of the language -/
  | version (major minor : Nat)
  /-- what a handle stands for in tags -/
  | tagHandle (handle lead : String)
  /-- `---` -/
  | documentStart
  /-- `...` -/
  | documentEnd
  /-- a list begins to the right of what surrounds it -/
  | blockListStart
  /-- a mapping begins to the right of what surrounds it -/
  | blockMappingStart
  /-- a list or mapping ends -/
  | blockEnd
  /-- `[` -/
  | flowListStart
  /-- `]` -/
  | flowListEnd
  /-- an opening brace -/
  | flowMappingStart
  /-- a closing brace -/
  | flowMappingEnd
  /-- `-` -/
  | blockEntry
  /-- `,` -/
  | flowEntry
  /-- `?`, or the place of one before a key -/
  | key
  /-- `:` -/
  | value
  /-- the name of an earlier node -/
  | alias (name : String)
  /-- a name for the next node -/
  | anchor (name : String)
  /-- the tag of the next node -/
  | tag (handle suffix : String)
  /-- a scalar, plain or not -/
  | scalar (text : String) (plain : Bool)
  deriving DecidableEq, Repr

/-- where a key of a mapping may have begun -/
structure KeyPlace where
  /-- whether it still may be one -/
  possible : Bool := false
  /-- whether it must be one -/
  required : Bool := false
  /-- the number of its first token -/
  token : Nat := 0
  /-- how many characters precede it -/
  offset : Nat := 0
  /-- its line -/
  line : Nat := 0
  /-- its column -/
  column : Nat := 0

/-- what was read of a document so far -/
structure Scanner where
  /-- the characters that are left -/
  rest : List Char
  /-- how many characters were read -/
  offset : Nat := 0
  /-- how many line ends were read -/
  line : Nat := 0
  /-- how many characters of the line were read -/
  column : Nat := 0
  /-- the column of the innermost collection without brackets -/
  indent : Int := -1
  /-- the columns of those around it -/
  indents : List Int := []
  /-- whether a key may begin here -/
  keyAllowed : Bool := true
  /-- where a key may have begun, in the innermost brackets first; the last one is outside of all
  brackets -/
  keys : List KeyPlace := [{}]
  /-- the tokens, the latest first -/
  tokens : List Token := []
  /-- how many tokens there are -/
  count : Nat := 0

/-- a part of reading a document, which may refuse it -/
abbrev Scan := StateT Scanner Option

namespace Scan

/-- whether the scanner stands between brackets -/
def inFlow : Scan Bool := return 1 < (← get).keys.length

/-- refuses the document unless the condition holds -/
def require (condition : Bool) : Scan Unit := if condition then return else fun _ => none

/-- reads one character -/
def advance (scanner : Scanner) (c : Char) : Scanner :=
  if isBreak c then
    { scanner with offset := scanner.offset + 1, line := scanner.line + 1, column := 0 }
  else { scanner with offset := scanner.offset + 1, column := scanner.column + 1 }

/-- moves on to what is left of the document -/
def moveTo (rest : List Char) : Scan Unit := modify fun scanner =>
  let passed := scanner.rest.take (scanner.rest.length - rest.length)
  { passed.foldl advance scanner with rest }

/-- moves over characters -/
def skip (count : Nat) : Scan Unit := do moveTo ((← get).rest.drop count)

/-- moves over characters of a kind -/
def skipWhile (p : Char → Bool) : Scan Unit := do moveTo ((← get).rest.dropWhile p)

/-- reads with a function that answers what is left -/
def readWith (reader : List Char → Option (α × List Char)) : Scan α := do
  match reader (← get).rest with
  | some (a, rest) =>
    moveTo rest
    return a
  | none => fun _ => none

/-- adds a token -/
def add (token : Token) : Scan Unit := modify fun scanner =>
  { scanner with tokens := token :: scanner.tokens, count := scanner.count + 1 }

/-- adds a token in front of the one with a number -/
def addBefore (number : Nat) (token : Token) : Scan Unit := modify fun scanner =>
  { scanner with
    tokens := scanner.tokens.insertIdx (scanner.count - number) token
    count := scanner.count + 1 }

/-! ## Keys -/

/-- replaces the place where a key of the innermost collection may have begun -/
def setKey (key : KeyPlace) : Scan Unit := modify fun scanner =>
  { scanner with keys := key :: scanner.keys.drop 1 }

/-- the place where a key of the innermost collection may have begun -/
def keyPlace : Scan KeyPlace := return (← get).keys.head?.getD {}

/-- gives up the key of the innermost collection -/
def dropKey : Scan Unit := do
  let key ← keyPlace
  require !(key.possible && key.required)
  setKey { key with possible := false }

/-- notes that a key may begin here -/
def noteKey : Scan Unit := do
  let scanner ← get
  if scanner.keyAllowed then
    dropKey
    setKey {
      possible := true
      required := !(← inFlow) && scanner.indent = scanner.column
      token := scanner.count, offset := scanner.offset, line := scanner.line
      column := scanner.column }

/-- the longest key without a question mark -/
def maxKeyLength : Nat := 1024

/-- whether the place is too far back for a key -/
def isStale (scanner : Scanner) (key : KeyPlace) : Bool :=
  key.possible && (key.line < scanner.line || key.offset + maxKeyLength < scanner.offset)

/-- the place, given up as one for a key if it is too far back -/
def refreshed (scanner : Scanner) (key : KeyPlace) : KeyPlace :=
  if isStale scanner key then { key with possible := false } else key

/-- gives up the keys that are too far back -/
def dropStaleKeys : Scan Unit := do
  let scanner ← get
  require (scanner.keys.all fun key => !(isStale scanner key && key.required))
  set { scanner with keys := scanner.keys.map (refreshed scanner) }

/-- allows a key to begin here, or not -/
def allowKey (keyAllowed : Bool) : Scan Unit := modify ({ · with keyAllowed })

/-! ## Indentation -/

/-- opens a collection at a column if it stands to the right of the innermost one -/
def indentTo (column : Nat) (opened : Scan Unit) : Scan Unit := do
  let scanner ← get
  if !(← inFlow) && scanner.indent < column then
    set { scanner with indent := column, indents := scanner.indent :: scanner.indents }
    opened

/-- closes the collections to the right of a column -/
def dedentTo (column : Int) : Scan Unit := modify fun scanner =>
  if 1 < scanner.keys.length then scanner
  else
    let all := scanner.indent :: scanner.indents
    let closed := (all.takeWhile (column < ·)).length
    { scanner with
      tokens := List.replicate closed .blockEnd ++ scanner.tokens
      count := scanner.count + closed
      indent := ((all.drop closed).head?).getD (-1)
      indents := all.drop (closed + 1) }

/-! ## Directives -/

/-- a number of at most nine digits -/
def number : Scan Nat := do
  let digits := (← get).rest.takeWhile Decimal.isDigit
  require (!digits.isEmpty && digits.length ≤ 9)
  skip digits.length
  return Decimal.natural digits

/-- a certain character -/
def mark (c : Char) : Scan Unit := do
  require ((← get).rest.head? = some c)
  skip 1

/-- a handle of tags: a name between exclamation marks, of which the last may be missing -/
def handle : Scan (List Char) := do
  mark '!'
  let name := (← get).rest.takeWhile isNamePart
  skip name.length
  if (← get).rest.head? = some '!' then
    skip 1
    return '!' :: (name ++ ['!'])
  else return '!' :: name

/-- a character of tags; some stand in no tag that is written without angles -/
def isTagPart (wide : Bool) (c : Char) : Bool :=
  isNamePart c
    || [';', '/', '?', ':', '@', '&', '=', '+', '$', '.', '!', '~', '*', '\'', '(', ')'].contains c
    || (wide && [',', '[', ']'].contains c)

/-- how many bytes a character has whose first byte is given -/
def sequenceLength? (byte : Nat) : Option Nat :=
  if byte < 0x80 then some 1
  else if byte < 0xc0 then none
  else if byte < 0xe0 then some 2
  else if byte < 0xf0 then some 3
  else if byte < 0xf8 then some 4
  else none

/-- a byte written as a percent sign and two hexadecimal digits -/
def escapedByte? : List Char → Option (Nat × List Char)
  | '%' :: a :: b :: rest => do some ((← Json.hexValue? a) * 16 + (← Json.hexValue? b), rest)
  | _ => none

/-- the bytes that continue a character -/
def continuation? : (count : Nat) → List Char → Option (List Nat × List Char)
  | 0, cs => some ([], cs)
  | count + 1, cs => do
    let (byte, rest) ← escapedByte? cs
    if 0x80 ≤ byte && byte < 0xc0 then
      let (bytes, rest) ← continuation? count rest
      some (byte :: bytes, rest)
    else none

/-- the characters of a tag; bytes may be escaped -/
def tagParts (wide : Bool) : (fuel : Nat) → List Char → Option (List Char × List Char)
  | 0, _ => none
  | _ + 1, [] => some ([], [])
  | fuel + 1, c :: rest =>
    if c = '%' then do
      let (byte, rest) ← escapedByte? (c :: rest)
      let (bytes, rest) ← continuation? ((← sequenceLength? byte) - 1) rest
      let (parts, rest) ← tagParts wide fuel rest
      some ((byte :: bytes).map Char.ofNat ++ parts, rest)
    else if isTagPart wide c then do
      let (parts, rest) ← tagParts wide fuel rest
      some (c :: parts, rest)
    else some ([], c :: rest)

/-- what follows the start of a tag, and the start without its mark; one of the two is not empty -/
def tagRest (wide : Bool) (start : List Char) : Scan (List Char) := do
  let parts ← readWith fun cs => tagParts wide (cs.length + 1) cs
  require (!(start.isEmpty && parts.isEmpty))
  return start.drop 1 ++ parts

/-- the version in a directive -/
def versionDirective : Scan Unit := do
  skipWhile isBlank
  let major ← number
  mark '.'
  let minor ← number
  add (.version major minor)

/-- the handle and what it stands for in a directive -/
def tagDirective : Scan Unit := do
  skipWhile isBlank
  let handle ← handle
  require (handle = ['!'] || (1 < handle.length && handle.getLast? = some '!'))
  require ((← get).rest.head?.any isBlank)
  skipWhile isBlank
  let lead ← tagRest true []
  require (endsWord (← get).rest)
  add (.tagHandle (String.ofList handle) (String.ofList lead))

/-- a directive -/
def directive : Scan Unit := do
  skip 1
  let name := (← get).rest.takeWhile isNamePart
  skip name.length
  require (endsWord (← get).rest)
  if name = "YAML".toList then versionDirective
  else if name = "TAG".toList then tagDirective
  else require false
  readWith fun cs => (readLineEnd cs).map ((), ·)

/-! ## Single tokens -/

/-- the end of a document or its start, outside of all collections -/
def documentToken (step : Scan Unit) : Scan Unit := do
  dedentTo (-1)
  dropKey
  allowKey false
  step

/-- a sign of so many characters -/
def sign (length : Nat) (token : Token) : Scan Unit := do
  skip length
  add token

/-- an opening bracket -/
def openBracket (token : Token) : Scan Unit := do
  noteKey
  modify fun scanner => { scanner with keys := {} :: scanner.keys }
  allowKey true
  sign 1 token

/-- a closing bracket -/
def close (token : Token) : Scan Unit := do
  dropKey
  if ← inFlow then modify fun scanner => { scanner with keys := scanner.keys.drop 1 }
  allowKey false
  sign 1 token

/-- a comma -/
def comma : Scan Unit := do
  dropKey
  allowKey true
  sign 1 .flowEntry

/-- a hyphen in front of an entry -/
def hyphen : Scan Unit := do
  if !(← inFlow) then
    require (← get).keyAllowed
    indentTo (← get).column (add .blockListStart)
  dropKey
  allowKey true
  sign 1 .blockEntry

/-- a question mark in front of a key -/
def questionMark : Scan Unit := do
  if !(← inFlow) then
    require (← get).keyAllowed
    indentTo (← get).column (add .blockMappingStart)
  dropKey
  allowKey !(← inFlow)
  sign 1 .key

/-- a colon behind a key -/
def colon : Scan Unit := do
  let key ← keyPlace
  if key.possible then
    addBefore key.token .key
    indentTo key.column (addBefore key.token .blockMappingStart)
    setKey { key with possible := false }
    allowKey false
  else
    if !(← inFlow) then
      require (← get).keyAllowed
      indentTo (← get).column (add .blockMappingStart)
    allowKey !(← inFlow)
  sign 1 .value

/-- a name behind its sign -/
def name : Scan String := do
  skip 1
  let name := (← get).rest.takeWhile isNamePart
  skip name.length
  let rest := (← get).rest
  require (!name.isEmpty
    && (endsWord rest
      || ['?', ':', ',', ']', '\x7d', '%', '@', '\x60'].contains (rest.head?.getD ' ')))
  return String.ofList name

/-- a name, or the use of one -/
def named (token : String → Token) : Scan Unit := do
  noteKey
  allowKey false
  add (token (← name))

/-- a tag between angles -/
def fullTag : Scan Token := do
  skip 2
  let suffix ← tagRest true []
  mark '>'
  return .tag "" (String.ofList suffix)

/-- a tag with a handle, or with an exclamation mark alone -/
def shortTag : Scan Token := do
  let handle ← handle
  if 1 < handle.length && handle.getLast? = some '!' then
    return .tag (String.ofList handle) (String.ofList (← tagRest false []))
  else
    let suffix ← tagRest false handle
    if suffix.isEmpty then return .tag "" "!"
    else return .tag "!" (String.ofList suffix)

/-- a tag -/
def tag : Scan Unit := do
  noteKey
  allowKey false
  let token ← match (← get).rest with
    | _ :: '<' :: _ => fullTag
    | _ => shortTag
  let rest := (← get).rest
  require (endsWord rest || ((← inFlow) && rest.head? = some ','))
  add token

/-- a block of lines -/
def block (folded : Bool) : Scan Unit := do
  dropKey
  allowKey true
  let indent := (← get).indent
  let text ← readWith fun cs => readBlock folded indent (cs.drop 1)
  add (.scalar (String.ofList text) false)

/-- a scalar between quotes -/
def quoted (quote : Char) : Scan Unit := do
  noteKey
  allowKey false
  let text ← readWith fun cs => readQuoted quote (cs.drop 1)
  add (.scalar (String.ofList text) false)

/-- a plain scalar; a key may begin on the line behind it -/
def plain : Scan Unit := do
  noteKey
  allowKey false
  let scanner ← get
  let inFlow ← inFlow
  let broken ← readWith fun cs => do
    let plain ← readPlain inFlow (scanner.indent + 1) scanner.column cs
    some (plain, plain.rest)
  if broken.broken then allowKey true
  add (.scalar (String.ofList broken.text) true)

/-! ## All tokens -/

/-- moves on to the next token, over blanks, comments and line ends; tabs are no blanks where a
key may begin outside of brackets -/
def skipToToken : (fuel : Nat) → Scan Unit
  | 0 => return
  | fuel + 1 => do
    if (← get).column = 0 && (← get).rest.head?.any (·.toNat = 0xfeff) then skip 1
    let tabs := (← inFlow) || !(← get).keyAllowed
    skipWhile fun c => c = ' ' || (tabs && c = '\t')
    if (← get).rest.head? = some '#' then skipWhile (!isBreak ·)
    if (← get).rest.head?.any isBreak then
      skip 1
      if !(← inFlow) then allowKey true
      skipToToken fuel

/-- characters that start no plain scalar -/
def indicators : List Char :=
  ['-', '?', ':', ',', '[', ']', '\x7b', '\x7d', '#', '&', '*', '!', '|', '>', '\'', '"', '%', '@',
    '\x60']

/-- the next token, given its first character and what follows it -/
def token (c : Char) (rest : List Char) : Scan Unit := do
  let scanner ← get
  let inFlow ← inFlow
  let separated := endsWord rest
  if scanner.column = 0 && c = '%' then documentToken directive
  else if scanner.column = 0 && startsMark '-' (c :: rest) then
    documentToken (sign 3 .documentStart)
  else if scanner.column = 0 && startsMark '.' (c :: rest) then
    documentToken (sign 3 .documentEnd)
  else if c = '[' then openBracket .flowListStart
  else if c = '\x7b' then openBracket .flowMappingStart
  else if c = ']' then close .flowListEnd
  else if c = '\x7d' then close .flowMappingEnd
  else if c = ',' then comma
  else if c = '-' && separated then hyphen
  else if c = '?' && (inFlow || separated) then questionMark
  else if c = ':' && (inFlow || separated) then colon
  else if c = '*' then named .alias
  else if c = '&' then named .anchor
  else if c = '!' then tag
  else if c = '|' && !inFlow then block false
  else if c = '>' && !inFlow then block true
  else if c = '\'' || c = '"' then quoted c
  else if (!isGap c && !indicators.contains c) || (c = '-' && !rest.head?.any isBlank)
      || (!inFlow && (c = '?' || c = ':') && !separated) then plain
  else require false

/-- the end of all documents -/
def finish : Scan Unit := do
  dedentTo (-1)
  dropKey
  add .streamEnd

/-- reads all tokens that are left -/
def readAll : (fuel : Nat) → Scan Unit
  | 0 => require false
  | fuel + 1 => do
    dropStaleKeys
    skipToToken ((← get).rest.length + 1)
    dropStaleKeys
    dedentTo (← get).column
    match (← get).rest with
    | [] => finish
    | c :: rest => do
      token c rest
      readAll fuel

end Scan

/-- the tokens of a document, if it is well-formed so far -/
def tokens? (text : String) : Option (List Token) :=
  let cs := text.toList
  if cs.all isAllowed then
    -- a mark of the byte order in front is no part of the document
    let cs := if cs.head?.any (·.toNat = 0xfeff) then cs.drop 1 else cs
    let cs := unifyBreaks cs
    ((Scan.readAll (cs.length + 1)).run { rest := cs }).map fun (_, scanner) =>
      scanner.tokens.reverse
  else none

end TableRecipe.Yaml
