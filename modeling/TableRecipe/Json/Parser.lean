import TableRecipe.Json.Printer

/-!
# Reading JSON

A strict reader. Numbers without point and exponent are integers as long as they fit into 64
bits; every other number is read as its first digits that fit into 64 bits, scaled by powers of
ten, each step being rounded. A repeated name keeps its first place and its last value. Lists and
mappings nest at most 127 deep.

* `Json.read?` — the value of a text, `none` if the text is not JSON.
-/

namespace TableRecipe.Json

/-- drops blanks, tabs and line ends -/
def skipBlanks (cs : List Char) : List Char :=
  cs.dropWhile fun c => c = ' ' || c = '\n' || c = '\t' || c = '\r'

/-! ## Texts -/

/-- the value of a hexadecimal digit -/
def hexValue? (c : Char) : Option Nat :=
  if '0' ≤ c && c ≤ '9' then some (c.toNat - 48)
  else if 'a' ≤ c && c ≤ 'f' then some (c.toNat - 87)
  else if 'A' ≤ c && c ≤ 'F' then some (c.toNat - 55)
  else none

/-- four hexadecimal digits -/
def hex4? (a b c d : Char) : Option Nat := do
  some ((((← hexValue? a) * 16 + (← hexValue? b)) * 16 + (← hexValue? c)) * 16 + (← hexValue? d))

/-- the character of a one-letter escape -/
def escaped? (c : Char) : Option Char :=
  if c = '"' then some '"'
  else if c = '\\' then some '\\'
  else if c = '/' then some '/'
  else if c = 'b' then some (Char.ofNat 8)
  else if c = 'f' then some (Char.ofNat 12)
  else if c = 'n' then some '\n'
  else if c = 'r' then some '\r'
  else if c = 't' then some '\t'
  else none

/-- the rest of a text after its opening quote, with what follows the closing one; characters
beyond 16 bits may be escaped as a surrogate pair, and no surrogate stands alone -/
def readText : List Char → Option (List Char × List Char)
  | [] => none
  | '"' :: rest => some ([], rest)
  | '\\' :: 'u' :: a :: b :: c :: d :: '\\' :: 'u' :: e :: f :: g :: h :: rest => do
    let first ← hex4? a b c d
    if 0xd800 ≤ first && first < 0xdc00 then
      let second ← hex4? e f g h
      if 0xdc00 ≤ second && second < 0xe000 then
        let (text, after) ← readText rest
        some (Char.ofNat ((first - 0xd800) * 0x400 + (second - 0xdc00) + 0x10000) :: text, after)
      else none
    else if 0xdc00 ≤ first && first < 0xe000 then none
    else
      let (text, after) ← readText ('\\' :: 'u' :: e :: f :: g :: h :: rest)
      some (Char.ofNat first :: text, after)
  | '\\' :: 'u' :: a :: b :: c :: d :: rest => do
    let code ← hex4? a b c d
    if 0xd800 ≤ code && code < 0xe000 then none
    else
      let (text, after) ← readText rest
      some (Char.ofNat code :: text, after)
  | '\\' :: c :: rest => do
    let c ← escaped? c
    let (text, after) ← readText rest
    some (c :: text, after)
  | c :: rest =>
    if c.toNat < 32 || c = '\\' then none
    else do
      let (text, after) ← readText rest
      some (c :: text, after)
termination_by cs => cs.length

/-! ## Numbers -/

/-- the greatest significand -/
def maxSignificand : Nat := Nat.pow 2 64 - 1

/-- reads digits into a significand until the next one would not fit, which it leaves -/
def readSignificand : (significand : Nat) → (taken : Nat) → List Char → Nat × Nat × List Char
  | significand, taken, [] => (significand, taken, [])
  | significand, taken, c :: rest =>
    if Decimal.isDigit c && significand * 10 + Decimal.digit c ≤ maxSignificand then
      readSignificand (significand * 10 + Decimal.digit c) (taken + 1) rest
    else (significand, taken, c :: rest)

/-- `10 ^ n`, rounded -/
def powerOfTen (n : Nat) : Binary64 := .ofScientific false 1 n

/-- scales a number by `10 ^ exponent` in steps of at most `10 ^ 308`, each rounded; `none` when
it grows beyond every finite number -/
def scale (fuel : Nat) (x : Binary64) (exponent : Int) : Option Binary64 :=
  if exponent.natAbs ≤ 308 then
    if 0 ≤ exponent then
      let scaled := x.times (powerOfTen exponent.toNat)
      if scaled.isFinite then some scaled else none
    else some (x.dividedBy (powerOfTen exponent.natAbs))
  else if x.isZero then some x
  else if 0 ≤ exponent then none
  else match fuel with
    | 0 => some (.finite false 0)
    | fuel + 1 => scale fuel (x.dividedBy (powerOfTen 308)) (exponent + 308)

/-- a significand scaled by a power of ten; three steps down reach zero -/
def decimal? (negative : Bool) (significand : Nat) (exponent : Int) : Option Value := do
  let x ← scale 3 (.ofInt significand) exponent
  some (.number (.decimal (if negative then x.negate else x)))

/-- an exponent after its `e`; one that does not fit into 31 bits makes zero, or no number -/
def readExponent (negative : Bool) (significand : Nat) (exponent : Int) (cs : List Char) :
    Option (Value × List Char) :=
  let (down, body) := match cs with
    | '+' :: rest => (false, rest)
    | '-' :: rest => (true, rest)
    | _ => (false, cs)
  let (digits, rest) := Decimal.spanDigits body
  if digits.isEmpty then none
  else
    let magnitude := Decimal.natural digits
    if Nat.pow 2 31 ≤ magnitude then
      if significand = 0 || down then
        some (.number (.decimal (.finite negative 0)), rest)
      else none
    else do
      let exponent := if down then exponent - magnitude else exponent + magnitude
      some (← decimal? negative significand exponent, rest)

/-- an exponent, if one follows -/
def readScaled (negative : Bool) (significand : Nat) (exponent : Int) (cs : List Char) :
    Option (Value × List Char) :=
  match cs with
  | 'e' :: rest | 'E' :: rest => readExponent negative significand exponent rest
  | _ => do some (← decimal? negative significand exponent, cs)

/-- the digits after a point: those that do not fit into the significand are dropped -/
def readFraction (negative : Bool) (significand : Nat) (exponent : Int) (cs : List Char) :
    Option (Value × List Char) :=
  match cs with
  | [] => none
  | c :: _ =>
    if Decimal.isDigit c then
      let (significand, taken, rest) := readSignificand significand 0 cs
      readScaled negative significand (exponent - taken) (rest.dropWhile Decimal.isDigit)
    else none

/-- a number after its sign -/
def readUnsigned (negative : Bool) (cs : List Char) : Option (Value × List Char) :=
  match cs with
  | [] => none
  | first :: _ =>
    if !Decimal.isDigit first then none
    else
      let (significand, taken, rest) := readSignificand 0 0 cs
      if first = '0' && 1 < taken then none
      else
        -- integer digits beyond the significand count as a power of ten
        let beyond := rest.takeWhile Decimal.isDigit
        match rest.dropWhile Decimal.isDigit with
        | '.' :: more => readFraction negative significand beyond.length more
        | after =>
          if after.head? = some 'e' || after.head? = some 'E' || !beyond.isEmpty then
            readScaled negative significand beyond.length after
          else if !negative then some (.ofInt significand, after)
          else if 0 < significand && significand ≤ Nat.pow 2 63 then
            some (.ofInt (-(significand : Int)), after)
          else some (.number (.decimal (Binary64.ofInt significand).negate), after)

/-- a number -/
def readNumber : List Char → Option (Value × List Char)
  | '-' :: rest => readUnsigned true rest
  | cs => readUnsigned false cs

/-! ## Values -/

mutual
/-- a value and what follows it; `depth` lists and mappings may still open, and `fuel` bounds the
number of steps -/
def readValue : (fuel depth : Nat) → List Char → Option (Value × List Char)
  | 0, _, _ => none
  | fuel + 1, depth, cs =>
    match skipBlanks cs with
    | 'n' :: 'u' :: 'l' :: 'l' :: rest => some (.null, rest)
    | 't' :: 'r' :: 'u' :: 'e' :: rest => some (.bool true, rest)
    | 'f' :: 'a' :: 'l' :: 's' :: 'e' :: rest => some (.bool false, rest)
    | '"' :: rest => do
      let (text, rest) ← readText rest
      some (.string (String.ofList text), rest)
    | '[' :: rest =>
      if depth = 0 then none
      else match skipBlanks rest with
        | ']' :: rest => some (.list [], rest)
        | rest => do
          let (items, rest) ← readItems fuel (depth - 1) rest
          some (.list items, rest)
    | '\x7b' :: rest =>
      if depth = 0 then none
      else match skipBlanks rest with
        | '\x7d' :: rest => some (.object [], rest)
        | rest => do
          let (entries, rest) ← readEntries fuel (depth - 1) [] rest
          some (.object entries, rest)
    | cs => readNumber cs
/-- the items up to the closing bracket -/
def readItems : (fuel depth : Nat) → List Char → Option (List Value × List Char)
  | 0, _, _ => none
  | fuel + 1, depth, cs => do
    let (item, rest) ← readValue fuel depth cs
    match skipBlanks rest with
    | ']' :: rest => some ([item], rest)
    | ',' :: rest =>
      let (items, rest) ← readItems fuel depth rest
      some (item :: items, rest)
    | _ => none
/-- the entries up to the closing brace, after those read so far -/
def readEntries : (fuel depth : Nat) → Fields → List Char → Option (Fields × List Char)
  | 0, _, _, _ => none
  | fuel + 1, depth, entries, cs =>
    match skipBlanks cs with
    | '"' :: rest => do
      let (name, rest) ← readText rest
      match skipBlanks rest with
      | ':' :: rest =>
        let (value, rest) ← readValue fuel depth rest
        let entries := Fields.insert (String.ofList name) value entries
        match skipBlanks rest with
        | '\x7d' :: rest => some (entries, rest)
        | ',' :: rest => readEntries fuel depth entries rest
        | _ => none
      | _ => none
    | _ => none
end

/-- how many lists and mappings may stand inside each other -/
def maxDepth : Nat := 127

/-- the value written in a text -/
def readChars? (cs : List Char) : Option Value := do
  let (value, rest) ← readValue (2 * cs.length + 2) maxDepth cs
  if (skipBlanks rest).isEmpty then some value else none

/-- the value written in a text -/
def read? (text : String) : Option Value := readChars? text.toList

end TableRecipe.Json
