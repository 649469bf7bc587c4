import TableRecipe.Json.Parser
import TableRecipe.Yaml.Character

/-!
# The texts of scalars

A scalar is written plainly, between quotes, or as a block of lines. Line breaks inside of it are
folded: a single one becomes a blank, of several all but the first stay.

* `Yaml.readQuoted` — the text of a scalar between quotes;
* `Yaml.readPlain` — the text of a plain scalar;
* `Yaml.readBlock` — the text of a block.

Each of them answers the text together with what follows it.
-/

namespace TableRecipe.Yaml

/-! ## Gaps between words -/

/-- the blanks and line breaks between two words -/
structure Gap where
  /-- the blanks, if there is no line break -/
  blanks : List Char := []
  /-- whether there is a line break -/
  broken : Bool := false
  /-- the first line break, unless it was escaped -/
  first : List Char := []
  /-- the other line breaks -/
  more : List Char := []

namespace Gap

/-- what the gap becomes in the text -/
def fold (gap : Gap) : List Char :=
  if gap.broken then
    if gap.first = ['\n'] then (if gap.more.isEmpty then [' '] else gap.more)
    else gap.first ++ gap.more
  else gap.blanks

/-- the gap and one more character of it -/
def add (gap : Gap) (c : Char) : Gap :=
  if isBlank c then (if gap.broken then gap else { gap with blanks := gap.blanks ++ [c] })
  else if gap.broken then { gap with more := gap.more ++ [c] }
  else { broken := true, first := [c] }

end Gap

/-- reads a gap up to the next word and answers the column of that word; tabs in front of the
column `indent` of a new line are refused -/
def readGap (indent : Int) : Gap → (column : Nat) → List Char → Option (Gap × Nat × List Char)
  | gap, column, [] => some (gap, column, [])
  | gap, column, c :: rest =>
    if gap.broken && c = '\t' && column < indent then none
    else if isGap c then readGap indent (gap.add c) (if isBreak c then 0 else column + 1) rest
    else some (gap, column, c :: rest)

/-! ## Between quotes -/

/-- the character of a one-letter escape -/
def escaped? (c : Char) : Option Char :=
  match c with
  | '0' => some (Char.ofNat 0)
  | 'a' => some (Char.ofNat 7)
  | 'b' => some (Char.ofNat 8)
  | 't' | '\t' => some '\t'
  | 'n' => some '\n'
  | 'v' => some (Char.ofNat 11)
  | 'f' => some (Char.ofNat 12)
  | 'r' => some '\r'
  | 'e' => some (Char.ofNat 27)
  | ' ' => some ' '
  | '"' => some '"'
  | '/' => some '/'
  | '\\' => some '\\'
  | 'N' => some (Char.ofNat 0x85)
  | '_' => some (Char.ofNat 0xa0)
  | 'L' => some (Char.ofNat 0x2028)
  | 'P' => some (Char.ofNat 0x2029)
  | _ => none

/-- how many hexadecimal digits follow the letter of an escape -/
def escapeDigits? (c : Char) : Option Nat :=
  match c with
  | 'x' => some 2
  | 'u' => some 4
  | 'U' => some 8
  | _ => none

/-- the character whose code is written in so many hexadecimal digits -/
def readCode (digits : Nat) (cs : List Char) : Option (Char × List Char) := do
  let written := cs.take digits
  if written.length < digits then none
  else
    let code := (← written.mapM Json.hexValue?).foldl (fun code digit => code * 16 + digit) 0
    if (0xd800 ≤ code && code ≤ 0xdfff) || 0x10ffff < code then none
    else some (Char.ofNat code, cs.drop digits)

/-- the character of an escape after its backslash -/
def readEscape : List Char → Option (Char × List Char)
  | [] => none
  | c :: rest =>
    match escapeDigits? c with
    | some digits => readCode digits rest
    | none => (escaped? c).map fun escaped => (escaped, rest)

/-- reads on between quotes, the text so far being given in reverse -/
def readQuotedFrom (quote : Char) : (fuel : Nat) → (text cs : List Char) →
    Option (List Char × List Char)
  | 0, _, _ => none
  | fuel + 1, text, cs =>
    let afterGap := fun (gap : Gap) (column : Nat) (cs : List Char) => do
      let (gap, column, rest) ← readGap 0 gap column cs
      if column = 0 && startsDocumentMark rest then none
      else readQuotedFrom quote fuel (gap.fold.reverse ++ text) rest
    match cs with
    | [] => none
    | c :: rest =>
      if c = quote then
        if quote = '\'' && rest.head? = some quote then
          readQuotedFrom quote fuel (quote :: text) (rest.drop 1)
        else some (text.reverse, rest)
      else if quote = '"' && c = '\\' then
        if !rest.isEmpty && endsLine rest then afterGap { broken := true } 0 (rest.drop 1)
        else do
          let (escaped, rest) ← readEscape rest
          readQuotedFrom quote fuel (escaped :: text) rest
      else if isGap c then afterGap {} 1 cs
      else readQuotedFrom quote fuel (c :: text) rest

/-- the text of a scalar after its opening quote, single or double -/
def readQuoted (quote : Char) (cs : List Char) : Option (List Char × List Char) :=
  readQuotedFrom quote (cs.length + 1) [] cs

/-! ## Plain -/

/-- a bracket or comma, which ends words in the flow style -/
def isFlowMark (c : Char) : Bool := c = ',' || c = '[' || c = ']' || c = '\x7b' || c = '\x7d'

/-- reads a word of a plain scalar; a colon in front of a mark of the flow style is refused -/
def readWord (inFlow : Bool) : List Char → Option (List Char × List Char)
  | [] => some ([], [])
  | c :: rest =>
    if isGap c then some ([], c :: rest)
    else if inFlow && c = ':' && rest.head?.any (fun d => isFlowMark d || d = '?') then none
    else if (c = ':' && endsWord rest) || (inFlow && isFlowMark c) then some ([], c :: rest)
    else do
      let (word, rest) ← readWord inFlow rest
      some (c :: word, rest)

/-- a plain scalar -/
structure Plain where
  /-- the text -/
  text : List Char
  /-- whether line breaks follow it -/
  broken : Bool
  /-- what follows it and the gap behind it -/
  rest : List Char

/-- reads on in a plain scalar behind a gap; its further lines stand at the column `indent` or to
the right of it, unless it is written in the flow style -/
def readPlainFrom (inFlow : Bool) (indent : Int) : (fuel : Nat) → (text : List Char) → Gap →
    (column : Nat) → (cs : List Char) → Option Plain
  | 0, _, _, _, _ => none
  | fuel + 1, text, gap, column, cs =>
    if (column = 0 && startsDocumentMark cs) || cs.head? = some '#' then
      some ⟨text, gap.broken, cs⟩
    else do
      let (word, rest) ← readWord inFlow cs
      if word.isEmpty then some ⟨text, gap.broken, cs⟩
      else
        let text := text ++ gap.fold ++ word
        if rest.isEmpty || !endsWord rest then some ⟨text, false, rest⟩
        else
          let (gap, column, rest) ← readGap indent {} (column + word.length) rest
          if !inFlow && column < indent then some ⟨text, gap.broken, rest⟩
          else readPlainFrom inFlow indent fuel text gap column rest

/-- a plain scalar that starts at a column -/
def readPlain (inFlow : Bool) (indent : Int) (column : Nat) (cs : List Char) : Option Plain :=
  readPlainFrom inFlow indent (cs.length + 1) [] {} column cs

/-! ## Blocks -/

/-- what becomes of the line breaks at the end of a block -/
inductive Chomping where
  /-- the last line keeps its break -/
  | clip
  /-- none stays -/
  | strip
  /-- all stay -/
  | keep
  deriving DecidableEq

/-- the sign of a treatment of line breaks -/
def chomping? : List Char → Option (Chomping × List Char)
  | '+' :: rest => some (.keep, rest)
  | '-' :: rest => some (.strip, rest)
  | _ => none

/-- the digit of an indentation; zero is refused -/
def indentation? : List Char → Option (Option Nat × List Char)
  | [] => some (none, [])
  | c :: rest =>
    if c = '0' then none
    else if '1' ≤ c && c ≤ '9' then some (some (c.toNat - 48), rest)
    else some (none, c :: rest)

/-- the signs behind the bar of a block, in either order -/
def readHeader (cs : List Char) : Option (Chomping × Option Nat × List Char) := do
  match chomping? cs with
  | some (chomping, rest) =>
    let (indentation, rest) ← indentation? rest
    some (chomping, indentation, rest)
  | none =>
    let (indentation, rest) ← indentation? cs
    match indentation, chomping? rest with
    | some _, some (chomping, rest) => some (chomping, indentation, rest)
    | _, _ => some (.clip, indentation, rest)

/-- drops blanks and a comment up to the end of a line, and then the line end; anything else is
refused -/
def readLineEnd (cs : List Char) : Option (List Char) :=
  let rest := cs.dropWhile isBlank
  let rest := if rest.head? = some '#' then rest.dropWhile (!isBreak ·) else rest
  if endsLine rest then some (rest.drop 1) else none

/-- the empty lines in front of a line of a block -/
structure Margin where
  /-- their line breaks -/
  breaks : List Char
  /-- the column that was reached farthest to the right -/
  deepest : Nat
  /-- the column of what follows -/
  column : Nat
  /-- what follows -/
  rest : List Char

/-- drops empty lines and the indentation of the next line, up to the column `indent`, or all of
it if that is not known yet; tabs in it are refused -/
def readMargin (indent : Option Nat) : (breaks : List Char) → (deepest column : Nat) →
    List Char → Option Margin
  | breaks, deepest, column, [] => some ⟨breaks, max deepest column, column, []⟩
  | breaks, deepest, column, c :: rest =>
    let inside := match indent with
      | some indent => column < indent
      | none => true
    if inside && c = ' ' then readMargin indent breaks deepest (column + 1) rest
    else if inside && c = '\t' then none
    else if isBreak c then readMargin indent (breaks ++ [c]) (max deepest column) 0 rest
    else some ⟨breaks, max deepest column, column, c :: rest⟩

/-- the lines of a block read so far -/
structure Lines where
  /-- their text -/
  text : List Char := []
  /-- the break of the last line -/
  lineBreak : List Char := []
  /-- whether the last line starts with a blank -/
  indented : Bool := false
  /-- the breaks of the empty lines that follow -/
  breaks : List Char := []
  /-- what follows -/
  rest : List Char := []

/-- the lines with one more, which starts with a blank or not -/
def Lines.join (lines : Lines) (folded indented : Bool) : List Char :=
  let lineBreak :=
    if folded && lines.lineBreak = ['\n'] && !lines.indented && !indented then
      if lines.breaks.isEmpty then [' '] else []
    else lines.lineBreak
  lines.text ++ lineBreak ++ lines.breaks

/-- reads the lines of a block that stand at the column `indent` -/
def readLines (folded : Bool) (indent : Nat) : (fuel : Nat) → Lines → (column : Nat) → Option Lines
  | 0, _, _ => none
  | fuel + 1, lines, column =>
    if column ≠ indent || lines.rest.isEmpty then some lines
    else do
      let indented := lines.rest.head?.any isBlank
      let line := lines.rest.takeWhile (!isBreak ·)
      let after := lines.rest.drop line.length
      let margin ← readMargin (some indent) [] 0 0 (after.drop 1)
      let text := lines.join folded indented ++ line
      let next : Lines :=
        { text, lineBreak := after.take 1, indented, breaks := margin.breaks, rest := margin.rest }
      readLines folded indent fuel next margin.column

/-- the text of a block after its bar, inside of a collection at the column `parent`; its lines
are folded or not -/
def readBlock (folded : Bool) (parent : Int) (cs : List Char) : Option (List Char × List Char) := do
  let (chomping, indentation, rest) ← readHeader cs
  let rest ← readLineEnd rest
  let known := indentation.map fun n => (if 0 ≤ parent then parent.toNat + n else n)
  let margin ← readMargin known [] 0 0 rest
  let indent := known.getD (max margin.deepest (max (parent + 1).toNat 1))
  let start : Lines := { breaks := margin.breaks, rest := margin.rest }
  let lines ← readLines folded indent (rest.length + 1) start margin.column
  let ending := match chomping with
    | .strip => []
    | .clip => lines.lineBreak
    | .keep => lines.lineBreak ++ lines.breaks
  some (lines.text ++ ending, lines.rest)

end TableRecipe.Yaml
