import TableRecipe.Pattern.Expression
import TableRecipe.Pattern.Property

/-!
# Reading patterns

The written form of regular expressions: flags `i`, `m`, `s`, `x`, `U`, `u` and `R`, named
groups, classes in brackets with nesting and set operations, counted repetitions, escapes. There
is no look-around and there are no references back to groups.

* `Pattern.escape` — a text as a pattern for itself;
* `Pattern.Regex` — an expression with the names of its groups;
* `Pattern.read?` — the expression that a text writes, `none` if it writes none.
-/

namespace TableRecipe.Pattern

/-- the flags in force -/
structure Flags where
  /-- case is ignored -/
  ignoreCase : Bool := false
  /-- `^` and `$` match at lines -/
  multiLine : Bool := false
  /-- `.` matches line ends -/
  dotAll : Bool := false
  /-- repetitions are lazy unless marked -/
  swapGreed : Bool := false
  /-- classes range over all of Unicode -/
  unicode : Bool := true
  /-- blanks and comments are skipped -/
  verbose : Bool := false
  /-- lines also end at carriage returns -/
  returns : Bool := false

/-- what has been read of a pattern: the groups so far, with their names -/
structure Groups where
  /-- the number of groups -/
  count : Nat := 0
  /-- the names of groups -/
  names : List (String × Nat) := []

/-! ## Texts as patterns -/

/-- whether a character may mean something else than itself in a pattern -/
def isMeta (c : Char) : Bool := "\\.+*?()|[]\x7b\x7d^$#&-~".toList.contains c

/-- a text as a pattern that only it matches: a backslash goes before what may mean something
else -/
def escape (cs : List Char) : List Char := cs.flatMap fun c => if isMeta c then ['\\', c] else [c]

/-! ## Parts of the written form -/

/-- skips blanks and comments in verbose mode -/
def skipVerbose (flags : Flags) : List Char → List Char
  | [] => []
  | c :: rest =>
    if !flags.verbose then c :: rest
    else if Letter.isBlank c then skipVerbose flags rest
    else if c = '#' then skipComment flags rest
    else c :: rest
where
  /-- skips a comment up to the end of its line -/
  skipComment (flags : Flags) : List Char → List Char
    | [] => []
    | c :: rest => if c = '\n' then skipVerbose flags rest else skipComment flags rest

/-- a code point as a character, if it is one -/
def charOf? (code : Nat) : Option Char :=
  if code < 0xd800 || (0xdfff < code && code < 0x110000) then some (Char.ofNat code) else none

/-- the number written by hexadecimal digits -/
def hexNumber? (cs : List Char) : Option Nat :=
  cs.foldlM (fun n c => (CodePointSet.hexDigit? c).map (n * 16 + ·)) 0

/-- the character after `\x`, `\u` or `\U`: a fixed number of digits, or any in braces -/
def readHex (digits : Nat) : List Char → Option (Char × List Char)
  | '\x7b' :: rest => do
    let body := rest.takeWhile (· ≠ '\x7d')
    if body.isEmpty then none
    match rest.dropWhile (· ≠ '\x7d') with
    | _ :: after => some (← charOf? (← hexNumber? body), after)
    | [] => none
  | cs =>
    let body := cs.take digits
    if body.length = digits then do some (← charOf? (← hexNumber? body), cs.drop digits)
    else none

/-- the parts before and after the first occurrence of a separator -/
def splitAt? (separator : List Char) : List Char → Option (List Char × List Char)
  | [] => none
  | c :: rest =>
    if separator.isPrefixOf (c :: rest) then some ([], (c :: rest).drop separator.length)
    else (splitAt? separator rest).map fun (before, after) => (c :: before, after)

/-- the set after `\p`: one letter, or a name in braces -/
def readProperty (negated : Bool) : List Char → Option (CharSet × List Char)
  | '\x7b' :: rest => do
    let body := rest.takeWhile (· ≠ '\x7d')
    match rest.dropWhile (· ≠ '\x7d') with
    | [] => none
    | _ :: after =>
      let (negated, body) := match body with
        | '^' :: body => (!negated, body)
        | _ => (negated, body)
      let (unequal, parts) := match splitAt? ['!', '='] body with
        | some parts => (true, some parts)
        | none => (false, (splitAt? [':'] body).orElse fun _ => splitAt? ['='] body)
      let passes ← match parts with
        | some (property, value) => Property.member? (some property) value
        | none => Property.member? none body
      let set := CharSet.test passes
      some (if negated != unequal then .complement set else set, after)
  | '^' :: c :: rest => do
    let set := CharSet.test (← Property.member? none [c])
    some (if negated then set else .complement set, rest)
  | c :: rest => do
    let set := CharSet.test (← Property.member? none [c])
    some (if negated then .complement set else set, rest)
  | [] => none

/-- the digits of a class -/
def digitSet (flags : Flags) : CharSet :=
  if flags.unicode then .test Letter.isDecimalDigit else .range 48 57

/-- the blanks of a class -/
def blankSet (flags : Flags) : CharSet :=
  if flags.unicode then .test Letter.isBlank
  else .either (.range 9 13) (.range 32 32)

/-- the word characters of a class -/
def wordSet (flags : Flags) : CharSet :=
  if flags.unicode then .test Letter.isWord
  else .either (.range 48 57) (.either (.range 65 90) (.either (.range 97 122) (.range 95 95)))

/-- what an escape stands for -/
inductive Escape where
  /-- a character -/
  | literal (c : Char)
  /-- a set of characters -/
  | set (chars : CharSet)
  /-- a set whose case is ignored along with the rest -/
  | property (chars : CharSet)
  /-- a condition on the position -/
  | check (assertion : Assertion)

/-- the names of word boundaries in braces -/
def boundaryNamed? (ascii : Bool) (name : List Char) : Option Assertion :=
  match String.ofList name with
  | "start" => some (.wordStart ascii)
  | "end" => some (.wordEnd ascii)
  | "start-half" => some (.noWordBefore ascii)
  | "end-half" => some (.noWordAfter ascii)
  | _ => none

/-- what follows `\b`: nothing, or the name of a boundary in braces -/
def readBoundary (flags : Flags) : List Char → Option (Assertion × List Char)
  | '\x7b' :: rest =>
    let body := rest.dropWhile Letter.isBlank
    let name := body.takeWhile fun c => Letter.isAsciiLetter c || c = '-'
    if name.isEmpty then some (.boundary (!flags.unicode), '\x7b' :: rest)
    else match (body.drop name.length).dropWhile Letter.isBlank with
      | '\x7d' :: after => do some (← boundaryNamed? (!flags.unicode) name, after)
      | _ => none
  | rest => some (.boundary (!flags.unicode), rest)

/-- whether a backslash before the character makes it stand for itself -/
def isPunctuation (c : Char) : Bool :=
  c.toNat < 128 && !Letter.isAsciiLetter c && !Letter.isAsciiDigit c && c ≠ '<' && c ≠ '>'

/-- the complement of a class, which without Unicode would split characters -/
def complementOf? (flags : Flags) (set : CharSet) : Option Escape :=
  if flags.unicode then some (.set (.complement set)) else none

/-- an escape after its backslash -/
def readEscape (flags : Flags) : List Char → Option (Escape × List Char)
  | [] => none
  | c :: rest =>
    if isPunctuation c then some (.literal c, rest)
    else match c with
      | 'x' => (readHex 2 rest).map fun (c, rest) => (.literal c, rest)
      | 'u' => (readHex 4 rest).map fun (c, rest) => (.literal c, rest)
      | 'U' => (readHex 8 rest).map fun (c, rest) => (.literal c, rest)
      | 'p' => if flags.unicode then
          (readProperty false rest).map fun (set, rest) => (.property set, rest) else none
      | 'P' => if flags.unicode then
          (readProperty true rest).map fun (set, rest) => (.property set, rest) else none
      | 'd' => some (.set (digitSet flags), rest)
      | 's' => some (.set (blankSet flags), rest)
      | 'w' => some (.set (wordSet flags), rest)
      | 'D' => (complementOf? flags (digitSet flags)).map (·, rest)
      | 'S' => (complementOf? flags (blankSet flags)).map (·, rest)
      | 'W' => (complementOf? flags (wordSet flags)).map (·, rest)
      | 'a' => some (.literal (Char.ofNat 7), rest)
      | 'f' => some (.literal (Char.ofNat 12), rest)
      | 't' => some (.literal '\t', rest)
      | 'n' => some (.literal '\n', rest)
      | 'r' => some (.literal '\r', rest)
      | 'v' => some (.literal (Char.ofNat 11), rest)
      | 'A' => some (.check .textStart, rest)
      | 'z' => some (.check .textEnd, rest)
      | 'b' => (readBoundary flags rest).map fun (assertion, rest) => (.check assertion, rest)
      | 'B' => some (.check (.noBoundary (!flags.unicode)), rest)
      | '<' => some (.check (.wordStart (!flags.unicode)), rest)
      | '>' => some (.check (.wordEnd (!flags.unicode)), rest)
      | _ => none

/-! ## Classes in brackets -/

/-- the sets that may be named inside brackets as `[:name:]` -/
def asciiClass? (name : List Char) : Option CharSet :=
  let letters := CharSet.either (.range 65 90) (.range 97 122)
  let digits := CharSet.range 48 57
  match String.ofList name with
  | "alnum" => some (.either letters digits)
  | "alpha" => some letters
  | "ascii" => some (.range 0 127)
  | "blank" => some (.either (.range 9 9) (.range 32 32))
  | "cntrl" => some (.either (.range 0 31) (.range 127 127))
  | "digit" => some digits
  | "graph" => some (.range 33 126)
  | "lower" => some (.range 97 122)
  | "print" => some (.range 32 126)
  | "punct" =>
    some (.either (.range 33 47) (.either (.range 58 64) (.either (.range 91 96) (.range 123 126))))
  | "space" => some (.either (.range 9 13) (.range 32 32))
  | "upper" => some (.range 65 90)
  | "word" => some (.either letters (.either digits (.range 95 95)))
  | "xdigit" => some (.either digits (.either (.range 65 70) (.range 97 102)))
  | _ => none

/-- a set named as `[:name:]`, after its opening bracket -/
def readAsciiClass? : List Char → Option (CharSet × List Char)
  | ':' :: rest => do
    let (negated, rest) := match rest with
      | '^' :: rest => (true, rest)
      | rest => (false, rest)
    let name := rest.takeWhile (· ≠ ':')
    match rest.drop name.length with
    | ':' :: ']' :: after =>
      let set ← asciiClass? name
      some (if negated then .complement set else set, after)
    | _ => none
  | _ => none

/-- an item of a class: a character, or a set -/
def readClassItem (flags : Flags) : List Char → Option ((Char ⊕ CharSet) × List Char)
  | [] => none
  | '\\' :: rest => do
    match ← readEscape flags rest with
    | (.literal c, rest) => some (.inl c, rest)
    | (.set chars, rest) => some (.inr chars, rest)
    | (.property chars, rest) => some (.inr chars, rest)
    | (.check _, _) => none
  | c :: rest => some (.inl c, rest)

/-- an item or a range of a class -/
def readClassRange (flags : Flags) (cs : List Char) : Option (CharSet × List Char) := do
  let (item, rest) ← readClassItem flags cs
  let rest := skipVerbose flags rest
  let single : CharSet := match item with
    | .inl c => .single c
    | .inr set => set
  match rest with
  | [] => none
  | '-' :: more =>
    let ahead := skipVerbose flags more
    if ahead.head? = some ']' || ahead.head? = some '-' then some (single, rest)
    else
      match item, ← readClassItem flags ahead with
      | .inl first, (.inl last, rest) =>
        if first.toNat ≤ last.toNat then some (.range first.toNat last.toNat, rest) else none
      | _, _ => none
  | _ => some (single, rest)

/-- an operation on the sets of a class -/
inductive SetOperation where
  /-- what both sets hold -/
  | intersection
  /-- what the first set holds and the second does not -/
  | difference
  /-- what exactly one of the sets holds -/
  | symmetricDifference

/-- the result of a set operation -/
def SetOperation.apply (operation : SetOperation) (a b : CharSet) : CharSet :=
  match operation with
  | intersection => .both a b
  | difference => .both a (.complement b)
  | symmetricDifference => .both (.either a b) (.complement (.both a b))

/-- a set with case ignored if the flags say so -/
def foldCase (flags : Flags) (set : CharSet) : CharSet :=
  if flags.ignoreCase then .anyCase set else set

/-- the left side of pending set operations combined with the items read since -/
def combine (flags : Flags) (pending : Option (SetOperation × CharSet)) (items : CharSet) :
    CharSet :=
  match pending with
  | none => items
  | some (operation, left) => operation.apply (foldCase flags left) (foldCase flags items)

/-- skips hyphens at the start of a class -/
def leadingHyphens (flags : Flags) : List Char → Bool × List Char
  | '-' :: rest => (true, (leadingHyphens flags rest).2)
  | cs => (false, skipVerbose flags cs)

mutual
/-- a class after its opening bracket; `fuel` bounds the number of steps -/
def readClass : (fuel : Nat) → Flags → List Char → Option (CharSet × List Char)
  | 0, _, _ => none
  | fuel + 1, flags, cs =>
    let cs := skipVerbose flags cs
    let (negated, cs) := match cs with
      | '^' :: rest => (true, skipVerbose flags rest)
      | cs => (false, cs)
    let (hyphens, cs) := leadingHyphens flags cs
    let (items, cs) := match hyphens, cs with
      | false, ']' :: rest => (CharSet.single ']', rest)
      | true, cs => (CharSet.single '-', cs)
      | false, cs => (CharSet.empty, cs)
    (readClassItems fuel flags none items cs).map fun (set, rest) =>
      let set := foldCase flags set
      (if negated then .complement set else set, rest)
/-- the items of a class up to its closing bracket -/
def readClassItems : (fuel : Nat) → Flags → Option (SetOperation × CharSet) → CharSet →
    List Char → Option (CharSet × List Char)
  | 0, _, _, _, _ => none
  | fuel + 1, flags, pending, items, cs =>
    match skipVerbose flags cs with
    | [] => none
    | ']' :: rest => some (combine flags pending items, rest)
    | '&' :: '&' :: rest =>
      readClassItems fuel flags (some (.intersection, combine flags pending items)) .empty rest
    | '-' :: '-' :: rest =>
      readClassItems fuel flags (some (.difference, combine flags pending items)) .empty rest
    | '~' :: '~' :: rest =>
      readClassItems fuel flags (some (.symmetricDifference, combine flags pending items)) .empty
        rest
    | '[' :: rest =>
      match readAsciiClass? rest with
      | some (set, rest) => readClassItems fuel flags pending (.either items set) rest
      | none => do
        let (set, rest) ← readClass fuel flags rest
        readClassItems fuel flags pending (.either items set) rest
    | cs => do
      let (set, rest) ← readClassRange flags cs
      readClassItems fuel flags pending (.either items set) rest
end

/-! ## Groups, repetitions, sequences -/

/-- a decimal number of 32 bits, between blanks -/
def readCount? (cs : List Char) : Option (Nat × List Char) :=
  let cs := cs.dropWhile Letter.isBlank
  let digits := cs.takeWhile Letter.isAsciiDigit
  if digits.isEmpty then none
  else
    let count := digits.foldl (fun n c => n * 10 + (c.toNat - 48)) 0
    if count < Nat.pow 2 32 then some (count, (cs.drop digits.length).dropWhile Letter.isBlank)
    else none

/-- the bounds of a counted repetition, after the opening brace -/
def readBounds? (flags : Flags) (cs : List Char) : Option ((Nat × Option Nat) × List Char) := do
  let (least, rest) ← readCount? (skipVerbose flags cs)
  match rest with
  | '\x7d' :: rest => some ((least, some least), rest)
  | ',' :: rest =>
    match skipVerbose flags rest with
    | '\x7d' :: rest => some ((least, none), rest)
    | rest =>
      let (most, rest) ← readCount? rest
      match rest with
      | '\x7d' :: rest => if least ≤ most then some ((least, some most), rest) else none
      | _ => none
  | _ => none

/-- a repetition, with the mark that turns its greed around -/
def repeatItem (flags : Flags) (least : Nat) (most : Option Nat) (item : Expression) :
    List Char → Expression × List Char
  | '?' :: rest => (.times least most flags.swapGreed item, rest)
  | rest => (.times least most (!flags.swapGreed) item, rest)

/-- the flag of a letter, set or cleared -/
def setFlag? (flags : Flags) (on : Bool) (c : Char) : Option Flags :=
  match c with
  | 'i' => some { flags with ignoreCase := on }
  | 'm' => some { flags with multiLine := on }
  | 's' => some { flags with dotAll := on }
  | 'U' => some { flags with swapGreed := on }
  | 'u' => some { flags with unicode := on }
  | 'x' => some { flags with verbose := on }
  | 'R' => some { flags with returns := on }
  | _ => none

/-- flags up to `:` or `)`: each letter once, one hyphen with letters after it -/
def readFlags : (seen : List Char) → (on : Bool) → Flags → List Char →
    Option (Flags × Bool × List Char)
  | seen, _, flags, ':' :: rest => if seen.head? = some '-' then none else some (flags, true, rest)
  | seen, _, flags, ')' :: rest =>
    if seen.head? = some '-' || seen.isEmpty then none else some (flags, false, rest)
  | seen, on, flags, '-' :: rest => if on then readFlags ('-' :: seen) false flags rest else none
  | seen, on, flags, c :: rest => do
    if seen.contains c then none
    readFlags (c :: seen) on (← setFlag? flags on c) rest
  | _, _, _, [] => none

/-- the name of a group, up to the closing angle bracket -/
def readName? (cs : List Char) : Option (String × List Char) :=
  let name := cs.takeWhile (· ≠ '>')
  match name, cs.drop name.length with
  | first :: rest, _ :: after =>
    if (first = '_' || Letter.isAlphabetic first) && rest.all fun c =>
        c = '_' || c = '.' || c = '[' || c = ']' || Letter.isAlphanumeric c then
      some (String.ofList name, after)
    else none
  | _, _ => none

/-- any character but a line end -/
def dotSet (flags : Flags) : CharSet :=
  if flags.dotAll then .complement .empty
  else if flags.returns then .complement (.either (.single '\n') (.single '\r'))
  else .complement (.single '\n')

/-- one expression after another -/
def sequence (items : List Expression) : Expression :=
  match items with
  | [] => .empty
  | [item] => item
  | item :: rest => .andThen item (sequence rest)

/-- how a pattern is being read: the flags, the groups, and for a sequence the items so far, last
first; `none` stands for a place that cannot be repeated -/
structure State where
  /-- the flags in force -/
  flags : Flags
  /-- the groups so far -/
  groups : Groups
  /-- the items of the sequence, last first -/
  items : List (Option Expression)

/-- the items of a sequence, in order -/
def State.sequence (state : State) : Expression :=
  Pattern.sequence (state.items.reverse.filterMap id)

/-- repeats the last item of a sequence -/
def repeatLast (state : State) (least : Nat) (most : Option Nat) (rest : List Char) :
    Option (State × List Char) :=
  match state.items with
  | some item :: items =>
    let (item, rest) := repeatItem state.flags least most item rest
    some ({ state with items := some item :: items }, rest)
  | _ => none

mutual
/-- alternatives up to a closing parenthesis or the end; `depth` groups may still open -/
def readAlternatives : (fuel depth : Nat) → State → List Char →
    Option (Expression × State × List Char)
  | 0, _, _, _ => none
  | fuel + 1, depth, state, cs => do
    let (state, rest) ← readSequence fuel depth { state with items := [] } cs
    match rest with
    | '|' :: rest =>
      let (others, after, rest) ← readAlternatives fuel depth state rest
      some (.orElse state.sequence others, after, rest)
    | rest => some (state.sequence, state, rest)
/-- a sequence up to `|`, a closing parenthesis or the end -/
def readSequence : (fuel depth : Nat) → State → List Char → Option (State × List Char)
  | 0, _, _, _ => none
  | fuel + 1, depth, state, cs =>
    let flags := state.flags
    let push := fun (item : Expression) => { state with items := some item :: state.items }
    match skipVerbose flags cs with
    | [] => some (state, [])
    | '|' :: rest => some (state, '|' :: rest)
    | ')' :: rest => some (state, ')' :: rest)
    | '(' :: rest =>
      if depth = 0 then none
      else do
        let (item, state, rest) ← readGroup fuel (depth - 1) state (skipVerbose flags rest)
        readSequence fuel depth { state with items := item :: state.items } rest
    | '[' :: rest => do
      let (set, rest) ← readClass fuel flags rest
      readSequence fuel depth (push (.set set)) rest
    | '*' :: rest => do
      let (item, rest) ← repeatLast state 0 none rest
      readSequence fuel depth item rest
    | '+' :: rest => do
      let (item, rest) ← repeatLast state 1 none rest
      readSequence fuel depth item rest
    | '?' :: rest => do
      let (item, rest) ← repeatLast state 0 (some 1) rest
      readSequence fuel depth item rest
    | '\x7b' :: rest => do
      let ((least, most), rest) ← readBounds? flags rest
      let (item, rest) ← repeatLast state least most (skipVerbose flags rest)
      readSequence fuel depth item rest
    | '.' :: rest =>
      if flags.unicode then readSequence fuel depth (push (.set (dotSet flags))) rest else none
    | '^' :: rest =>
      let assertion := if flags.multiLine then .lineStart flags.returns else .textStart
      readSequence fuel depth (push (.check assertion)) rest
    | '$' :: rest =>
      let assertion := if flags.multiLine then .lineEnd flags.returns else .textEnd
      readSequence fuel depth (push (.check assertion)) rest
    | '\\' :: rest => do
      let (escape, rest) ← readEscape flags rest
      let item : Expression := match escape with
        | .literal c => .set (foldCase flags (.single c))
        | .set chars => .set chars
        | .property chars => .set (foldCase flags chars)
        | .check assertion => .check assertion
      readSequence fuel depth (push item) rest
    | c :: rest => readSequence fuel depth (push (.set (foldCase flags (.single c)))) rest
/-- a group after its opening parenthesis: an item, or new flags -/
def readGroup : (fuel depth : Nat) → State → List Char →
    Option (Option Expression × State × List Char)
  | 0, _, _, _ => none
  | fuel + 1, depth, state, cs =>
    let inner := fun (flags : Flags) (number : Option Nat) (groups : Groups) rest => do
      let (body, after, rest) ← readAlternatives fuel depth { flags, groups, items := [] } rest
      match rest with
      | ')' :: rest =>
        let item := match number with
          | some number => Expression.capture number body
          | none => body
        some (some item, { state with groups := after.groups }, rest)
      | _ => none
    let number := state.groups.count + 1
    let named := fun rest => do
      let (name, rest) ← readName? rest
      if state.groups.names.any (·.1 = name) then none
      inner state.flags (some number)
        { count := number, names := (name, number) :: state.groups.names } rest
    match cs with
    | '?' :: 'P' :: '<' :: rest => named rest
    | '?' :: '<' :: '=' :: _ | '?' :: '<' :: '!' :: _ => none
    | '?' :: '<' :: rest => named rest
    | '?' :: rest => do
      let (flags, opens, rest) ← readFlags [] true state.flags rest
      if opens then inner flags none state.groups rest
      else some (none, { state with flags }, rest)
    | rest => inner state.flags (some number) { state.groups with count := number } rest
end

/-- a regular expression with its groups -/
structure Regex where
  /-- the expression -/
  expression : Expression
  /-- the groups -/
  groups : Groups

/-- how many groups may stand inside each other -/
def maxNesting : Nat := 250

/-- the regular expression that a text writes -/
def read? (cs : List Char) : Option Regex := do
  let fuel := 3 * cs.length + 3
  let (expression, state, rest) ←
    readAlternatives fuel maxNesting { flags := {}, groups := {}, items := [] } cs
  if rest.isEmpty && expression.states ≤ Expression.maxStates then
    some ⟨expression, state.groups⟩
  else none

end TableRecipe.Pattern
