import TableRecipe.Text.LetterCase

/-!
# Patterns

The structure of a regular expression: sets of characters, assertions about a position, groups,
sequences, alternatives in order of preference, repetitions.

* `CharSet` — a set of characters, with `CharSet.contains`;
* `Assertion` — a condition on the characters around a position, with `Assertion.holds`;
* `Expression` — a regular expression.
-/

namespace TableRecipe.Pattern

/-- a set of characters -/
inductive CharSet where
  /-- the characters from one code point to another -/
  | range (first last : Nat)
  /-- the characters that pass a test -/
  | test (passes : Char → Bool)
  /-- no character -/
  | empty
  /-- the characters of either set -/
  | either (a b : CharSet)
  /-- the characters of both sets -/
  | both (a b : CharSet)
  /-- the characters outside a set -/
  | complement (a : CharSet)
  /-- the characters equal to one of the set up to case -/
  | anyCase (a : CharSet)

namespace CharSet

/-- whether the set holds the character -/
def contains : CharSet → Char → Bool
  | range first last, c => first ≤ c.toNat && c.toNat ≤ last
  | test passes, c => passes c
  | empty, _ => false
  | either a b, c => a.contains c || b.contains c
  | both a b, c => a.contains c && b.contains c
  | complement a, c => !a.contains c
  | anyCase a, c => (LetterCase.variants c).any a.contains

/-- the set of one character -/
def single (c : Char) : CharSet := range c.toNat c.toNat

/-- the characters of a list -/
def ofChars (cs : List Char) : CharSet := cs.foldr (fun c set => either (single c) set) empty

end CharSet

/-- a condition on the characters around a position -/
inductive Assertion where
  /-- the start of the text -/
  | textStart
  /-- the end of the text -/
  | textEnd
  /-- the start of a line; lines also end at carriage returns if the flag is set -/
  | lineStart (returns : Bool)
  /-- the end of a line -/
  | lineEnd (returns : Bool)
  /-- a word starts or ends here; the flag restricts words to ASCII -/
  | boundary (ascii : Bool)
  /-- no word starts or ends here -/
  | noBoundary (ascii : Bool)
  /-- a word starts here -/
  | wordStart (ascii : Bool)
  /-- a word ends here -/
  | wordEnd (ascii : Bool)
  /-- no word character stands before -/
  | noWordBefore (ascii : Bool)
  /-- no word character stands after -/
  | noWordAfter (ascii : Bool)
  deriving DecidableEq, Repr

namespace Assertion

/-- whether the neighbour of a position is a word character -/
def isWordAt (ascii : Bool) : Option Char → Bool
  | none => false
  | some c =>
    if ascii then Letter.isAsciiLetter c || Letter.isAsciiDigit c || c = '_' else Letter.isWord c

/-- whether the condition holds between the characters `before` and `after` -/
def holds (before after : Option Char) : Assertion → Bool
  | textStart => before.isNone
  | textEnd => after.isNone
  | lineStart false => before.isNone || before = some '\n'
  | lineStart true =>
    before.isNone || before = some '\n' || (before = some '\r' && after ≠ some '\n')
  | lineEnd false => after.isNone || after = some '\n'
  | lineEnd true =>
    after.isNone || after = some '\r' || (after = some '\n' && before ≠ some '\r')
  | boundary ascii => isWordAt ascii before != isWordAt ascii after
  | noBoundary ascii => isWordAt ascii before == isWordAt ascii after
  | wordStart ascii => !isWordAt ascii before && isWordAt ascii after
  | wordEnd ascii => isWordAt ascii before && !isWordAt ascii after
  | noWordBefore ascii => !isWordAt ascii before
  | noWordAfter ascii => !isWordAt ascii after

end Assertion

/-- a regular expression -/
inductive Expression where
  /-- the empty text -/
  | empty
  /-- one character of a set -/
  | set (chars : CharSet)
  /-- a condition on the position -/
  | check (assertion : Assertion)
  /-- a group whose text is remembered under a number -/
  | capture (number : Nat) (inner : Expression)
  /-- one expression after the other -/
  | andThen (first second : Expression)
  /-- one expression or, if that does not lead to a match, the other -/
  | orElse (first second : Expression)
  /-- repetitions, as many or as few as possible -/
  | times (least : Nat) (most : Option Nat) (greedy : Bool) (inner : Expression)

namespace Expression

/-- whether the expression can match the empty text -/
def nullable : Expression → Bool
  | empty | check _ => true
  | set _ => false
  | capture _ inner => inner.nullable
  | andThen first second => first.nullable && second.nullable
  | orElse first second => first.nullable || second.nullable
  | times least _ _ inner => least = 0 || inner.nullable

/-- about how many states a matcher for the expression takes -/
def states : Expression → Nat
  | empty | check _ => 1
  | set (.range _ _) => 1
  | set _ => 12
  | capture _ inner => inner.states + 2
  | andThen first second => first.states + second.states
  | orElse first second => first.states + second.states + 1
  | times least most _ inner => (max least (most.getD 1) + 1) * (inner.states + 1)

/-- the most states that an expression may take -/
def maxStates : Nat := 400000

end Expression

end TableRecipe.Pattern
