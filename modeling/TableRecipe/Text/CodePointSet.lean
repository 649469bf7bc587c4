/-!
# Sets of code points

A set of characters given by its ranges of code points, written as text the way the Unicode
character database lists them: hexadecimal numbers, one (`aa`) or two (`41-5a`) to a range,
separated by blanks.

* `CodePointSet` — ascending ranges, both ends included;
* `CodePointSet.ofText` — reads the written form;
* `CodePointSet.contains` — membership.
-/

namespace TableRecipe

/-- ranges of code points, both ends included -/
structure CodePointSet where
  /-- the ranges, ascending and apart -/
  ranges : Array (Nat × Nat)
  deriving Inhabited

namespace CodePointSet

/-- the value of a hexadecimal digit, `none` for any other character -/
def hexDigit? (c : Char) : Option Nat :=
  if '0' ≤ c ∧ c ≤ '9' then some (c.toNat - '0'.toNat)
  else if 'a' ≤ c ∧ c ≤ 'f' then some (c.toNat - 'a'.toNat + 10)
  else if 'A' ≤ c ∧ c ≤ 'F' then some (c.toNat - 'A'.toNat + 10)
  else none

/-- reads ranges: `low` holds the lower end once a `-` was passed, `number` the digits so far -/
def readRanges : List Char → Option Nat → Option Nat → Array (Nat × Nat) → Array (Nat × Nat)
  | [], low, number, found => close low number found
  | c :: rest, low, number, found =>
    match hexDigit? c with
    | some digit => readRanges rest low (some (number.getD 0 * 16 + digit)) found
    | none =>
      if c = '-' then readRanges rest number none found
      else readRanges rest none none (close low number found)
where
  /-- adds the range that ends here, if there is one -/
  close (low number : Option Nat) (found : Array (Nat × Nat)) : Array (Nat × Nat) :=
    match number with
    | none => found
    | some high => found.push (low.getD high, high)

/-- the set written as `text` -/
def ofText (text : String) : CodePointSet := ⟨readRanges text.toList none none #[]⟩

/-- looks for the range that holds `code` among those at `low ≤ i < high`, halving `fuel` times -/
def search (ranges : Array (Nat × Nat)) (code : Nat) : (fuel low high : Nat) → Bool
  | 0, _, _ => false
  | fuel + 1, low, high =>
    if low < high then
      let middle := (low + high) / 2
      match ranges[middle]? with
      | none => false
      | some (first, last) =>
        if code < first then search ranges code fuel low middle
        else if last < code then search ranges code fuel (middle + 1) high
        else true
    else false

/-- whether the set holds the code point -/
def contains (set : CodePointSet) (code : Nat) : Bool :=
  search set.ranges code (set.ranges.size + 1) 0 set.ranges.size

end CodePointSet

end TableRecipe
