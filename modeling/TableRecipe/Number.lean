import TableRecipe.Number.Shortest
import TableRecipe.Number.Decimal

/-!
# Numbers of cells and parameters

An integer stays exact as long as it fits into 64 bits, signed or unsigned; every other number is
a floating-point number. `1` and `1.0` are different numbers.

* `Number` — the two kinds;
* `Number.text` — the text of a number;
* `Number.toBinary64` — the value used in comparisons.
-/

namespace TableRecipe

/-- a number -/
inductive Number where
  /-- an integer between `-2 ^ 63` and `2 ^ 64 - 1` -/
  | integer (value : Int)
  /-- a finite floating-point number -/
  | decimal (value : Binary64)
  deriving DecidableEq, Repr, Inhabited

namespace Number

/-- the greatest unsigned integer of 64 bits -/
def maxUnsigned : Int := Nat.pow 2 64 - 1

/-- the texts of integers -/
def integerText (n : Int) : List Char :=
  if n < 0 then '-' :: Nat.toDigits 10 n.natAbs else Nat.toDigits 10 n.natAbs

/-- the text of a number in a format -/
def textIn (format : DecimalFormat) : Number → List Char
  | integer n => integerText n
  | decimal x => x.text format

/-- the text of a number -/
def text (number : Number) : List Char := number.textIn .json

/-- the number as a floating-point number, rounded if it has too many bits -/
def toBinary64 : Number → Binary64
  | integer n => .ofInt n
  | decimal x => x

/-- the number as a signed integer of 64 bits, if it is one -/
def signed? : Number → Option Int
  | integer n => if Binary64.minSigned ≤ n && n ≤ Binary64.maxSigned then some n else none
  | decimal _ => none

/-- the number as an unsigned integer, if it is one -/
def natural? : Number → Option Nat
  | integer n => if 0 ≤ n then some n.toNat else none
  | decimal _ => none

/-- a floating-point number as a number, if it is finite -/
def ofBinary64? : Binary64 → Option Number
  | .finite negative units => some (.decimal (.finite negative units))
  | _ => none

end Number

end TableRecipe
