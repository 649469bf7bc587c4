/-!
# Binary floating-point numbers

Numbers of 64 bits with a 53-bit mantissa, kept exactly: a finite one is a sign and a count of
units of `2 ^ -1074`, the smallest positive number there is. Every operation takes the exact
result and rounds it once, to the nearest number, a tie going to the even mantissa.

* `Binary64` — finite numbers, the two infinities and the undefined one;
* `Binary64.ofRatio` — the number nearest to a quotient;
* `Binary64.ofScientific` — the number nearest to `digits * 10 ^ exponent`;
* `Binary64.compare?` — the order, undefined as soon as one side is;
* `Binary64.truncate` — the integer part, clamped to 64 bits.
-/

namespace TableRecipe

/-- a floating-point number of 64 bits -/
inductive Binary64 where
  /-- the number `± units * 2 ^ -1074` -/
  | finite (negative : Bool) (units : Nat)
  /-- an infinity -/
  | infinite (negative : Bool)
  /-- the undefined number -/
  | undefined
  deriving DecidableEq, Repr, Inhabited

/-- `num / den` rounded to the nearest natural number, a tie going to the even one -/
def roundQuotient (num den : Nat) : Nat :=
  let quotient := num / den
  let twice := 2 * (num % den)
  if twice < den then quotient
  else if den < twice then quotient + 1
  else if quotient % 2 = 0 then quotient else quotient + 1

namespace Binary64

/-- units in one -/
def one : Nat := Nat.pow 2 1074

/-- the first count of units too large for a finite number -/
def bound : Nat := Nat.pow 2 2098

/-- how many trailing bits of `units` the mantissa of 53 bits drops -/
def exponent (units : Nat) : Nat := Nat.log2 units - 52

/-- a count of units that has a mantissa of 53 bits -/
def Representable (units : Nat) : Prop := units < bound ∧ units % Nat.pow 2 (exponent units) = 0

/-- the number nearest to `± num / den` -/
def ofRatio (negative : Bool) (num den : Nat) : Binary64 :=
  let scaled := num <<< 1074
  let shift := exponent (scaled / den)
  let units := roundQuotient scaled (den <<< shift) <<< shift
  if units < bound then .finite negative units else .infinite negative

/-- the number nearest to an integer -/
def ofInt (n : Int) : Binary64 := ofRatio (n < 0) n.natAbs 1

/-- the number nearest to `± digits * 10 ^ exponent`; exponents beyond every finite number are cut
short -/
def ofScientific (negative : Bool) (digits : Nat) (exponent : Int) : Binary64 :=
  if digits = 0 then .finite negative 0
  else if 1100 < exponent then .infinite negative
  else if 0 ≤ exponent then ofRatio negative (digits * Nat.pow 10 exponent.toNat) 1
  else if exponent + (Nat.log2 digits : Int) / 3 < -400 then .finite negative 0
  else ofRatio negative digits (Nat.pow 10 (-exponent).toNat)

/-- whether the number is finite -/
def isFinite : Binary64 → Bool
  | .finite _ _ => true
  | _ => false

/-- the number with the other sign -/
def negate : Binary64 → Binary64
  | .finite negative units => .finite (!negative) units
  | .infinite negative => .infinite (!negative)
  | .undefined => .undefined

/-- a finite number as a signed count of units; both zeros are zero -/
def signed (negative : Bool) (units : Nat) : Int := if negative then -(units : Int) else units

/-- the order of two numbers, `none` if one of them is undefined -/
def compare? : Binary64 → Binary64 → Option Ordering
  | .undefined, _ | _, .undefined => none
  | .finite n a, .finite m b => some (compare (signed n a) (signed m b))
  | .infinite n, .infinite m => some (compare (if n then (0 : Nat) else 1) (if m then 0 else 1))
  | .infinite n, .finite _ _ => some (if n then .lt else .gt)
  | .finite _ _, .infinite m => some (if m then .gt else .lt)

/-- whether the number is zero, of either sign -/
def isZero : Binary64 → Bool
  | .finite _ units => units = 0
  | _ => false

/-- whether the number is finite and has no fraction -/
def isWhole : Binary64 → Bool
  | .finite _ units => units % one = 0
  | _ => false

/-- whether the number is finite and its magnitude less than a natural number -/
def isBelow (limit : Nat) : Binary64 → Bool
  | .finite _ units => units < limit * one
  | _ => false

/-- the greatest signed integer of 64 bits -/
def maxSigned : Int := Nat.pow 2 63 - 1

/-- the least signed integer of 64 bits -/
def minSigned : Int := -Nat.pow 2 63

/-- the integer part, clamped to the signed integers of 64 bits; zero if undefined -/
def truncate : Binary64 → Int
  | .finite negative units =>
    let whole : Int := signed negative (units / one)
    if whole < minSigned then minSigned else if maxSigned < whole then maxSigned else whole
  | .infinite negative => if negative then minSigned else maxSigned
  | .undefined => 0

/-- the product of two finite numbers, rounded once -/
def times : Binary64 → Binary64 → Binary64
  | .finite n a, .finite m b => ofRatio (n != m) (a * b) (one * one)
  | _, _ => .undefined

/-- the quotient of two finite numbers, rounded once; the divisor is not zero -/
def dividedBy : Binary64 → Binary64 → Binary64
  | .finite n a, .finite m b => ofRatio (n != m) a b
  | _, _ => .undefined

/-- a finite number rounded to the nearest integer, a half going away from zero -/
def roundHalfAway : Binary64 → Binary64
  | .finite negative units => ofRatio negative ((2 * units + one) / (2 * one)) 1
  | other => other

end Binary64

end TableRecipe
