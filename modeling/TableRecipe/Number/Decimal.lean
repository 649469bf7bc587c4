import TableRecipe.Number.Binary64

/-!
# Decimal notation

Texts that denote floating-point numbers: an optional sign, then digits with an optional point
and an optional exponent, or one of the words `inf`, `infinity` and `nan` in any case. Every text
is read to the nearest number.

* `Decimal.read?` — the number a text denotes.
-/

namespace TableRecipe.Decimal

/-- the value of a decimal digit -/
def digit (c : Char) : Nat := c.toNat - '0'.toNat

/-- an ASCII digit -/
def isDigit (c : Char) : Bool := '0' ≤ c && c ≤ '9'

/-- the number written by decimal digits -/
def natural (digits : List Char) : Nat := digits.foldl (fun n c => n * 10 + digit c) 0

/-- the longest run of digits at the front, and what follows it -/
def spanDigits (cs : List Char) : List Char × List Char :=
  (cs.takeWhile isDigit, cs.dropWhile isDigit)

/-- an exponent: an optional sign and at least one digit, up to the end -/
def exponent? (cs : List Char) : Option Int :=
  let (negative, body) := match cs with
    | '-' :: rest => (true, rest)
    | '+' :: rest => (false, rest)
    | _ => (false, cs)
  if body.isEmpty || !body.all isDigit then none
  else
    let magnitude : Int := natural body
    some (if negative then -magnitude else magnitude)

/-- digits with an optional point and exponent, up to the end -/
def unsigned? (negative : Bool) (cs : List Char) : Option Binary64 :=
  let (whole, rest) := spanDigits cs
  let (fraction, rest) := match rest with
    | '.' :: more => spanDigits more
    | _ => ([], rest)
  if whole.isEmpty && fraction.isEmpty then none
  else
    let digits := natural (whole ++ fraction)
    let places : Int := fraction.length
    match rest with
    | [] => some (.ofScientific negative digits (-places))
    | e :: more =>
      if e = 'e' || e = 'E' then
        (exponent? more).map fun exponent => .ofScientific negative digits (exponent - places)
      else none

/-- the number that a text denotes, if it denotes one -/
def read? (cs : List Char) : Option Binary64 :=
  let (negative, body) := match cs with
    | '-' :: rest => (true, rest)
    | '+' :: rest => (false, rest)
    | _ => (false, cs)
  let word := String.ofList (body.map Char.toLower)
  if word = "inf" || word = "infinity" then some (.infinite negative)
  else if word = "nan" then some .undefined
  else unsigned? negative body

/-- an integer in decimal notation with an optional sign, if it lies between `least` and
`greatest` -/
def integer? (least greatest : Int) (cs : List Char) : Option Int :=
  let (negative, body) := match cs with
    | '-' :: rest => (true, rest)
    | '+' :: rest => (false, rest)
    | _ => (false, cs)
  if body.isEmpty || !body.all isDigit then none
  else
    let magnitude : Int := natural body
    let value := if negative then -magnitude else magnitude
    if least ≤ value && value ≤ greatest then some value else none

/-- a natural number of so many bits in decimal notation, possibly after a plus sign; a minus sign
is refused even before zero -/
def whole? (bits : Nat) (cs : List Char) : Option Nat :=
  if cs.head? = some '-' then none
  else (integer? 0 (Nat.pow 2 bits - 1) cs).map Int.toNat

end TableRecipe.Decimal
