import TableRecipe.Number.Binary64

/-!
# Shortest decimal digits

The text of a floating-point number shows as few digits as read back to that number and, among
those, the ones nearest to it.

* `Shortest.digits` — the digits and the place of the point;
* `DecimalFormat` — where positional notation ends and how an exponent is written;
* `Binary64.text` — the text of a number in a format.
-/

namespace TableRecipe

namespace Shortest

/-- decimal digits with a decimal point: the number `0.d₁d₂… * 10 ^ point` -/
structure Digits where
  /-- the digits, most significant first -/
  digits : List Char
  /-- the power of ten that the fraction `0.d₁d₂…` is multiplied by -/
  point : Int
  deriving Repr, DecidableEq

/-- the numbers that read back to `units`, in quarters of the last mantissa bit: from `low` to
`high`, the ends belonging to them when `closed`, each quarter being `2 ^ shift / 4` units -/
structure Interval where
  /-- the lower end -/
  low : Nat
  /-- the number itself -/
  middle : Nat
  /-- the upper end -/
  high : Nat
  /-- whether the ends read back to the number -/
  closed : Bool
  /-- the exponent of the last mantissa bit -/
  shift : Nat

/-- the interval around a positive count of units -/
def interval (units : Nat) : Interval :=
  let shift := Binary64.exponent units
  let mantissa := units >>> shift
  { low := if mantissa = Nat.pow 2 52 ∧ 0 < shift then 4 * mantissa - 1 else 4 * mantissa - 2
    middle := 4 * mantissa
    high := 4 * mantissa + 2
    closed := mantissa % 2 = 0
    shift }

/-- `10 ^ place` as a quotient -/
def power (place : Int) : Nat × Nat :=
  if 0 ≤ place then (Nat.pow 10 place.toNat, 1) else (1, Nat.pow 10 (-place).toNat)

/-- whether `10 ^ place` is at most `units` -/
def powerAtMost (place : Int) (units : Nat) : Bool :=
  let (num, den) := power place
  num * Binary64.one ≤ units * den

/-- the least power of ten above a positive count of units -/
def pointOf (units : Nat) : Int :=
  let estimate := ((Nat.log2 units : Int) - 1074) * 30103 / 100000
  if !powerAtMost (estimate - 1) units then estimate - 1
  else if !powerAtMost estimate units then estimate
  else if !powerAtMost (estimate + 1) units then estimate + 1
  else if !powerAtMost (estimate + 2) units then estimate + 2
  else estimate + 3

/-- the multiple of `10 ^ place` with the fewest digits in the interval and nearest to its middle:
the two neighbours of the middle on that grid are tried, a tie going to the even one -/
def onGrid (range : Interval) (place : Int) : Option Nat :=
  let (num, den) := power place
  -- a grid point `d` stands at `d * num / den`, a quarter `q` at `q * 2 ^ shift / (4 * one)`
  let step := num * 4 * Binary64.one
  let scale := fun quarter => (quarter <<< range.shift) * den
  let inside := fun (d : Nat) =>
    if range.closed then scale range.low ≤ d * step && d * step ≤ scale range.high
    else scale range.low < d * step && d * step < scale range.high
  let below := scale range.middle / step
  let above := below + 1
  match inside below, inside above with
  | true, true =>
    let toBelow := scale range.middle - below * step
    let toAbove := above * step - scale range.middle
    if toBelow < toAbove then some below
    else if toAbove < toBelow then some above
    else some (if below % 2 = 0 then below else above)
  | true, false => some below
  | false, true => some above
  | false, false => none

/-- tries grids of `count`, `count + 1`, … digits; `fuel` bounds the number of grids -/
def search (range : Interval) (point : Int) : (fuel count : Nat) → Option (Nat × Int)
  | 0, _ => none
  | fuel + 1, count =>
    match onGrid range (point - count) with
    | some d => if d = 0 then search range point fuel (count + 1) else some (d, point - count)
    | none => search range point fuel (count + 1)

/-- drops the zeros at the end -/
def dropTrailingZeros (digits : List Char) : List Char :=
  (digits.reverse.dropWhile (· = '0')).reverse

/-- the shortest digits that read back to a positive count of units -/
def digits (units : Nat) : Digits :=
  match search (interval units) (pointOf units) 18 1 with
  | some (d, place) =>
    let all := Nat.toDigits 10 d
    ⟨dropTrailingZeros all, place + all.length⟩
  | none => ⟨['0'], 1⟩

end Shortest

/-- how the digits of a number are laid out -/
structure DecimalFormat where
  /-- the least exponent that is written out positionally -/
  leastPositional : Int
  /-- the first exponent that is written with an `e` -/
  firstScientific : Int
  /-- whether a positive exponent has a sign -/
  plusSign : Bool
  /-- whether a whole number ends in `.0` -/
  pointZero : Bool

namespace DecimalFormat

/-- positional notation from `0.00001` on and below `10 ^ 16`, always with a point; exponents with
a sign, as in `1e-6` and `1.5e+16` -/
def json : DecimalFormat := ⟨-5, 16, true, true⟩

/-- the numbers of keys: as in `json`, but positive exponents without a sign -/
def key : DecimalFormat := ⟨-5, 16, false, true⟩

/-- the numbers of a clause: positional from `0.0001` on -/
def clause : DecimalFormat := ⟨-4, 16, false, true⟩

/-- always positional, and whole numbers without a point -/
def plain : DecimalFormat := ⟨-400, 400, false, false⟩

/-- `n` zeros -/
def zeros (n : Nat) : List Char := List.replicate n '0'

/-- digits written positionally -/
def positional (format : DecimalFormat) (digits : List Char) (point : Int) : List Char :=
  if point ≤ 0 then ['0', '.'] ++ zeros (-point).toNat ++ digits
  else
    let whole := digits.take point.toNat
    let fraction := digits.drop point.toNat
    let padded := whole ++ zeros (point.toNat - whole.length)
    if fraction.isEmpty then padded ++ (if format.pointZero then ['.', '0'] else [])
    else padded ++ '.' :: fraction

/-- digits written with an exponent -/
def scientific (format : DecimalFormat) (digits : List Char) (exponent : Int) : List Char :=
  let head := match digits with
    | [] => []
    | [d] => [d]
    | d :: rest => d :: '.' :: rest
  let sign := if exponent < 0 then ['-'] else if format.plusSign then ['+'] else []
  head ++ 'e' :: sign ++ Nat.toDigits 10 exponent.natAbs

/-- a positive count of units in this format -/
def units (format : DecimalFormat) (units : Nat) : List Char :=
  let found := Shortest.digits units
  let exponent := found.point - 1
  if format.leastPositional ≤ exponent ∧ exponent < format.firstScientific then
    format.positional found.digits found.point
  else format.scientific found.digits exponent

end DecimalFormat

namespace Binary64

/-- the text of a number in a format -/
def text (format : DecimalFormat) : Binary64 → List Char
  | .finite negative units =>
    (if negative then ['-'] else []) ++
      (if units = 0 then (if format.pointZero then ['0', '.', '0'] else ['0'])
       else format.units units)
  | .infinite negative => if negative then ['-', 'i', 'n', 'f'] else ['i', 'n', 'f']
  | .undefined => ['N', 'a', 'N']

end Binary64

end TableRecipe
