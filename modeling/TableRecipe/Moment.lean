import TableRecipe.Number.Decimal
import TableRecipe.Text.Split

/-!
# Points in time

A day of the proleptic Gregorian calendar and a time of day, to the second.

* `Moment` — a point in time, with `Moment.text`, its text;
* `Moment.daysIn` — the length of a month;
* `Moment.plusDays` — a shift by one day in either direction;
* `Moment.read?` — the point in time that a text writes in one of the accepted notations.
-/

namespace TableRecipe

/-- a point in time -/
structure Moment where
  /-- the year, zero and negative before the first -/
  year : Int
  /-- the month, from 1 -/
  month : Nat
  /-- the day of the month, from 1 -/
  day : Nat
  /-- the hour, below 24 -/
  hour : Nat := 0
  /-- the minute, below 60 -/
  minute : Nat := 0
  /-- the second, at most 60 for an inserted one -/
  second : Nat := 0
  deriving DecidableEq, Repr, Inhabited

namespace Moment

/-! ## The calendar -/

/-- whether a year has 366 days -/
def isLeap (year : Int) : Bool := year % 4 = 0 && (year % 100 ≠ 0 || year % 400 = 0)

/-- the number of days of a month -/
def daysIn (year : Int) (month : Nat) : Nat :=
  if month = 2 then if isLeap year then 29 else 28
  else if month = 4 || month = 6 || month = 9 || month = 11 then 30
  else 31

/-- the least year -/
def firstYear : Int := -262143

/-- the greatest year -/
def lastYear : Int := 262142

/-- whether the day is one of the calendar and the time one of the day -/
def isValid (m : Moment) : Bool :=
  firstYear ≤ m.year && m.year ≤ lastYear && 1 ≤ m.month && m.month ≤ 12
    && 1 ≤ m.day && m.day ≤ daysIn m.year m.month
    && m.hour < 24 && m.minute < 60 && m.second ≤ 60

/-- the same time on the next day -/
def nextDay (m : Moment) : Moment :=
  if m.day < daysIn m.year m.month then { m with day := m.day + 1 }
  else if m.month < 12 then { m with month := m.month + 1, day := 1 }
  else { m with year := m.year + 1, month := 1, day := 1 }

/-- the same time on the day before -/
def previousDay (m : Moment) : Moment :=
  if 1 < m.day then { m with day := m.day - 1 }
  else if 1 < m.month then { m with month := m.month - 1, day := daysIn m.year (m.month - 1) }
  else { m with year := m.year - 1, month := 12, day := 31 }

/-- the moment in universal time, given by how many minutes the local time is ahead of it; less
than a day -/
def universal (m : Moment) (ahead : Int) : Moment :=
  let minutes := (m.hour * 60 + m.minute : Int) - ahead
  let ofDay := (minutes % 1440).toNat
  let m := if minutes < 0 then previousDay m else if 1440 ≤ minutes then nextDay m else m
  { m with hour := ofDay / 60, minute := ofDay % 60 }

/-! ## Writing -/

/-- the digits of a number, with zeros in front up to a width -/
def padded (width n : Nat) : List Char :=
  let digits := Nat.toDigits 10 n
  List.replicate (width - digits.length) '0' ++ digits

/-- a year in four digits; outside of 0 to 9999 with its sign -/
def yearText (year : Int) : List Char :=
  if year < 0 then '-' :: padded 4 year.natAbs
  else if 9999 < year then '+' :: padded 4 year.natAbs
  else padded 4 year.natAbs

/-- the text `year-month-dayThour:minute:second` -/
def text (m : Moment) : String :=
  String.ofList (yearText m.year ++ '-' :: padded 2 m.month ++ '-' :: padded 2 m.day
    ++ 'T' :: padded 2 m.hour ++ ':' :: padded 2 m.minute ++ ':' :: padded 2 m.second)

/-! ## Reading -/

/-- takes a value off the front of a text, or refuses it -/
abbrev Reader := StateT (List Char) Option

/-- a certain character -/
def mark (c : Char) : Reader Unit := fun cs =>
  match cs with
  | first :: rest => if first = c then some ((), rest) else none
  | [] => none

/-- one of several characters -/
def oneOf (choices : List Char) : Reader Char := fun cs =>
  match cs with
  | first :: rest => if choices.contains first then some (first, rest) else none
  | [] => none

/-- a number of at most `most` digits and at least one -/
def upTo (most : Nat) : Reader Nat := fun cs =>
  let digits := (cs.take most).takeWhile Decimal.isDigit
  if digits.isEmpty then none else some (Decimal.natural digits, cs.drop digits.length)

/-- a number of exactly so many digits -/
def exactly (count : Nat) : Reader Nat := fun cs =>
  let digits := (cs.take count).takeWhile Decimal.isDigit
  if digits.length = count then some (Decimal.natural digits, cs.drop count) else none

/-- drops blanks -/
def blanks : Reader Unit := fun cs => some ((), Split.trimStart cs)

/-- a number of one or two digits, possibly after blanks -/
def pair : Reader Nat := do
  blanks
  upTo 2

/-- a year, possibly after blanks: up to four digits, or a sign and any number of digits -/
def signedYear : Reader Int := do
  blanks
  match ← get with
  | '-' :: rest =>
    set rest
    return -((← upTo rest.length : Nat) : Int)
  | '+' :: rest =>
    set rest
    return ((← upTo rest.length : Nat) : Int)
  | _ => return ((← upTo 4 : Nat) : Int)

/-- a fraction of a second, if there is one -/
def fraction : Reader Unit := do
  match ← get with
  | '.' :: rest =>
    set rest
    discard <| upTo rest.length
  | _ => return

/-- minutes ahead of universal time: `Z`, or a sign, hours and minutes -/
def offset : Reader Int := do
  match ← oneOf ['Z', 'z', '+', '-', '−'] with
  | 'Z' | 'z' => return 0
  | sign =>
    let hours ← exactly 2
    mark ':'
    let minutes ← exactly 2
    guard (hours < 24 && minutes < 60)
    let ahead : Int := (hours * 60 + minutes : Nat)
    return if sign = '+' then ahead else -ahead

/-- a time with its offset, in the strict notation that exchanged data use -/
def exchanged : Reader Moment := do
  let year ← exactly 4
  mark '-'
  let month ← exactly 2
  mark '-'
  let day ← exactly 2
  discard <| oneOf ['T', 't', ' ']
  let hour ← exactly 2
  mark ':'
  let minute ← exactly 2
  mark ':'
  let second ← exactly 2
  fraction
  let ahead ← offset
  let moment : Moment := { year, month, day, hour, minute, second }
  guard moment.isValid
  return moment.universal ahead

/-- a day, as `year-month-day` -/
def hyphenated : Reader Moment := do
  let year ← signedYear
  mark '-'
  let month ← pair
  mark '-'
  let day ← pair
  return { year, month, day }

/-- a day, as `month/day/year` -/
def slashed : Reader Moment := do
  let month ← pair
  mark '/'
  let day ← pair
  mark '/'
  let year ← signedYear
  return { year, month, day }

/-- a day, as `day.month.year` -/
def dotted : Reader Moment := do
  let day ← pair
  mark '.'
  let month ← pair
  mark '.'
  let year ← signedYear
  return { year, month, day }

/-- a day and a time of day with a separator between them -/
def timed (separator : Reader Unit) : Reader Moment := do
  let day ← hyphenated
  separator
  let hour ← pair
  mark ':'
  let minute ← pair
  mark ':'
  let second ← pair
  return { day with hour, minute, second }

/-- the accepted notations, the first that fits being taken -/
def notations : List (Reader Moment) :=
  [exchanged, timed (mark 'T'), timed blanks, (do let m ← timed (mark 'T'); fraction; return m),
    hyphenated, slashed, dotted]

/-- the moment that a whole text writes in one notation -/
def readIn? (reader : Reader Moment) (cs : List Char) : Option Moment :=
  match reader cs with
  | some (moment, []) => if moment.isValid then some moment else none
  | _ => none

/-- the moment that a text writes -/
def read? (cs : List Char) : Option Moment := notations.findSome? (readIn? · cs)

end Moment

end TableRecipe
