import Settlement.Power
import Settlement.Text.Blank

/-!
# Points in time

A point in time counts the seconds since the first of January 1970 in universal time, and the
nanoseconds after them; a leap second is the one before it with more than a second of nanoseconds.

`Timestamp.ofText?` reads a date, a mark between, a time of day with at most nine places that count,
and a distance from universal time. Blanks may stand before a number and around the marks of the
date and of the time of day. `Timestamp.text` writes the same in universal time with 0, 3, 6 or 9
places.
-/

namespace Settlement

/-- Why a text is no point in time. -/
inductive TimeFault where
  | outOfRange
  | impossible
  | tooShort
  | invalid
  | trailing
  deriving DecidableEq

namespace TimeFault

def message : TimeFault → String
  | outOfRange => "input is out of range"
  | impossible => "no possible date and time matching input"
  | tooShort => "premature end of input"
  | invalid => "input contains invalid characters"
  | trailing => "trailing input"

end TimeFault

/-- A point in time: seconds since 1970 in universal time, and nanoseconds. -/
structure Timestamp where
  seconds : Int
  nanos : Nat
  deriving DecidableEq, Inhabited

namespace Timestamp

/-- A date of the Gregorian calendar. -/
structure Date where
  year : Int
  month : Nat
  day : Nat
  deriving DecidableEq

namespace Date

def minYear : Int := -262143

def maxYear : Int := 262142

def isLeapYear (year : Int) : Bool := year % 4 == 0 && (year % 100 != 0 || year % 400 == 0)

def daysInMonth (year : Int) (month : Nat) : Nat :=
  if month = 2 then (if isLeapYear year then 29 else 28)
  else if month = 4 ∨ month = 6 ∨ month = 9 ∨ month = 11 then 30 else 31

/-- Days since 1970 of the first of March of a year, which leap days come before. -/
def daysToMarch (year : Int) : Int :=
  year * 365 + year.fdiv 4 - year.fdiv 100 + year.fdiv 400 - 719468

/-- Days from the first of March to the first of a month, counted from March as 0. -/
def daysBeforeMonth (month : Nat) : Nat := (153 * month + 2) / 5

/-- Days since the first of January 1970. -/
def toDays (d : Date) : Int :=
  let year := if d.month ≤ 2 then d.year - 1 else d.year
  daysToMarch year + daysBeforeMonth ((d.month + 9) % 12) + (d.day - 1 : Nat)

/-- The date so many days after the first of January 1970. -/
def ofDays (days : Int) : Date :=
  let shifted := days + 719468
  let era := shifted.fdiv 146097
  let dayOfEra := (shifted - era * 146097).toNat
  let yearOfEra := (dayOfEra - dayOfEra / 1460 + dayOfEra / 36524 - dayOfEra / 146096) / 365
  let dayOfYear := dayOfEra - (365 * yearOfEra + yearOfEra / 4 - yearOfEra / 100)
  let month := (5 * dayOfYear + 2) / 153
  let day := dayOfYear - daysBeforeMonth month + 1
  let year : Int := era * 400 + yearOfEra
  if month < 10 then ⟨year, month + 3, day⟩ else ⟨year + 1, month - 9, day⟩

/-- The date, where the calendar has it. -/
def isValid (d : Date) : Bool :=
  minYear ≤ d.year && d.year ≤ maxYear && 1 ≤ d.day && d.day ≤ daysInMonth d.year d.month

end Date

/-- Digits at the start, at most `most` of them, as a number behind the digits of `n`. -/
def digitsFrom : Nat → Nat → List Char → Except TimeFault (Nat × List Char)
  | 0, n, cs => .ok (n, cs)
  | _ + 1, n, [] => .ok (n, [])
  | most + 1, n, c :: cs =>
    if c.isDigit then
      let next := n * 10 + (c.toNat - '0'.toNat)
      if next < twoPow 63 then digitsFrom most next cs else .error .outOfRange
    else .ok (n, c :: cs)

/-- At least one and at most `most` digits. -/
def digits (most : Nat) (cs : List Char) : Except TimeFault (Nat × List Char) :=
  match cs with
  | [] => .error .tooShort
  | c :: _ => if c.isDigit then digitsFrom most 0 cs else .error .invalid

/-- A number behind blanks, between `low` and `high`. -/
def numberIn (low high : Nat) (cs : List Char) : Except TimeFault (Nat × List Char) := do
  let (n, rest) ← digits 2 (Text.trimStart cs)
  if low ≤ n ∧ n ≤ high then return (n, rest) else throw .outOfRange

/-- The year: four digits at most without a sign, any count of them with one. -/
def year (cs : List Char) : Except TimeFault (Int × List Char) := do
  let (n, rest) ← match Text.trimStart cs with
    | '-' :: rest => do let (n, rest) ← digits rest.length rest; pure (-(n : Int), rest)
    | '+' :: rest => do let (n, rest) ← digits rest.length rest; pure ((n : Int), rest)
    | rest => do let (n, rest) ← digits 4 rest; pure ((n : Int), rest)
  if -(twoPow 31 : Int) ≤ n ∧ n < twoPow 31 then return (n, rest) else throw .outOfRange

/-- A mark behind blanks. -/
def mark (c : Char) (cs : List Char) : Except TimeFault (List Char) :=
  match Text.trimStart cs with
  | [] => .error .tooShort
  | d :: rest => if d = c then .ok rest else .error .invalid

/-- The nanoseconds of a fraction; places after the ninth are passed over. -/
def fraction (cs : List Char) : Except TimeFault (Nat × List Char) :=
  match cs with
  | '.' :: rest => do
    let (n, after) ← digits 9 rest
    let places := rest.length - after.length
    return (n * tenPow (9 - places), after.dropWhile Char.isDigit)
  | rest => .ok (0, rest)

/-- The sign before a distance from universal time. -/
def offsetSign (cs : List Char) : Except TimeFault (Bool × List Char) :=
  match cs with
  | [] => .error .tooShort
  | '+' :: rest => .ok (false, rest)
  | '-' :: rest => .ok (true, rest)
  | '−' :: rest => .ok (true, rest)
  | _ => .error .invalid

/-- A text of fewer than two bytes. -/
def underTwoBytes : List Char → Bool
  | [] => true
  | [c] => c.utf8Size < 2
  | _ => false

/-- Two digits with the first one below six where `minutes` are read. -/
def twoDigits (minutes : Bool) (cs : List Char) : Except TimeFault (Nat × List Char) :=
  match cs with
  | a :: b :: rest =>
    if a.isDigit && b.isDigit then
      if minutes && '6' ≤ a then .error .outOfRange
      else .ok ((a.toNat - '0'.toNat) * 10 + (b.toNat - '0'.toNat), rest)
    else .error .invalid
  | short => if underTwoBytes short then .error .tooShort else .error .invalid

def startsWithWord (word cs : List Char) : Bool :=
  word.length ≤ cs.length && (cs.take word.length).map Char.toUpper == word

/-- The distance from universal time, in seconds. -/
def offset (cs : List Char) : Except TimeFault (Int × List Char) :=
  if startsWithWord ['U', 'T', 'C'] cs then .ok (0, cs.drop 3)
  else
    match cs with
    | 'Z' :: rest | 'z' :: rest => .ok (0, rest)
    | cs => do
      let (negative, rest) ← offsetSign cs
      let (hours, rest) ← twoDigits false rest
      let (minutes, rest) ← twoDigits true (rest.dropWhile fun c => c == ':' || Text.isBlank c)
      let seconds : Int := hours * 3600 + minutes * 60
      return (if negative then -seconds else seconds, rest)

/-- The mark between the date and the time of day. -/
def dateEnd (cs : List Char) : Except TimeFault (List Char) :=
  match cs with
  | [] => .error .tooShort
  | 't' :: rest | 'T' :: rest | ' ' :: rest => .ok rest
  | _ => .error .invalid

/-- The point in time that a text stands for. -/
def ofText? (s : String) : Except TimeFault Timestamp := do
  let (year, rest) ← year s.toList
  let (month, rest) ← numberIn 1 12 (← mark '-' rest)
  let (day, rest) ← numberIn 1 31 (← mark '-' rest)
  let (hour, rest) ← numberIn 0 23 (← dateEnd rest)
  let (minute, rest) ← numberIn 0 59 (← mark ':' rest)
  let (second, rest) ← numberIn 0 60 (← mark ':' rest)
  let (nanos, rest) ← fraction rest
  let (offset, rest) ← offset (Text.trimStart rest)
  if !(Text.trimStart rest).isEmpty then throw .trailing
  if offset.natAbs ≥ 86400 then throw .outOfRange
  let date : Date := ⟨year, month, day⟩
  if !date.isValid then throw .outOfRange
  let leap := second = 60
  let ofDay := hour * 3600 + minute * 60 + (if leap then 59 else second)
  let seconds := date.toDays * 86400 + ofDay - offset
  let utcYear := (Date.ofDays (seconds.fdiv 86400)).year
  if utcYear < Date.minYear ∨ Date.maxYear < utcYear then throw .impossible
  return ⟨seconds, nanos + (if leap then 1000000000 else 0)⟩

/-- Digits of a number, padded with zeros to a width. -/
def padded (width n : Nat) : String :=
  let digits := Nat.toDigits 10 n
  String.ofList (List.replicate (width - digits.length) '0' ++ digits)

/-- A year of four digits, or with a sign and at least four. -/
def yearText (year : Int) : String :=
  if 0 ≤ year ∧ year ≤ 9999 then padded 4 year.toNat
  else (if year < 0 then "-" else "+") ++ padded 4 year.natAbs

def fractionText (nanos : Nat) : String :=
  if nanos = 0 then ""
  else if nanos % 1000000 = 0 then "." ++ padded 3 (nanos / 1000000)
  else if nanos % 1000 = 0 then "." ++ padded 6 (nanos / 1000)
  else "." ++ padded 9 nanos

/-- The text of a point in time, in universal time. -/
def text (t : Timestamp) : String :=
  let date := Date.ofDays (t.seconds.fdiv 86400)
  let ofDay := (t.seconds - t.seconds.fdiv 86400 * 86400).toNat
  let leap := t.nanos ≥ 1000000000
  let second := ofDay % 60 + (if leap then 1 else 0)
  let nanos := if leap then t.nanos - 1000000000 else t.nanos
  s!"{yearText date.year}-{padded 2 date.month}-{padded 2 date.day}T{padded 2 (ofDay / 3600)}:" ++
    s!"{padded 2 (ofDay / 60 % 60)}:{padded 2 second}{fractionText nanos}Z"

end Timestamp

end Settlement
