/-!
# Dates and timestamps

Days of the proleptic Gregorian calendar, counted from 1 January 2000, and instants, counted in
nanoseconds from the start of that day. A year outside 0 to 9999 is written with its sign; the
fraction of a second takes the fewest of 0, 3, 6 and 9 digits that write it exactly.
-/

namespace SqlAssembly

/-! ### The calendar -/

namespace Calendar

/-- Whether a year has a 29 February. -/
def isLeap (year : Int) : Bool := year % 4 == 0 && (year % 100 != 0 || year % 400 == 0)

/-- The number of days of a month. -/
def daysInMonth (year : Int) (month : Nat) : Nat :=
  if month = 2 then (if isLeap year then 29 else 28)
  else if month = 4 ∨ month = 6 ∨ month = 9 ∨ month = 11 then 30 else 31

/-- The days from 1 January 2000 to a date. Years are counted from March, so that the leap day ends
its year, and in eras of 400 years, each of 146097 days. -/
def dayNumber (year : Int) (month day : Nat) : Int :=
  let y := if month ≤ 2 then year - 1 else year
  let era := y / 400
  let yearOfEra := y % 400
  let monthFromMarch : Int := if month ≤ 2 then month + 9 else month - 3
  let dayOfYear := (153 * monthFromMarch + 2) / 5 + day - 1
  era * 146097 + yearOfEra * 365 + yearOfEra / 4 - yearOfEra / 100 + dayOfYear - 730425

/-- Year, month and day of a number of days from 1 January 2000. -/
def ofDayNumber (days : Int) : Int × Nat × Nat :=
  let z := days + 730425
  let era := z / 146097
  let dayOfEra := z % 146097
  let yearOfEra := (dayOfEra - dayOfEra / 1460 + dayOfEra / 36524 - dayOfEra / 146096) / 365
  let dayOfYear := dayOfEra - (365 * yearOfEra + yearOfEra / 4 - yearOfEra / 100)
  let monthFromMarch := (5 * dayOfYear + 2) / 153
  let day := dayOfYear - (153 * monthFromMarch + 2) / 5 + 1
  let month := if monthFromMarch < 10 then monthFromMarch + 3 else monthFromMarch - 9
  let year := yearOfEra + era * 400 + (if month ≤ 2 then 1 else 0)
  (year, month.toNat, day.toNat)

/-- The first and the last year of the calendar. -/
def firstYear : Int := -262143

@[inherit_doc firstYear] def lastYear : Int := 262142

/-- A number with at least the given count of digits. -/
def padded (width n : Nat) : String :=
  let ds := Nat.toDigits 10 n
  String.ofList (List.replicate (width - ds.length) '0' ++ ds)

/-- A year: four digits, or a sign and at least four digits. -/
def yearText (year : Int) : String :=
  if year < 0 then "-" ++ padded 4 year.natAbs
  else if 9999 < year then "+" ++ padded 4 year.natAbs
  else padded 4 year.natAbs

/-! ### Reading -/

/-- The number that digits write; none for no digits or for other characters. -/
def number? (cs : List Char) : Option Nat :=
  if cs ≠ [] ∧ cs.all Char.isDigit then
    some (cs.foldl (fun n c => 10 * n + (c.toNat - '0'.toNat)) 0)
  else none

/-- A number of exactly two digits and what follows it. -/
def twoDigits? : List Char → Option (Nat × List Char)
  | a :: b :: cs => (number? [a, b]).map fun n => (n, cs)
  | _ => none

/-- What follows a given character. -/
def after? (c : Char) : List Char → Option (List Char)
  | d :: cs => if d = c then some cs else none
  | [] => none

/-- A date at the start of a text, as a number of days, and what follows it. -/
def readDate? (cs : List Char) : Option (Int × List Char) := do
  let (negative, cs) := match cs with
    | '-' :: cs => (true, cs)
    | '+' :: cs => (false, cs)
    | cs => (false, cs)
  let ys := cs.takeWhile Char.isDigit
  guard (4 ≤ ys.length)
  let magnitude ← number? ys
  let year : Int := if negative then -magnitude else magnitude
  let (month, cs) ← after? '-' (cs.dropWhile Char.isDigit) >>= twoDigits?
  let (day, cs) ← after? '-' cs >>= twoDigits?
  guard (firstYear ≤ year ∧ year ≤ lastYear ∧ 1 ≤ month ∧ month ≤ 12 ∧ 1 ≤ day
    ∧ day ≤ daysInMonth year month)
  some (dayNumber year month day, cs)

/-- A time of day at the start of a text: its nanoseconds, whether it is in the leap second 60, and
what follows it. Digits of the fraction beyond the ninth are dropped. -/
def readTime? (cs : List Char) : Option (Nat × Bool × List Char) := do
  let (hour, cs) ← twoDigits? cs
  let (minute, cs) ← after? ':' cs >>= twoDigits?
  let (second, cs) ← after? ':' cs >>= twoDigits?
  guard (hour < 24 ∧ minute < 60 ∧ second ≤ 60)
  let (nanos, cs) ← match cs with
    | '.' :: cs =>
      let fs := (cs.takeWhile Char.isDigit).take 9
      (number? fs).map fun n => (n * Nat.pow 10 (9 - fs.length), cs.dropWhile Char.isDigit)
    | cs => some (0, cs)
  some (((hour * 60 + minute) * 60 + second) * 1000000000 + nanos, second == 60, cs)

/-- An offset from universal time, in seconds: `Z`, or a sign, hours and minutes. -/
def readOffset? : List Char → Option Int
  | ['Z'] => some 0
  | sign :: cs => do
    let (hour, cs) ← twoDigits? cs
    let (minute, cs) ← after? ':' cs >>= twoDigits?
    guard (hour < 24 ∧ minute < 60 ∧ cs = [])
    let seconds : Int := (hour * 60 + minute) * 60
    if sign = '+' then some seconds else if sign = '-' then some (-seconds) else none
  | [] => none

end Calendar

/-! ### Dates -/

/-- A date, as the number of days from 1 January 2000. -/
structure Date where
  days : Int
  deriving DecidableEq, Repr

/-- Year, month and day, separated by hyphens. -/
def Date.text (d : Date) : String :=
  let (year, month, day) := Calendar.ofDayNumber d.days
  Calendar.yearText year ++ "-" ++ Calendar.padded 2 month ++ "-" ++ Calendar.padded 2 day

/-- The date that a text writes. -/
def Date.ofText? (s : String) : Option Date :=
  match Calendar.readDate? s.toList with
  | some (days, []) => some ⟨days⟩
  | _ => none

/-! ### Timestamps -/

/-- A timestamp, as the number of nanoseconds from the start of 1 January 2000. The leap second at
the end of a minute is counted like the first second of the next one. -/
structure Timestamp where
  nanoseconds : Int
  /-- Whether the second is a leap second. -/
  leap : Bool := false
  deriving DecidableEq, Repr

namespace Timestamp

/-- The nanoseconds of a day. -/
def dayLength : Int := 86400000000000

/-- The fraction of a second, with its point; nothing when it is zero. -/
def fractionText (nanos : Nat) : String :=
  if nanos = 0 then ""
  else if nanos % 1000000 = 0 then "." ++ Calendar.padded 3 (nanos / 1000000)
  else if nanos % 1000 = 0 then "." ++ Calendar.padded 6 (nanos / 1000)
  else "." ++ Calendar.padded 9 nanos

/-- Date and time of day, separated by a `T`. -/
def text (t : Timestamp) : String :=
  let leap : Nat := if t.leap then 1 else 0
  let start := t.nanoseconds - leap * 1000000000
  let nanos := (start % dayLength).toNat
  let seconds := nanos / 1000000000
  Date.text ⟨start / dayLength⟩ ++ "T" ++ Calendar.padded 2 (seconds / 3600) ++ ":"
    ++ Calendar.padded 2 (seconds / 60 % 60) ++ ":" ++ Calendar.padded 2 (seconds % 60 + leap)
    ++ fractionText (nanos % 1000000000)

/-- Date and time of day in universal time, marked as such. -/
def utcText (t : Timestamp) : String := t.text ++ "Z"

/-- The timestamp that a text starts with, and what follows it. -/
def read? (s : String) : Option (Timestamp × List Char) := do
  let (days, cs) ← Calendar.readDate? s.toList
  let (nanos, leap, cs) ← Calendar.after? 'T' cs >>= Calendar.readTime?
  some (⟨days * dayLength + nanos, leap⟩, cs)

/-- The timestamp that a text writes. -/
def ofText? (s : String) : Option Timestamp :=
  match read? s with
  | some (t, []) => some t
  | _ => none

/-- The instant that a text with an offset writes. -/
def ofOffsetText? (s : String) : Option Timestamp := do
  let (t, cs) ← read? s
  let offset ← Calendar.readOffset? cs
  some { t with nanoseconds := t.nanoseconds - offset * 1000000000 }

/-- Whole microseconds from the start of 2000, rounded toward zero. -/
def microseconds (t : Timestamp) : Int := t.nanoseconds.tdiv 1000

end Timestamp

end SqlAssembly
