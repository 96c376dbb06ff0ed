import TypedClient.Text.Basic

/-!
# Calendar dates and times of day

Dates of the years 1 to 9999 and points in time with an optional offset from universal time, as
they occur unquoted in documents. `Date.ofParts?` and `Timestamp.ofParts?` refuse impossible ones.
Points in time with offsets are the same if they are the same instant.
-/
namespace TypedClient

structure Date where
  year : Nat
  month : Nat
  day : Nat
  deriving DecidableEq, Repr

structure Timestamp where
  date : Date
  hour : Nat
  minute : Nat
  second : Nat
  microsecond : Nat
  /-- Minutes ahead of universal time, where the point in time says so. -/
  offset : Option Int
  deriving DecidableEq, Repr

def isLeapYear (year : Nat) : Bool :=
  year % 4 = 0 && (year % 100 ≠ 0 || year % 400 = 0)

def daysInMonth (year month : Nat) : Nat :=
  if month = 2 then if isLeapYear year then 29 else 28
  else if month = 4 || month = 6 || month = 9 || month = 11 then 30
  else 31

/-- A decimal number padded with zeros on the left to at least `width` digits. -/
def padded (width n : Nat) : String :=
  let digits := Nat.toDigits 10 n
  String.ofList (List.replicate (width - digits.length) '0' ++ digits)

namespace Date

def ofParts? (year month day : Nat) : Option Date :=
  if 1 ≤ year && year ≤ 9999 && 1 ≤ month && month ≤ 12 && 1 ≤ day && day ≤ daysInMonth year month
  then some ⟨year, month, day⟩
  else none

/-- The days from the first of January of the year 1, which is day 0. -/
def dayNumber (d : Date) : Nat :=
  let years := d.year - 1
  let months := (List.range (d.month - 1)).map fun m => daysInMonth d.year (m + 1)
  years * 365 + years / 4 - years / 100 + years / 400 + months.foldl Nat.add 0 + (d.day - 1)

def text (d : Date) : String :=
  Text.joinWith "-" [padded 4 d.year, padded 2 d.month, padded 2 d.day]

/-- The form of a date inside a list or mapping. -/
def quoted (d : Date) : String :=
  "datetime.date(" ++ Text.joinWith ", " [toString d.year, toString d.month, toString d.day] ++ ")"

end Date

namespace Timestamp

/-- A point in time; its offset must stay within a day. -/
def ofParts? (date : Date) (hour minute second microsecond : Nat) (offset : Option Int) :
    Option Timestamp :=
  let inDay := hour < 24 && minute < 60 && second < 60 && microsecond < 1000000
  let inZone := (offset.getD 0).natAbs < 24 * 60
  if inDay && inZone then some ⟨date, hour, minute, second, microsecond, offset⟩ else none

/-- Microseconds since the beginning of the year 1, seen from where the offset is zero. -/
def instant (t : Timestamp) : Int :=
  let minutes : Int := ((t.date.dayNumber * 24 + t.hour) * 60 + t.minute : Nat)
  ((minutes - t.offset.getD 0) * 60 + t.second) * 1000000 + t.microsecond

def offsetText (offset : Int) : String :=
  (if offset < 0 then "-" else "+") ++ padded 2 (offset.natAbs / 60) ++ ":" ++
    padded 2 (offset.natAbs % 60)

def text (t : Timestamp) : String :=
  t.date.text ++ " " ++ Text.joinWith ":" [padded 2 t.hour, padded 2 t.minute, padded 2 t.second] ++
    (if t.microsecond = 0 then "" else "." ++ padded 6 t.microsecond) ++
    (t.offset.map offsetText).getD ""

/-- An offset as whole days and the seconds left over, which are never negative. -/
def zoneQuoted (offset : Int) : String :=
  let seconds := offset * 60
  let days := Int.fdiv seconds 86400
  let rest := Int.fmod seconds 86400
  if offset = 0 then "datetime.timezone.utc"
  else
    "datetime.timezone(datetime.timedelta(" ++
      Text.joinWith ", "
        ((if days = 0 then [] else ["days=" ++ toString days]) ++
          (if rest = 0 then [] else ["seconds=" ++ toString rest])) ++
      "))"

/-- The form of a point in time inside a list or mapping; seconds and their fraction are left out
where they are zero. -/
def quoted (t : Timestamp) : String :=
  let clock :=
    if t.microsecond ≠ 0 then [t.hour, t.minute, t.second, t.microsecond]
    else if t.second ≠ 0 then [t.hour, t.minute, t.second]
    else [t.hour, t.minute]
  let numbers := [t.date.year, t.date.month, t.date.day] ++ clock
  "datetime.datetime(" ++
    Text.joinWith ", "
      (numbers.map toString ++ (t.offset.map fun o => "tzinfo=" ++ zoneQuoted o).toList) ++
    ")"

end Timestamp

end TypedClient
