import TypedClient.Text.Basic

/-!
# Moments of YAML

Dates and points in time as they are written: the digits of each part, and the zone if there is one.
Whether such a date exists is another question.
-/
namespace TypedClient.Yaml

/-- A date or point in time as it is written. -/
structure Moment where
  year : List Char
  month : List Char
  day : List Char
  clock : Option (List Char × List Char × List Char × List Char) := none
  /-- The zone: universal time, or a sign with hours and minutes. -/
  zone : Option (Option (Char × List Char × List Char)) := none

namespace Moment

/-- A run of at least `least` and at most `most` digits, with what follows it. -/
def takeDigits (least most : Nat) (text : List Char) : Option (List Char × List Char) :=
  let digits := text.takeWhile Char.isDigit
  if least ≤ digits.length && digits.length ≤ most then
    some (digits, text.dropWhile Char.isDigit)
  else none

def takeChar (c : Char) : List Char → Option (List Char)
  | d :: rest => if d = c then some rest else none
  | [] => none

def isSpaceOrTab (c : Char) : Bool := c = ' ' || c = '\t'

/-- The zone at the end of a point in time. -/
def takeZone (text : List Char) : Option (Option (Option (Char × List Char × List Char))) :=
  match text with
  | [] => some none
  | _ =>
    match text.dropWhile isSpaceOrTab with
    | ['Z'] => some (some none)
    | sign :: rest => do
      if sign ≠ '+' ∧ sign ≠ '-' then none
      let (hours, rest) ← takeDigits 1 2 rest
      match rest with
      | [] => some (some (some (sign, hours, [])))
      | ':' :: rest =>
        let (minutes, rest) ← takeDigits 2 2 rest
        if rest.isEmpty then some (some (some (sign, hours, minutes))) else none
      | _ => none
    | [] => none

/-- The time of day behind a date. -/
def takeClock (m : Moment) (text : List Char) : Option Moment := do
  let start ←
    match text with
    | 'T' :: rest | 't' :: rest => some rest
    | c :: _ => if isSpaceOrTab c then some (text.dropWhile isSpaceOrTab) else none
    | [] => none
  let (hour, rest) ← takeDigits 1 2 start
  let (minute, rest) ← takeDigits 2 2 (← takeChar ':' rest)
  let (second, rest) ← takeDigits 2 2 (← takeChar ':' rest)
  let (fraction, rest) :=
    match rest with
    | '.' :: rest => (rest.takeWhile Char.isDigit, rest.dropWhile Char.isDigit)
    | _ => ([], rest)
  let zone ← takeZone rest
  return { m with clock := some (hour, minute, second, fraction), zone := zone }

/-- A date, or a date with a time of day behind it. -/
def ofText? (text : List Char) : Option Moment := do
  let (year, rest) ← takeDigits 4 4 text
  let (month, rest) ← takeDigits 1 2 (← takeChar '-' rest)
  let (day, rest) ← takeDigits 1 2 (← takeChar '-' rest)
  let m : Moment := { year := year, month := month, day := day }
  if rest.isEmpty then return m else takeClock m rest

end Moment

end TypedClient.Yaml
