import ServiceKit.Number.Digits
import ServiceKit.Text.Quoted

/-!
Points in time, as settings files write them and as log lines show them.
-/

namespace ServiceKit

/-- Where a clock stands: at UTC, or at an offset in seconds. -/
inductive Zone where
  | utc
  | offset (seconds : Int)
deriving DecidableEq, Repr

/-- A date and a time of day as a clock shows them. -/
structure Timestamp where
  year : Nat
  month : Nat
  day : Nat
  hour : Nat := 0
  minute : Nat := 0
  second : Nat := 0
  nanosecond : Nat := 0
  zone : Zone := .utc
deriving DecidableEq, Repr

namespace Timestamp

open Number

def isLeap (year : Nat) : Bool := year % 4 == 0 && (year % 100 != 0 || year % 400 == 0)

def daysIn (year month : Nat) : Nat :=
  if month = 2 then (if isLeap year then 29 else 28)
  else if month = 4 ∨ month = 6 ∨ month = 9 ∨ month = 11 then 30
  else 31

/-! ### Reading -/

/-- A number of one or two digits. -/
def shortNumber? : Text → Option (Nat × Text)
  | a :: b :: rest =>
    if Text.isDigit a then
      if Text.isDigit b then some (ofDigits [a, b], rest) else some (ofDigits [a], b :: rest)
    else none
  | [a] => if Text.isDigit a then some (ofDigits [a], []) else none
  | [] => none

def twoDigits? : Text → Option Nat
  | [a, b] => if Text.isDigit a && Text.isDigit b then some (ofDigits [a, b]) else none
  | _ => none

def expect? (b : UInt8) : Text → Option Text
  | c :: rest => if b = c then some rest else none
  | [] => none

/-- A year of four digits, a month and a day. -/
def date? (s : Text) : Option (Timestamp × Text) := do
  let year := s.take 4
  if year.length ≠ 4 || !year.all Text.isDigit then none
  let rest ← expect? 0x2D (s.drop 4)
  let (month, rest) ← shortNumber? rest
  if month < 1 || 12 < month then none
  let rest ← expect? 0x2D rest
  let (day, rest) ← shortNumber? rest
  if day < 1 || daysIn (ofDigits year) month < day then none
  some ({ year := ofDigits year, month, day }, rest)

/-- Digits after a point or a comma as nanoseconds; digits beyond the ninth are passed over. -/
def fraction (s : Text) : Nat × Text :=
  match s with
  | b :: d :: rest =>
    if (b = 0x2E ∨ b = 0x2C) ∧ Text.isDigit d then
      let ds := (d :: rest).takeWhile Text.isDigit
      let kept := ds.take 9
      (ofDigits kept * pow10 (9 - kept.length), (d :: rest).dropWhile Text.isDigit)
    else (0, s)
  | s => (0, s)

/-- Hours, minutes, seconds and parts of a second. -/
def timeOfDay? (t : Timestamp) (s : Text) : Option (Timestamp × Text) := do
  let (hour, s) ← shortNumber? s
  if 24 ≤ hour then none
  let s ← expect? 0x3A s
  let (minute, s) ← shortNumber? s
  if 60 ≤ minute then none
  let s ← expect? 0x3A s
  let (second, s) ← shortNumber? s
  if 60 ≤ second then none
  let (nanosecond, s) := fraction s
  some ({ t with hour, minute, second, nanosecond }, s)

/-- A `Z`, or a sign, hours and minutes. -/
def zone? : Text → Option Zone
  | [0x5A] => some .utc
  | sign :: h1 :: h2 :: 0x3A :: m1 :: m2 :: [] => do
    let hours ← twoDigits? [h1, h2]
    let minutes ← twoDigits? [m1, m2]
    if 24 < hours || 60 < minutes then none
    let seconds : Int := (hours * 60 + minutes) * 60
    let zone (seconds : Int) : Zone := if seconds = 0 then .utc else .offset seconds
    if sign = 0x2B then some (zone seconds)
    else if sign = 0x2D then some (zone (-seconds))
    else none
  | _ => none

/-- A date alone, a date and a time after blanks, or a date, a `T`, a time and a zone. -/
def ofText? (s : Text) : Option Timestamp := do
  let (t, rest) ← date? s
  match rest with
  | [] => some t
  | 0x20 :: rest =>
    let (t, rest) ← timeOfDay? t (rest.dropWhile (· == 0x20))
    if rest.isEmpty then some t else none
  | b :: rest =>
    if b = 0x54 ∨ b = 0x74 then
      let (t, rest) ← timeOfDay? t rest
      some { t with zone := ← zone? rest }
    else none

/-! ### Writing -/

def two (n : Nat) : Text := padded 2 (decimal n)

def dateText (t : Timestamp) : Text :=
  padded 4 (decimal t.year) ++ 0x2D :: two t.month ++ 0x2D :: two t.day

/-- The time of day, with as many digits of a second as are not zero. -/
def clockText (t : Timestamp) : Text :=
  two t.hour ++ 0x3A :: two t.minute ++ 0x3A :: two t.second
    ++ (if t.nanosecond = 0 then []
      else 0x2E :: Text.dropTailWhile (· == 0x30) (padded 9 (decimal t.nanosecond)))

/-- An offset as a sign, hours, a divider and minutes. -/
def offsetText (divider : Text) (seconds : Int) : Text :=
  let minutes := seconds.natAbs / 60
  (if seconds < 0 then 0x2D else 0x2B) :: two (minutes / 60) ++ divider ++ two (minutes % 60)

def messageText (t : Timestamp) : Text :=
  t.dateText ++ 0x20 :: t.clockText ++ 0x20 :: (match t.zone with
    | .utc => utf8 "+0000 UTC"
    | .offset s => offsetText [] s ++ 0x20 :: offsetText [] s)

def jsonText (t : Timestamp) : Text :=
  t.dateText ++ 0x54 :: t.clockText ++ (match t.zone with
    | .utc => [0x5A]
    | .offset s => offsetText [0x3A] s)

def monthName (n : Nat) : Text :=
  utf8 (["January", "February", "March", "April", "May", "June", "July", "August", "September",
    "October", "November", "December"].getD (n - 1) "")

def leNumbers : List Nat → List Nat → Bool
  | m :: ms, n :: ns => m < n || (m == n && leNumbers ms ns)
  | ms, _ => ms.isEmpty

/-- The order in which points in time are listed: by the part of a second first. -/
def le (t u : Timestamp) : Bool :=
  let parts (t : Timestamp) : List Nat :=
    [t.nanosecond, t.year, t.month, t.day, t.hour, t.minute, t.second]
  leNumbers (parts t) (parts u)

def expressionText (t : Timestamp) : Text :=
  utf8 "time.Date(" ++ decimal t.year ++ utf8 ", time." ++ monthName t.month ++ utf8 ", "
    ++ Text.join (utf8 ", ") ([t.day, t.hour, t.minute, t.second, t.nanosecond].map decimal)
    ++ utf8 ", " ++ (match t.zone with
      | .utc => utf8 "time.UTC"
      | .offset _ => utf8 "time.Location(\"\")")
    ++ utf8 ")"

end Timestamp

end ServiceKit
