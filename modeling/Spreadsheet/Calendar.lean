/-!
# Days and times of day

Days are those of the calendar in use today, carried back to the year 1. A moment is a day with a
time of day, to the millionth of a second, and with the distance from universal time if that is
known.

* `Date`, `Date.check`, `Date.text`, `Date.inline`;
* `Moment`, `Moment.check`, `Moment.text`, `Moment.inline`;
* `Moment.isSame`: two moments are the same point in time.
-/

namespace Spreadsheet

/-- A day. -/
structure Date where
  year : Nat
  month : Nat
  day : Nat
  deriving DecidableEq, Repr

/-- A time on a day. -/
structure Moment where
  date : Date
  hour : Nat
  minute : Nat
  second : Nat
  /-- Millionths of a second. -/
  micro : Nat
  /-- Minutes ahead of universal time. -/
  zone? : Option Int
  deriving DecidableEq, Repr

namespace Calendar

/-- Why numbers are no day or no time. -/
inductive Failure where
  | year (n : Nat)
  | month
  | day
  | hour
  | minute
  | second
  /-- Times are less than a day apart, and this one is as many minutes. -/
  | zone (minutes : Int)
  deriving DecidableEq, Repr

/-- A number with zeros in front. -/
def padded (width n : Nat) : String :=
  let ds := Nat.toDigits 10 n
  String.ofList (List.replicate (width - ds.length) '0' ++ ds)

/-- A span of minutes in days, which may be negative, and seconds, which are not. -/
def span (minutes : Int) : String :=
  let days := minutes.fdiv 1440
  let seconds := minutes.fmod 1440 * 60
  let parts := (if days = 0 then [] else ["days=" ++ toString days])
    ++ (if seconds = 0 then [] else ["seconds=" ++ toString seconds])
  "datetime.timedelta(" ++ (if parts.isEmpty then "0" else ", ".intercalate parts) ++ ")"

/-- The wording of a failure. -/
def Failure.message : Failure → String
  | year n => "year " ++ toString n ++ " is out of range"
  | month => "month must be in 1..12"
  | day => "day is out of range for month"
  | hour => "hour must be in 0..23"
  | minute => "minute must be in 0..59"
  | second => "second must be in 0..59"
  | zone minutes =>
    "offset must be a timedelta strictly between -timedelta(hours=24) and timedelta(hours=24), not "
      ++ span minutes ++ "."

/-- The year has a day more. -/
def isLeap (year : Nat) : Bool := year % 4 == 0 && (year % 100 != 0 || year % 400 == 0)

/-- How many days a month has. -/
def daysIn (year month : Nat) : Nat :=
  if month = 2 then (if isLeap year then 29 else 28)
  else if month = 4 ∨ month = 6 ∨ month = 9 ∨ month = 11 then 30 else 31

end Calendar

open Calendar (padded)

/-! ## Days -/

/-- A day, if it is one. -/
def Date.check (d : Date) : Except Calendar.Failure Date :=
  if d.year < 1 ∨ 9999 < d.year then .error (.year d.year)
  else if d.month < 1 ∨ 12 < d.month then .error .month
  else if d.day < 1 ∨ Calendar.daysIn d.year d.month < d.day then .error .day
  else .ok d

/-- A day as text. -/
def Date.text (d : Date) : String :=
  padded 4 d.year ++ "-" ++ padded 2 d.month ++ "-" ++ padded 2 d.day

/-- The numbers of a day. -/
def Date.numbers (d : Date) : List String := [toString d.year, toString d.month, toString d.day]

/-- A day inside another value. -/
def Date.inline (d : Date) : String := "datetime.date(" ++ ", ".intercalate d.numbers ++ ")"

/-- How many days there are from the first of all up to a day. -/
def Date.ordinal (d : Date) : Nat :=
  let y := d.year - 1
  let months := (List.range d.month).drop 1
  let before := months.foldl (fun days month => days + Calendar.daysIn d.year month) 0
  365 * y + y / 4 - y / 100 + y / 400 + before + d.day

/-! ## Moments -/

/-- A moment, if it is one. -/
def Moment.check (m : Moment) : Except Calendar.Failure Moment := do
  if let some z := m.zone? then
    if 1440 ≤ z.natAbs then throw (.zone z)
  let _ ← m.date.check
  if 23 < m.hour then throw .hour
  if 59 < m.minute then throw .minute
  if 59 < m.second then throw .second
  return m

/-- How far a clock is ahead of universal time, as text. -/
def Moment.zoneText (z : Int) : String :=
  (if z < 0 then "-" else "+") ++ padded 2 (z.natAbs / 60) ++ ":" ++ padded 2 (z.natAbs % 60)

/-- A moment as text. -/
def Moment.text (m : Moment) : String :=
  m.date.text ++ " " ++ padded 2 m.hour ++ ":" ++ padded 2 m.minute ++ ":" ++ padded 2 m.second
    ++ (if m.micro = 0 then "" else "." ++ padded 6 m.micro)
    ++ ((m.zone?.map Moment.zoneText).getD "")

/-- How far a clock is ahead of universal time, inside another value. -/
def Moment.zoneInline (z : Int) : String :=
  ", tzinfo=" ++ if z = 0 then "datetime.timezone.utc"
    else "datetime.timezone(" ++ Calendar.span z ++ ")"

/-- A moment inside another value. -/
def Moment.inline (m : Moment) : String :=
  let seconds := if m.micro ≠ 0 then [toString m.second, toString m.micro]
    else if m.second ≠ 0 then [toString m.second] else []
  "datetime.datetime("
    ++ ", ".intercalate (m.date.numbers ++ [toString m.hour, toString m.minute] ++ seconds)
    ++ ((m.zone?.map Moment.zoneInline).getD "") ++ ")"

/-- The minute of a moment in universal time. -/
def Moment.minuteOfAll (m : Moment) : Int :=
  (m.date.ordinal * 1440 + m.hour * 60 + m.minute : Nat) - m.zone?.getD 0

/-- Two moments are the same point in time, as far as can be told. -/
def Moment.isSame (a b : Moment) : Bool :=
  a.zone?.isSome == b.zone?.isSome && a.minuteOfAll == b.minuteOfAll && a.second == b.second
    && a.micro == b.micro

/-! ## Examples -/

example : (Date.check ⟨2024, 2, 29⟩).isOk = true := by decide
example : (Date.check ⟨2023, 2, 29⟩).isOk = false := by decide
example : Date.text ⟨987, 6, 5⟩ = "0987-06-05" := by decide

end Spreadsheet
