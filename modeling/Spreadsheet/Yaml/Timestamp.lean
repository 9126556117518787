import Spreadsheet.Calendar
import Spreadsheet.Decimal.Integer

/-!
# Timestamps

A day is written as year, month and day between dashes. Behind a letter or blanks there may be a
time of day, with a fraction of its seconds and with how far its clock is ahead of universal time.

* `Timestamp`; `Timestamp.read?`: what a text writes;
* `Timestamp.isPlain`: the form that a plain scalar has to have;
* `Timestamp.moment`: the moment that is meant.
-/

namespace Spreadsheet.Yaml

/-- The digits of a time of day. -/
structure TimeText where
  hour : List Char
  minute : List Char
  second : List Char
  fraction : List Char
  /-- How many minutes its clock is ahead of universal time. -/
  zone? : Option Int

/-- The digits of a day, with a time if there is one. -/
structure Timestamp where
  year : List Char
  month : List Char
  day : List Char
  time? : Option TimeText

namespace Timestamp

/-- As many digits as there are, of two numbers at least the first and at most the second, with the
text behind them. -/
def digits? (least most : Nat) (cs : List Char) : Option (List Char × List Char) :=
  let ds := (cs.take most).takeWhile Char.isDigit
  if ds.length < least then none else some (ds, cs.drop ds.length)

/-- The text behind a character. -/
def behind? (c : Char) : List Char → Option (List Char)
  | d :: cs => if c == d then some cs else none
  | [] => none

/-- A space or a tab. -/
def isGap (c : Char) : Bool := c == ' ' || c == '\t'

/-- What stands behind the seconds: nothing, or how far the clock is ahead. -/
def zone? (cs : List Char) : Option (Option Int) :=
  if cs.isEmpty then some none
  else match cs.dropWhile isGap with
    | ['Z'] => some (some 0)
    | sign :: cs => do
      if sign != '+' && sign != '-' then none
      let (hours, cs) ← digits? 1 2 cs
      let (minutes, cs) ← match cs with
        | ':' :: cs => digits? 2 2 cs
        | cs => some ([], cs)
      let total : Nat := Decimal.ofDigits hours * 60 + Decimal.ofDigits minutes
      if cs.isEmpty then return some (if sign == '-' then -(total : Int) else total) else none
    | [] => none

/-- A whole text as a time of day. -/
def timeOf? (cs : List Char) : Option TimeText := do
  let (hour, cs) ← digits? 1 2 cs
  let (minute, cs) ← digits? 2 2 (← behind? ':' cs)
  let (second, cs) ← digits? 2 2 (← behind? ':' cs)
  let (fraction, cs) := match cs with
    | '.' :: cs => (cs.takeWhile Char.isDigit, cs.dropWhile Char.isDigit)
    | cs => ([], cs)
  return ⟨hour, minute, second, fraction, ← zone? cs⟩

/-- The text of a time behind what separates it from the day. -/
def behindDay? : List Char → Option (List Char)
  | c :: cs =>
    if c == 'T' || c == 't' then some cs else if isGap c then some (cs.dropWhile isGap) else none
  | [] => none

/-- What a text writes. -/
def read? (cs : List Char) : Option Timestamp := do
  let (year, cs) ← digits? 4 4 cs
  let (month, cs) ← digits? 1 2 (← behind? '-' cs)
  let (day, cs) ← digits? 1 2 (← behind? '-' cs)
  if cs.isEmpty then return ⟨year, month, day, none⟩
  else return ⟨year, month, day, some (← timeOf? (← behindDay? cs))⟩

/-- A day on its own has two digits for its month and its day. -/
def isPlain (t : Timestamp) : Bool :=
  t.time?.isSome || (t.month.length == 2 && t.day.length == 2)

/-- The day that is meant. -/
def date (t : Timestamp) : Date :=
  ⟨Decimal.ofDigits t.year, Decimal.ofDigits t.month, Decimal.ofDigits t.day⟩

/-- The moment that is meant on a day; digits beyond millionths of a second do not count. -/
def moment (day : Date) (t : TimeText) : Moment where
  date := day
  hour := Decimal.ofDigits t.hour
  minute := Decimal.ofDigits t.minute
  second := Decimal.ofDigits t.second
  micro := Decimal.ofDigits ((t.fraction ++ List.replicate 6 '0').take 6)
  zone? := t.zone?

/-! ## Examples -/

example : ((read? "2020-01-02".toList).map (·.isPlain)) = some true := by decide
example : ((read? "2020-1-2".toList).map (·.isPlain)) = some false := by decide

end Timestamp

end Spreadsheet.Yaml
