/-!
# The calendar

Days are counted from 1970-01-01 in the Gregorian calendar, which is extended to all years.  Its
pattern of leap years repeats every 400 years, or 146097 days; years are counted from March here,
so that the leap day comes last.

* `TemporalUnit`          a field of a date or of the time of day;
* `Date`, `dateOfDay`     the date of a day;
* `dayOfDate`             the day of a date;
* `fieldAt?`              a field of the time that a number of milliseconds has come to.
-/

namespace ColumnPlan

inductive TemporalUnit where
  | year
  | month
  | day
  | hour
  | minute
  | second
  deriving DecidableEq, Repr

namespace TemporalUnit

def name : TemporalUnit → String
  | .year => "year"
  | .month => "month"
  | .day => "day"
  | .hour => "hour"
  | .minute => "minute"
  | .second => "second"

def all : List TemporalUnit := [.year, .month, .day, .hour, .minute, .second]

/-- A unit by its name, in any case of letters. -/
def ofName? (name : String) : Option TemporalUnit :=
  all.find? fun u => u.name = name.map Char.toLower

end TemporalUnit

namespace Calendar

structure Date where
  year : Int
  month : Int
  day : Int
  deriving DecidableEq

/-- The date of a day.  `day` counts from the start of March of a year divisible by 400. -/
def dateOfDay (day : Int) : Date :=
  let shifted := day + 719468
  let cycle := shifted / 146097
  let dayOfCycle := shifted % 146097
  let yearOfCycle :=
    (dayOfCycle - dayOfCycle / 1460 + dayOfCycle / 36524 - dayOfCycle / 146096) / 365
  let dayOfYear := dayOfCycle - (365 * yearOfCycle + yearOfCycle / 4 - yearOfCycle / 100)
  let monthFromMarch := (5 * dayOfYear + 2) / 153
  let month := if monthFromMarch < 10 then monthFromMarch + 3 else monthFromMarch - 9
  { year := yearOfCycle + cycle * 400 + (if month ≤ 2 then 1 else 0)
    month := month
    day := dayOfYear - (153 * monthFromMarch + 2) / 5 + 1 }

def isLeap (year : Int) : Bool := year % 4 = 0 && (year % 100 ≠ 0 || year % 400 = 0)

/-- The days of a month. -/
def daysInMonth (year month : Int) : Int :=
  if month = 2 then (if isLeap year then 29 else 28)
  else if month = 4 ∨ month = 6 ∨ month = 9 ∨ month = 11 then 30
  else 31

/-- The day of a date: the days of the years before, of the months before, and of the month. -/
def dayOfDate (d : Date) : Int :=
  let year := if d.month ≤ 2 then d.year - 1 else d.year
  let monthFromMarch := (d.month + 9) % 12
  365 * year + year / 4 - year / 100 + year / 400 + (153 * monthFromMarch + 2) / 5 + d.day - 1 -
    719468

/-- Years before and after these have no dates here. -/
def hasYear (year : Int) : Bool := -9999 ≤ year && year ≤ 9999

/-- A field of the time, in UTC, so many milliseconds after the start of 1970. -/
def fieldAt? (unit : TemporalUnit) (millis : Int) : Option Int :=
  let second := millis / 1000
  let date := dateOfDay (second / 86400)
  let secondOfDay := second % 86400
  if hasYear date.year then
    some (match unit with
      | .year => date.year
      | .month => date.month
      | .day => date.day
      | .hour => secondOfDay / 3600
      | .minute => secondOfDay / 60 % 60
      | .second => secondOfDay % 60)
  else none

end Calendar

end ColumnPlan
