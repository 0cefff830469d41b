/-
  Dates of the calendar and times of day: which numbers can stand in them.
-/

namespace ObjectLowering.Data.Calendar

/-- A year with a leap day. -/
def isLeap (year : Nat) : Bool := year % 4 == 0 && (year % 100 != 0 || year % 400 == 0)

/-- The number of days of a month. -/
def daysIn (year month : Nat) : Nat :=
  if month = 2 then (if isLeap year then 29 else 28)
  else if [4, 6, 9, 11].contains month then 30
  else 31

/-- There is such a day. -/
def isDay (year month day : Nat) : Bool :=
  1 ≤ month && month ≤ 12 && 1 ≤ day && day ≤ daysIn year month

/-- There is such a time of day. -/
def isTime (hour minute second : Nat) : Bool := hour < 24 && minute < 60 && second < 60

end ObjectLowering.Data.Calendar
