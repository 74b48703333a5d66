/-! The civil calendar, extended over all years. A day is a number counted from 1 January of year 1,
which was a Monday; year, month and day of the month are read off that number. -/

namespace ChoreReminder

structure Date where
  year : Nat
  month : Nat
  day : Nat
  deriving DecidableEq, Repr

namespace Calendar

def daysBeforeYear (y : Nat) : Nat := 365 * (y - 1) + (y - 1) / 4 - (y - 1) / 100 + (y - 1) / 400

def isLeap (y : Nat) : Bool := y % 4 = 0 && (y % 100 != 0 || y % 400 = 0)

def daysBeforeMonth (leap : Bool) (m : Nat) : Nat :=
  let extra := if leap && m > 2 then 1 else 0
  extra + match m with
    | 0 | 1 => 0
    | 2 => 31
    | 3 => 59
    | 4 => 90
    | 5 => 120
    | 6 => 151
    | 7 => 181
    | 8 => 212
    | 9 => 243
    | 10 => 273
    | 11 => 304
    | 12 => 334
    | _ => 365

def daysInMonth (y m : Nat) : Nat :=
  daysBeforeMonth (isLeap y) (m + 1) - daysBeforeMonth (isLeap y) m

/-- The year that holds a day: at most one off the estimate by the mean length of a year. -/
def yearOf (n : Nat) : Nat :=
  let y := n * 400 / 146097 + 1
  if n < daysBeforeYear y then y - 1
  else if daysBeforeYear (y + 1) ≤ n then y + 1
  else y

/-- The month that holds the day with the given number in its year, counted from 0. -/
def monthOf (leap : Bool) (n : Nat) : Nat :=
  1 + ((List.range 11).filter fun k => daysBeforeMonth leap (k + 2) ≤ n).length

/-- Day of the week, 0 for Sunday. -/
def weekday (n : Nat) : Nat := (n + 1) % 7

def maxYear : Nat := 9999

def dayLimit : Nat := 3652059

end Calendar

namespace Date

open Calendar

def number (d : Date) : Nat :=
  daysBeforeYear d.year + daysBeforeMonth (isLeap d.year) d.month + (d.day - 1)

def ofNumber (n : Nat) : Date :=
  let y := yearOf n
  let r := n - daysBeforeYear y
  let m := monthOf (isLeap y) r
  ⟨y, m, r - daysBeforeMonth (isLeap y) m + 1⟩

end Date

end ChoreReminder
