import ChoreReminder.Number.Power

/-! Numbers that leave their range. Dates end with the year 9999, day counts have nine digits, the parts
of a clock are 32-bit words, and a stored integer has 64 bits. What leaves its range ends the operation. -/

namespace ChoreReminder

inductive Overflow where
  /-- A date outside the years 1 to 9999. -/
  | date
  /-- A number of days with more than nine digits. -/
  | days (n : Int)
  /-- A number of days outside the 32-bit words. -/
  | dayWord
  /-- A part of a clock above or below the 32-bit words. -/
  | clockAbove
  | clockBelow
  /-- A part of a clock outside the 64-bit words. -/
  | clockWord
  /-- An integer outside the 64-bit words that is to be stored or looked up. -/
  | stored
  deriving DecidableEq, Repr

namespace Overflow

def maxDayStep : Nat := 999999999

def ofDays (n : Int) : Option Overflow :=
  if !fitsWord 32 n then some .dayWord
  else if maxDayStep < n.natAbs then some (.days n)
  else none

def ofClock (n : Int) : Option Overflow :=
  if fitsWord 32 n then none
  else if !fitsWord 64 n then some .clockWord
  else if n < 0 then some .clockBelow
  else some .clockAbove

def ofStored (n : Int) : Option Overflow := if fitsWord 64 n then none else some .stored

def message : Overflow → String
  | date => "date value out of range"
  | days n => "days=" ++ toString n ++ "; must have magnitude <= " ++ toString maxDayStep
  | dayWord => "Python int too large to convert to C int"
  | clockAbove => "signed integer is greater than maximum"
  | clockBelow => "signed integer is less than minimum"
  | clockWord => "Python int too large to convert to C long"
  | stored => "Python int too large to convert to SQLite INTEGER"

end Overflow

end ChoreReminder
