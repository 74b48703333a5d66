import ChoreReminder.Text.Casing
import ChoreReminder.Text.Blank
import ChoreReminder.Text.Numeral

/-! Cron expressions: seven slots with their ranges and names, what a slot holds once it has been read,
and why an expression is refused. A slot holds numbers, perhaps the mark for every value, and in the
day slot perhaps the mark for the last day of the month. Two rules stand beside the slots:
weekdays that count only as the n-th or last of their month, and days that give way to the nearest
working day. -/

namespace ChoreReminder.Cron

inductive Slot where
  | minute
  | hour
  | day
  | month
  | weekday
  | second
  | year
  deriving DecidableEq, Repr

namespace Slot

def all : List Slot := [.minute, .hour, .day, .month, .weekday, .second, .year]

def index : Slot → Nat
  | minute => 0
  | hour => 1
  | day => 2
  | month => 3
  | weekday => 4
  | second => 5
  | year => 6

def low : Slot → Nat
  | day | month => 1
  | year => 1970
  | _ => 0

def high : Slot → Nat
  | minute | second => 59
  | hour => 23
  | day => 31
  | month => 12
  | weekday => 6
  | year => 2099

def count (s : Slot) : Nat := s.high - s.low + 1

def names : Slot → List String
  | month => ["jan", "feb", "mar", "apr", "may", "jun", "jul", "aug", "sep", "oct", "nov", "dec"]
  | weekday => ["sun", "mon", "tue", "wed", "thu", "fri", "sat"]
  | _ => []

end Slot

inductive Entry where
  /-- Every value. -/
  | every
  | value (n : Nat)
  /-- The last day of the month. -/
  | last
  deriving DecidableEq, Repr

/-- Every value first, then the values in order, then the last day. -/
def Entry.le : Entry → Entry → Bool
  | .every, _ => true
  | .value _, .every => false
  | .value m, .value n => m ≤ n
  | .value _, .last => true
  | .last, e => e == .last

inductive Nth where
  | nth (n : Nat)
  | last
  deriving DecidableEq, Repr

def Nth.le : Nth → Nth → Bool
  | .nth m, .nth n => m ≤ n
  | .nth _, .last => true
  | .last, n => n == .last

/-- An expression that has been read. The second slot and the year slot may be absent. -/
structure Expression where
  minute : List Entry
  hour : List Entry
  day : List Entry
  month : List Entry
  weekday : List Entry
  second : Option (List Entry)
  year : Option (List Entry)
  /-- Weekdays restricted to occurrences, in order of first use. -/
  nth : List (Nat × List Nth)
  /-- Days of the month that give way to the nearest working day. -/
  nearest : List Nat
  deriving DecidableEq, Repr

inductive Fault where
  | columns
  | hashed
  | emptyDraw
  | drawOutOfRange (field : String)
  | drawStep (field : String)
  | questionMixed
  | questionSlot
  | occurrence (n : Nat)
  | nearestRange (day : Nat)
  | nearestMixed
  | unknownName
  | step (slot : Slot)
  | lastBand (low high : String)
  | band
  | negative
  | range
  /-- Plain weekdays beside weekdays restricted to occurrences. -/
  | mixedWeekdays (plain : List Nat) (nth : List (Nat × List Nth))
  | noDate
  | year (y : Nat)
  deriving DecidableEq, Repr

namespace Fault

def nthText : Nth → String
  | .nth n => toString n
  | .last => "'l'"

def braced (items : List String) : String := "\x7b" ++ ", ".intercalate items ++ "\x7d"

def message (expression fields : String) : Fault → String
  | columns => "Exactly 5, 6 or 7 columns has to be specified for iterator expression."
  | hashed => "Hashed definitions must include hash_id"
  | emptyDraw => "Range end must be greater than range begin"
  | drawOutOfRange field => "[" ++ field ++ "] is not acceptable, out of range"
  | drawStep field => "Bad expression: " ++ field
  | questionMixed =>
    "[" ++ expression ++ "] is not acceptable. Question mark can not used with other characters"
  | questionSlot => "[" ++ expression
      ++ "] is not acceptable. Question mark can only used in day_of_month or day_of_week"
  | occurrence n => "[" ++ expression ++ "] is not acceptable. Invalid day_of_week value: '"
      ++ toString n ++ "'"
  | nearestRange n => "[" ++ expression ++ "] is not acceptable, nearest weekday day value '"
      ++ toString n ++ "' out of range"
  | nearestMixed => "[" ++ expression
      ++ "] is not acceptable. 'W' can only be used with a single day value, not in a list or range"
  | unknownName => "[" ++ fields ++ "] is not acceptable"
  | step slot => "[" ++ expression ++ "] step '0' in field " ++ toString slot.index
      ++ " is not acceptable"
  | lastBand low high => "[" ++ expression ++ "] bands '" ++ low ++ "-" ++ high
      ++ "' in field 2 are not acceptable"
  | band => expression ++ " is out of bands"
  | negative => "[" ++ expression ++ "] is not acceptable, negative numbers not allowed"
  | range => "[" ++ expression ++ "] is not acceptable, out of range"
  | mixedWeekdays plain nth =>
    "day-of-week field does not support mixing literal values and nth day of week syntax.  Cron: '"
      ++ expression ++ "'    dow=" ++ braced (plain.map toString) ++ " vs nth="
      ++ braced (nth.map fun p => toString p.1 ++ ": " ++ braced (p.2.map nthText))
  | noDate => "failed to find next date"
  | year y => "year " ++ toString y ++ " is out of range"

end Fault

end ChoreReminder.Cron
