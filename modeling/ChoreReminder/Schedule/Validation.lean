import ChoreReminder.Calendar.Overflow
import ChoreReminder.Schedule.Basic
import ChoreReminder.Cron.Search

/-! Which schedules are accepted. A cron schedule has to leave an hour between the two dates that
follow the moment of validation; an interval has between one day and a year, at a time of day. -/

namespace ChoreReminder

inductive ScheduleFault where
  | cron (expression : String) (fault : Cron.Fault)
  | tooFrequent
  | tooShort
  | tooLong
  | hour
  | minute
  /-- A date outside the years 1 to 9999 was needed. -/
  | overflow
  deriving DecidableEq

def cronMessage (expression : String) (fault : Cron.Fault) : String :=
  "Invalid cron expression '" ++ expression ++ "': "
    ++ fault.message expression (Cron.fieldsText expression)

def minIntervalDays : Int := 1

def maxIntervalDays : Int := 365

def ScheduleFault.message : ScheduleFault → String
  | cron expression fault => cronMessage expression fault
  | tooFrequent => "Schedule is too frequent. Minimum interval is 1 hour."
  | tooShort => "Interval must be at least " ++ toString minIntervalDays ++ " day(s)"
  | tooLong => "Interval cannot exceed " ++ toString maxIntervalDays ++ " days (1 year)"
  | hour => "Hour must be between 0 and 23"
  | minute => "Minute must be between 0 and 59"
  | overflow => Overflow.date.message

namespace Schedule

def nextOccurrence (expression : String) (after : Stamp) : Except ScheduleFault Instant :=
  match after.instant? with
  | none => .error .overflow
  | some i =>
    match Cron.next expression i with
    | .ok o => .ok o
    | .error (.fault f) => .error (.cron expression f)
    | .error .overflow => .error .overflow

def validateCron (expression : String) (now : Stamp) : Except ScheduleFault Unit := do
  let first ← nextOccurrence expression now
  let second ← nextOccurrence expression (.utc first)
  if second.micros - first.micros < Calendar.hour then .error .tooFrequent else .ok ()

def isWithin (high : Int) : Option Int → Bool
  | none => true
  | some n => 0 ≤ n && n ≤ high

def validateInterval (days : Int) (hour minute : Option Int) : Except ScheduleFault Unit :=
  if days < minIntervalDays then .error .tooShort
  else if maxIntervalDays < days then .error .tooLong
  else if !isWithin 23 hour then .error .hour
  else if !isWithin 59 minute then .error .minute
  else .ok ()

def validate (s : Schedule) (now : Stamp) : Except ScheduleFault Unit :=
  match s with
  | .cron expression => validateCron expression now
  | .interval days hour minute => validateInterval days hour minute
  | .onceInAWhile => .ok ()

end Schedule

end ChoreReminder
