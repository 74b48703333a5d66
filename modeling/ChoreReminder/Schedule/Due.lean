import ChoreReminder.Schedule.Validation

/-! The due state of a chore. A schedule that cannot be evaluated gives a warning and no due state; a
date past the calendar is an overflow of the whole evaluation. -/

namespace ChoreReminder

inductive ClockFault where
  | hour
  | minute
  deriving DecidableEq

def ClockFault.message : ClockFault → String
  | hour => "hour must be in 0..23"
  | minute => "minute must be in 0..59"

inductive DueWarning where
  | cron (choreId expression : String) (fault : Cron.Fault)
  | clock (choreId : String) (fault : ClockFault)
  deriving DecidableEq

def DueWarning.message : DueWarning → String
  | cron choreId expression fault => "Failed to parse cron schedule for chore " ++ choreId ++ " ('"
      ++ expression ++ "'): " ++ cronMessage expression fault
  | clock choreId fault =>
    "Invalid interval time for chore " ++ choreId ++ ": " ++ fault.message

inductive DueResult where
  | due (info : DueInfo)
  | skipped (warning : DueWarning)
  /-- A number left its range, which ends a whole evaluation. -/
  | overflow (cause : Overflow)
  deriving DecidableEq

namespace Schedule

def addDays (day : Nat) (days : Int) : Except Overflow Nat :=
  let n := (day : Int) + days
  match Overflow.ofDays days with
  | some o => .error o
  | none => if 0 ≤ n ∧ n < Calendar.dayLimit then .ok n.toNat else .error .date

def clockMicros (hour minute : Int) : Except ClockFault Nat :=
  if hour < 0 ∨ 23 < hour then .error .hour
  else if minute < 0 ∨ 59 < minute then .error .minute
  else .ok (hour.toNat * Calendar.hour + minute.toNat * Calendar.minute)

def dueAt (c : Chore) (now due : Instant) : DueResult :=
  .due { chore := c, nextDue := some due, isOverdue := due ≤ now }

def cronDue (c : Chore) (expression : String) (now : Instant) : DueResult :=
  match nextOccurrence expression c.base with
  | .ok due => dueAt c now due
  | .error (.cron e f) => .skipped (.cron c.id e f)
  | .error _ => .overflow .date

def dayDue (c : Chore) (now : Instant) (day : Nat) (hour minute : Int) : DueResult :=
  match Overflow.ofClock hour <|> Overflow.ofClock minute with
  | some o => .overflow o
  | none =>
    match clockMicros hour minute with
    | .error f => .skipped (.clock c.id f)
    | .ok t =>
      match Instant.ofMicros? (day * Calendar.day + t) with
      | some due => dueAt c now due
      | none => .overflow .date

def intervalDue (c : Chore) (days : Int) (hour minute : Option Int) (now : Instant) : DueResult :=
  match c.base.instant? with
  | none => .overflow .date
  | some base =>
    match addDays base.dayNumber days with
    | .error o => .overflow o
    | .ok day => dayDue c now day (hour.getD 0) (minute.getD 0)

end Schedule

/-- The due state of a chore. Without a date of its own, a chore is never overdue. -/
def Chore.due (c : Chore) (now : Stamp) : DueResult :=
  match c.schedule with
  | .onceInAWhile => .due { chore := c, nextDue := none, isOverdue := false }
  | .cron expression =>
    match now.instant? with
    | none => .overflow .date
    | some now => Schedule.cronDue c expression now
  | .interval days hour minute =>
    match now.instant? with
    | none => .overflow .date
    | some now => Schedule.intervalDue c days hour minute now

end ChoreReminder
