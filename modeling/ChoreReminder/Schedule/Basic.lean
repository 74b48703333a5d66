import ChoreReminder.Calendar.Stamp
import ChoreReminder.Datum.Field

/-! Chores and their schedules. A schedule is fixed by a cron expression, counts days from the last
completion, or sets no date at all. -/

namespace ChoreReminder

inductive Schedule where
  | cron (expression : String)
  /-- So many days after the last completion, at an hour and a minute of that day. -/
  | interval (days : Int) (hour minute : Option Int)
  | onceInAWhile
  deriving DecidableEq, Repr

def Schedule.kind : Schedule → String
  | .cron _ => "cron"
  | .interval .. => "interval"
  | .onceInAWhile => "once_in_a_while"

def Schedule.ofDatum (d : Datum) : Reading Schedule :=
  match d with
  | .obj _ =>
    match d.get? "kind" with
    | none => .fail .tagNotFound
    | some (.str "cron") =>
      Reading.under "cron" ((d.requiredField "expression" Datum.toStr).map .cron)
    | some (.str "interval") =>
      let days := d.requiredField "days" Datum.toInt
      let hour := d.optionalField "hour" Datum.toOptionalInt none
      let minute := d.optionalField "minute" Datum.toOptionalInt none
      Reading.under "interval" (.ap (.ap (days.map .interval) hour) minute)
    | some (.str "once_in_a_while") => .ok .onceInAWhile
    | some _ => .fail .tagInvalid
  | _ => .fail .modelAttributesType

structure Chore where
  id : String
  name : String
  description : Option String
  schedule : Schedule
  createdAt : Stamp
  updatedAt : Stamp
  lastCompletedAt : Option Stamp
  deriving DecidableEq

/-- The time from which the next due time is counted: the latest completion, else the creation. -/
def Chore.base (c : Chore) : Stamp := c.lastCompletedAt.getD c.createdAt

structure DueInfo where
  chore : Chore
  nextDue : Option Instant
  isOverdue : Bool
  deriving DecidableEq

end ChoreReminder
