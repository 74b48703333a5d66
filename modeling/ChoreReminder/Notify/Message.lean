import ChoreReminder.Calendar.Instant

/-! The wording of a due notification. It names the chore and the minute at which it fell due, in
universal time. -/

namespace ChoreReminder

structure DueMessage where
  title : String
  body : String
  deriving DecidableEq, Repr

def DueMessage.of (name : String) (due : Instant) : DueMessage where
  title := "Chore due: " ++ name
  body := name ++ " is due at " ++ due.minuteText ++ " UTC."

end ChoreReminder
