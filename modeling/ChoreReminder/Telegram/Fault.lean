import ChoreReminder.Telegram.Channel

/-! Why an update or the press of a button cannot be handled. Updates come from outside, so a value may
be of any kind where an object, a text or a moment is expected. -/

namespace ChoreReminder

inductive PressFault where
  /-- A value of this kind has no members, or is no text where one is needed. -/
  | lacks (kind feature : String)
  /-- The moment of a message falls into a year outside the calendar. -/
  | year (y : Int)
  /-- The moment of a message is so far off that its year is not representable. -/
  | unrepresentable
  /-- The moment of a message does not fit 64 bits. -/
  | momentWord
  /-- A call broke down other than by a refusal. -/
  | call (fault : CallFault)
  /-- The ledger did not take the completion. -/
  | ledger (fault : LedgerFault)
  deriving DecidableEq

def PressFault.message : PressFault → LooseText
  | lacks kind feature => "'" ++ kind ++ "' object has no attribute '" ++ feature ++ "'"
  | year y => "year " ++ toString y ++ " is out of range"
  | unrepresentable => "[Errno 75] Value too large for defined data type"
  | momentWord => "timestamp out of range for platform time_t"
  | call fault => fault.message
  | ledger fault => fault.message

inductive PollFault where
  /-- The answer holds one value and not many. -/
  | notMany (kind : String)
  /-- An update of this kind has no members. -/
  | lacks (kind : String)
  deriving DecidableEq

end ChoreReminder
