import ChoreReminder.Schedule.Validation

/-! Why an operation on the ledger fails. A rejected schedule, an unknown chore and a violated rule of a
table leave the ledger as it was; a row that cannot be read concerns that row alone. -/

namespace ChoreReminder

inductive RowFault where
  | noExpression
  | noDays
  | unknownKind (kind : String)
  | stamp (fault : StampFault)
  /-- What a row holds does not make up a record of this name. -/
  | record (name : String) (complaints : List Complaint)
  deriving DecidableEq

namespace RowFault

/-- The wording; of a list of complaints only its heading. -/
def message : RowFault → String
  | noExpression => "cron schedule without expression"
  | noDays => "interval schedule without interval_days"
  | unknownKind kind => "unknown schedule type '" ++ kind ++ "'"
  | stamp fault => fault.message
  | record name complaints =>
    let n := complaints.length
    toString n ++ " validation error" ++ (if n = 1 then "" else "s") ++ " for " ++ name

end RowFault

inductive Constraint where
  /-- Rows refer to rows that exist. -/
  | reference
  | notNull (column : String)
  | unique (column : String)
  | check (column : String)
  deriving DecidableEq

def Constraint.message : Constraint → String
  | reference => "FOREIGN KEY constraint failed"
  | notNull column => "NOT NULL constraint failed: " ++ column
  | unique column => "UNIQUE constraint failed: " ++ column
  | check column => "CHECK constraint failed: " ++ column

inductive LedgerFault where
  | schedule (fault : ScheduleFault)
  | overflow (cause : Overflow)
  | choreNotFound (id : String)
  | constraint (rule : Constraint)
  | row (fault : RowFault)
  /-- A text that is to be stored has no stored form. -/
  | unencodable (fault : EncodingFault)
  /-- The ledger could not be reached at all. -/
  | unavailable (reason : String)
  deriving DecidableEq

def LedgerFault.message : LedgerFault → String
  | schedule fault => fault.message
  | overflow cause => cause.message
  | choreNotFound id => "Chore not found: " ++ id
  | constraint rule => rule.message
  | row fault => fault.message
  | unencodable fault => fault.message
  | unavailable reason => reason

end ChoreReminder
