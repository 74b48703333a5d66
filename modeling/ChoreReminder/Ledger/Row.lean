import ChoreReminder.Ledger.Fault

/-! The rows of the four tables, and the rules that a single row of the chores obeys. Times of chores and completions
are stored as texts in a form of one width, and a chore is read back from its texts; the columns of an interval are
cells, because a row that was written from outside may hold numbers of any kind and texts there. What else a file may
hold, bytes in columns of texts, texts that are not UTF-8 and rows without an id, is told in
`ChoreReminder.Ledger.Tables`. -/

namespace ChoreReminder

inductive Cell where
  | null
  | int (n : Int)
  | real (x : Binary64)
  | text (s : String)
  deriving DecidableEq, Repr

namespace Cell

def ofOption : Option Int → Cell
  | none => .null
  | some n => .int n

def toDatum : Cell → Datum
  | .null => .null
  | .int n => .int n
  | .real x => .real x
  | .text s => .str s

/-- The cell is empty or a number from `low` to `high`; a text counts as greater than any number. -/
def isWithin (low high : Int) : Cell → Bool
  | .null => true
  | .int n => low ≤ n && n ≤ high
  | .real x => (Binary64.ofInt low).le x && x.le (Binary64.ofInt high)
  | .text _ => false

end Cell

structure ChoreRow where
  id : String
  name : String
  description : Option String
  kind : String
  cron : Option String
  days : Cell
  hour : Cell
  minute : Cell
  createdAt : String
  updatedAt : String
  deriving DecidableEq

structure CompletionRow where
  id : String
  choreId : String
  completedAt : String
  notes : Option String
  createdAt : String
  deriving DecidableEq

structure Event where
  id : String
  choreId : String
  dueAt : Instant
  title : String
  body : String
  createdAt : Instant
  deriving DecidableEq

inductive DeliveryStatus where
  | pending
  | failed
  | delivered
  deriving DecidableEq, Repr

def DeliveryStatus.name : DeliveryStatus → String
  | pending => "pending"
  | failed => "failed"
  | delivered => "delivered"

structure Delivery where
  id : String
  eventId : String
  channel : String
  status : DeliveryStatus
  attemptCount : Nat
  lastError : Option String
  lastAttemptedAt : Option Instant
  deliveredAt : Option Instant
  createdAt : Instant
  updatedAt : Instant
  deriving DecidableEq

structure Completion where
  id : String
  choreId : String
  completedAt : Stamp
  notes : Option String
  createdAt : Stamp
  deriving DecidableEq

structure ScheduleColumns where
  kind : String
  cron : Option String
  days : Cell
  hour : Cell
  minute : Cell
  deriving DecidableEq

namespace Schedule

def columns (s : Schedule) : ScheduleColumns :=
  match s with
  | .cron expression => ⟨s.kind, some expression, .null, .null, .null⟩
  | .interval days hour minute => ⟨s.kind, none, .int days, .ofOption hour, .ofOption minute⟩
  | .onceInAWhile => ⟨s.kind, none, .null, .null, .null⟩

end Schedule

namespace ScheduleColumns

/-- The first rule for a single row that is broken: the kind is known, the columns of an interval are
in their ranges, and the kind has the column it needs. -/
def brokenRule? (c : ScheduleColumns) : Option Constraint :=
  let kinds := ["cron", "interval", "once_in_a_while"]
  if !kinds.contains c.kind then some (.check "schedule_type")
  else if !c.days.isWithin 1 365 then some (.check "interval_days")
  else if !c.hour.isWithin 0 23 then some (.check "interval_time_hour")
  else if !c.minute.isWithin 0 59 then some (.check "interval_time_minute")
  else if c.kind = "cron" ∧ c.cron = none then some (.check "cron_schedule")
  else if c.kind = "interval" ∧ c.days = .null then some (.check "interval_days")
  else none

def schedule (c : ScheduleColumns) : Except RowFault Schedule :=
  if c.kind = "cron" then
    match c.cron with
    | none => .error .noExpression
    | some e => if e = "" then .error .noExpression else .ok (.cron e)
  else if c.kind = "interval" then
    if c.days = .null then .error .noDays
    else
      let days := Reading.under "days" c.days.toDatum.toInt
      let hour := Reading.under "hour" c.hour.toDatum.toOptionalInt
      let minute := Reading.under "minute" c.minute.toDatum.toOptionalInt
      match (Reading.ap (.ap (days.map .interval) hour) minute : Reading Schedule) with
      | .ok s => .ok s
      | .error cs => .error (.record "IntervalSchedule" cs)
  else if c.kind = "once_in_a_while" then .ok .onceInAWhile
  else .error (.unknownKind c.kind)

end ScheduleColumns

namespace ChoreRow

def withSchedule (r : ChoreRow) (s : Schedule) : ChoreRow :=
  let c := s.columns
  { r with kind := c.kind, cron := c.cron, days := c.days, hour := c.hour, minute := c.minute }

def columns (r : ChoreRow) : ScheduleColumns := ⟨r.kind, r.cron, r.days, r.hour, r.minute⟩

def brokenRule? (r : ChoreRow) : Option Constraint := r.columns.brokenRule?

def schedule (r : ChoreRow) : Except RowFault Schedule := r.columns.schedule

/-- A stored time; an empty text is no time. -/
def readTime (s : String) : Except RowFault (Option Stamp) :=
  if s = "" then .ok none
  else match Stamp.read s with
    | .ok t => .ok (some t)
    | .error f => .error (.stamp f)

def missingTime (column : String) (t : Option Stamp) : List Complaint :=
  if t.isSome then [] else [⟨[column], .datetimeType⟩]

def read (r : ChoreRow) (latest : Option String) : Except RowFault Chore := do
  let schedule ← r.schedule
  let created ← readTime r.createdAt
  let updated ← readTime r.updatedAt
  let last ← readTime (latest.getD "")
  match created, updated with
  | some createdAt, some updatedAt =>
    return { id := r.id, name := r.name, description := r.description, schedule, createdAt,
             updatedAt, lastCompletedAt := last }
  | _, _ =>
    .error (.record "ChoreWithLastCompletion"
      (missingTime "created_at" created ++ missingTime "updated_at" updated))

end ChoreRow

namespace CompletionRow

def read (r : CompletionRow) : Except RowFault Completion := do
  let completed ← ChoreRow.readTime r.completedAt
  let created ← ChoreRow.readTime r.createdAt
  match completed, created with
  | some completedAt, some createdAt =>
    return { id := r.id, choreId := r.choreId, completedAt, notes := r.notes, createdAt }
  | _, _ =>
    .error (.record "Completion" (ChoreRow.missingTime "completed_at" completed
      ++ ChoreRow.missingTime "created_at" created))

end CompletionRow

end ChoreReminder
