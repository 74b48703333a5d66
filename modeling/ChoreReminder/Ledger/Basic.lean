import ChoreReminder.Ledger.Row

/-! The ledger: four tables of rows in the order in which they were written, and how many rows each table
was ever given an id for. A row's id tells its table and its number, so ids are never used again after
a row is gone. Operations take the present instant and return the ledger after them; one that fails
returns no ledger, so it leaves no trace. -/

namespace ChoreReminder

structure IdCount where
  chores : Nat
  completions : Nat
  events : Nat
  deliveries : Nat
  deriving DecidableEq

structure Ledger where
  chores : List ChoreRow
  completions : List CompletionRow
  events : List Event
  deliveries : List Delivery
  ids : IdCount
  deriving DecidableEq

def rowId (table : String) (n : Nat) : String := table ++ "-0000-4000-8000-" ++ Text.padded 12 n

namespace Ledger

def empty : Ledger := ⟨[], [], [], [], ⟨0, 0, 0, 0⟩⟩

def nextChoreId (l : Ledger) : String := rowId "c0000000" (l.ids.chores + 1)

def nextCompletionId (l : Ledger) : String := rowId "d0000000" (l.ids.completions + 1)

def nextEventId (l : Ledger) : String := rowId "e0000000" (l.ids.events + 1)

def nextDeliveryId (l : Ledger) : String := rowId "f0000000" (l.ids.deliveries + 1)

def storable (t : Stamp) : Except LedgerFault Instant :=
  match t.instant? with
  | some i => .ok i
  | none => .error (.overflow .date)

/-- An integer that is handed to the ledger has to fit a column. -/
def fitting (n : Int) : Except LedgerFault Unit :=
  match Overflow.ofStored n with
  | some o => .error (.overflow o)
  | none => .ok ()

/-- The first rows, all of them for a negative limit. -/
def limited {α : Type} (limit : Int) (rows : List α) : List α :=
  if limit < 0 then rows else rows.take limit.toNat

/-! ### Chores -/

def choreExists (l : Ledger) (id : String) : Bool := l.chores.any (·.id = id)

def choreCount (l : Ledger) : Nat := l.chores.length

def insertChore (l : Ledger) (r : ChoreRow) : Except LedgerFault (List ChoreRow) :=
  match r.brokenRule? with
  | some rule => .error (.constraint rule)
  | none =>
    if l.choreExists r.id then .error (.constraint (.unique "chores.id"))
    else .ok (l.chores ++ [r])

/-- Adds a chore whose schedule is accepted at the present instant. The time of its creation may be
given; it is the present instant otherwise. -/
def createChore (l : Ledger) (now : Instant) (name : String) (schedule : Schedule)
    (description : Option String) (createdAt : Option Stamp) : Except LedgerFault (Chore × Ledger) := do
  (schedule.validate (.utc now)).mapError .schedule
  let created := createdAt.getD (.utc now)
  let createdInstant ← storable created
  let row : ChoreRow := {
    id := l.nextChoreId, name, description, kind := "", cron := none, days := .null, hour := .null,
    minute := .null, createdAt := createdInstant.stored, updatedAt := now.stored }
  let chores ← l.insertChore (row.withSchedule schedule)
  return ({ id := l.nextChoreId, name, description, schedule, createdAt := created,
            updatedAt := .utc now, lastCompletedAt := none },
    { l with chores, ids := { l.ids with chores := l.ids.chores + 1 } })

def greatest? : List String → Option String
  | [] => none
  | s :: rest =>
    match greatest? rest with
    | none => some s
    | some t => some (if s ≤ t then t else s)

def latestCompletion (l : Ledger) (id : String) : Option String :=
  greatest? ((l.completions.filter (·.choreId = id)).map (·.completedAt))

def chore? (l : Ledger) (id : String) : Except LedgerFault (Option Chore) :=
  match l.chores.find? (·.id = id) with
  | none => .ok none
  | some r => ((r.read (l.latestCompletion id)).map some).mapError .row

def updateSchedule (l : Ledger) (now : Instant) (id : String) (schedule : Schedule) :
    Except LedgerFault (Bool × Ledger) := do
  (schedule.validate (.utc now)).mapError .schedule
  let change (r : ChoreRow) : ChoreRow := { r.withSchedule schedule with updatedAt := now.stored }
  match l.chores.find? (·.id = id) with
  | none => return (false, l)
  | some r =>
    match (change r).brokenRule? with
    | some rule => .error (.constraint rule)
    | none =>
      return (true, { l with chores := l.chores.map fun r => if r.id = id then change r else r })

/-- Removes a chore with its completions, its events and their deliveries. The result says whether the
chore existed. -/
def deleteChore (l : Ledger) (id : String) : Bool × Ledger :=
  let gone (eventId : String) : Bool := l.events.any fun e => e.id = eventId ∧ e.choreId = id
  (l.choreExists id,
    { l with
      chores := l.chores.filter (·.id != id)
      completions := l.completions.filter (·.choreId != id)
      events := l.events.filter (·.choreId != id)
      deliveries := l.deliveries.filter (!gone ·.eventId) })

/-- The chores by name, each with its latest completion, and the rows that could not be read with the
reason. -/
def candidates (l : Ledger) : List Chore × List (String × RowFault) :=
  (l.chores.mergeSort (fun a b => a.name ≤ b.name)).foldr
    (fun r (chores, skipped) =>
      match r.read (l.latestCompletion r.id) with
      | .ok c => (c :: chores, skipped)
      | .error f => (chores, (r.id, f) :: skipped))
    ([], [])

/-! ### Completions -/

def complete (l : Ledger) (now : Instant) (choreId : String) (completedAt : Option Stamp)
    (notes : Option String) : Except LedgerFault (Completion × Ledger) := do
  let completed := completedAt.getD (.utc now)
  let completedInstant ← storable completed
  if !l.choreExists choreId then .error (.choreNotFound choreId)
  else
    let row : CompletionRow := {
      id := l.nextCompletionId, choreId, completedAt := completedInstant.stored, notes,
      createdAt := now.stored }
    return ({ id := row.id, choreId, completedAt := completed, notes, createdAt := .utc now },
      { l with
        completions := l.completions ++ [row]
        ids := { l.ids with completions := l.ids.completions + 1 } })

def completionExists (l : Ledger) (choreId : String) (since : Option Stamp) :
    Except LedgerFault Bool :=
  let rows := l.completions.filter (·.choreId = choreId)
  match since with
  | none => .ok !rows.isEmpty
  | some t => (storable t).map fun i => rows.any fun r => i.stored ≤ r.completedAt

/-- The latest completions of a chore, latest first; of two at one instant the one recorded last. -/
def completionsOf (l : Ledger) (choreId : String) (limit : Int) :
    Except LedgerFault (List Completion) := do
  fitting limit
  let rows := (l.completions.filter (·.choreId = choreId)).reverse
  let sorted := rows.mergeSort fun a b => b.completedAt ≤ a.completedAt
  (((limited limit sorted).mapM CompletionRow.read).mapError .row)

end Ledger

end ChoreReminder
