import ChoreReminder.Datum.Json
import ChoreReminder.Ledger.Deliveries

/-! The saved form of a ledger: a document with a list of rows for each table, in the order of the rows, and
the numbers of the ids that were given out. A row is the list of its columns; an instant is its number
of microseconds. -/

namespace ChoreReminder

namespace Ledger

/-! ### Columns -/

def textColumn? : Datum → Option (Option String)
  | .null => some none
  | .str s => some (some s)
  | _ => none

def cellColumn? : Datum → Option Cell
  | .null => some .null
  | .int n => some (.int n)
  | .real x => some (.real x)
  | .str s => some (.text s)
  | _ => none

def saveInstant (i : Instant) : Datum := .int i.micros

def saveOptionalInstant : Option Instant → Datum
  | none => .null
  | some i => saveInstant i

def instantColumn? : Datum → Option Instant
  | .int n => Instant.ofMicros? n
  | _ => none

def optionalInstantColumn? : Datum → Option (Option Instant)
  | .null => some none
  | d => (instantColumn? d).map some

def statusColumn? : Datum → Option DeliveryStatus
  | .str s => [DeliveryStatus.pending, .failed, .delivered].find? (·.name = s)
  | _ => none

def countColumn? : Datum → Option Nat
  | .int n => if 0 ≤ n then some n.toNat else none
  | _ => none

/-! ### Rows -/

def saveChore (r : ChoreRow) : Datum :=
  .list [.str r.id, .str r.name, .optionalText r.description, .str r.kind, .optionalText r.cron,
    r.days.toDatum, r.hour.toDatum, r.minute.toDatum, .str r.createdAt, .str r.updatedAt]

def choreRow? : Datum → Option ChoreRow
  | .list [.str id, .str name, description, .str kind, cron, days, hour, minute, .str created,
      .str updated] => do
    return ⟨id, name, ← textColumn? description, kind, ← textColumn? cron, ← cellColumn? days,
      ← cellColumn? hour, ← cellColumn? minute, created, updated⟩
  | _ => none

def saveCompletion (r : CompletionRow) : Datum :=
  .list [.str r.id, .str r.choreId, .str r.completedAt, .optionalText r.notes, .str r.createdAt]

def completionRow? : Datum → Option CompletionRow
  | .list [.str id, .str choreId, .str completed, notes, .str created] => do
    return ⟨id, choreId, completed, ← textColumn? notes, created⟩
  | _ => none

def saveEvent (e : Event) : Datum :=
  .list [.str e.id, .str e.choreId, saveInstant e.dueAt, .str e.title, .str e.body,
    saveInstant e.createdAt]

def eventRow? : Datum → Option Event
  | .list [.str id, .str choreId, due, .str title, .str body, created] => do
    return ⟨id, choreId, ← instantColumn? due, title, body, ← instantColumn? created⟩
  | _ => none

def saveDelivery (d : Delivery) : Datum :=
  .list [.str d.id, .str d.eventId, .str d.channel, .str d.status.name, .int d.attemptCount,
    .optionalText d.lastError, saveOptionalInstant d.lastAttemptedAt,
    saveOptionalInstant d.deliveredAt, saveInstant d.createdAt, saveInstant d.updatedAt]

def deliveryRow? : Datum → Option Delivery
  | .list [.str id, .str eventId, .str channel, status, attempts, error, attempted, delivered,
      created, updated] => do
    return ⟨id, eventId, channel, ← statusColumn? status, ← countColumn? attempts,
      ← textColumn? error, ← optionalInstantColumn? attempted, ← optionalInstantColumn? delivered,
      ← instantColumn? created, ← instantColumn? updated⟩
  | _ => none

/-! ### Tables -/

def rows? {α : Type} (row : Datum → Option α) (d : Datum) (table : String) : Option (List α) :=
  match d.get table with
  | .list rows => rows.mapM row
  | _ => none

def save (l : Ledger) : Datum :=
  .obj [("chores", .list (l.chores.map saveChore)),
    ("completions", .list (l.completions.map saveCompletion)),
    ("events", .list (l.events.map saveEvent)),
    ("deliveries", .list (l.deliveries.map saveDelivery)),
    ("ids", .list ([l.ids.chores, l.ids.completions, l.ids.events, l.ids.deliveries].map
      fun (n : Nat) => Datum.int n))]

def ofSaved? (d : Datum) : Option Ledger := do
  let ids ← match ← rows? countColumn? d "ids" with
    | [chores, completions, events, deliveries] =>
      some (⟨chores, completions, events, deliveries⟩ : IdCount)
    | _ => none
  return ⟨← rows? choreRow? d "chores", ← rows? completionRow? d "completions",
    ← rows? eventRow? d "events", ← rows? deliveryRow? d "deliveries", ids⟩

end Ledger

end ChoreReminder
