import ChoreReminder.Ledger.Basic

/-! Events and their deliveries. There is one event for a chore and a due instant, and one delivery for
an event and a channel, however often they are asked for. A delivery starts pending, counts its failed
attempts, and stays as it is once delivered. -/

namespace ChoreReminder

structure PendingDelivery where
  deliveryId : String
  eventId : String
  channel : String
  attemptCount : Nat
  choreId : String
  dueAt : Instant
  title : String
  body : String
  deriving DecidableEq

namespace Ledger

def eventFor? (l : Ledger) (choreId : String) (due : Instant) : Option Event :=
  l.events.find? fun e => e.choreId = choreId ∧ e.dueAt = due

def ensureEvent (l : Ledger) (now : Instant) (choreId : String) (due : Instant)
    (title body : String) : Except LedgerFault (String × Ledger) :=
  match l.eventFor? choreId due with
  | some e => .ok (e.id, l)
  | none =>
    if l.choreExists choreId then
      let event : Event := { id := l.nextEventId, choreId, dueAt := due, title, body, createdAt := now }
      .ok (event.id,
        { l with events := l.events ++ [event], ids := { l.ids with events := l.ids.events + 1 } })
    else .error (.constraint .reference)

def deliveryFor? (l : Ledger) (eventId channel : String) : Option Delivery :=
  l.deliveries.find? fun d => d.eventId = eventId ∧ d.channel = channel

def ensureDelivery (now : Instant) (eventId : String) (l : Ledger) (channel : Option String) :
    Except LedgerFault Ledger :=
  match channel with
  | none => .error (.constraint (.notNull "notification_deliveries.channel"))
  | some channel =>
    match l.deliveryFor? eventId channel with
    | some _ => .ok l
    | none =>
      let delivery : Delivery := {
        id := l.nextDeliveryId, eventId, channel, status := .pending, attemptCount := 0,
        lastError := none, lastAttemptedAt := none, deliveredAt := none, createdAt := now,
        updatedAt := now }
      .ok { l with
        deliveries := l.deliveries ++ [delivery]
        ids := { l.ids with deliveries := l.ids.deliveries + 1 } }

/-- Makes sure that there is an event of a chore for a due time with a delivery for each channel. What
is there already stays as it is. The result is the id of the event. -/
def upsert (l : Ledger) (now : Instant) (choreId : String) (due : Stamp) (title body : String)
    (channels : List (Option String)) : Except LedgerFault (String × Ledger) := do
  let dueInstant ← storable due
  let (eventId, l) ← l.ensureEvent now choreId dueInstant title body
  let l ← channels.foldlM (ensureDelivery now eventId) l
  return (eventId, l)

def event? (l : Ledger) (id : String) : Option Event := l.events.find? (·.id = id)

def eventsOf (l : Ledger) (choreId : Option String) : List Event :=
  let wanted (e : Event) : Bool :=
    match choreId with
    | none => true
    | some id => id = "" ∨ e.choreId = id
  (l.events.filter wanted).mergeSort fun a b => a.dueAt ≤ b.dueAt

def joined? (l : Ledger) (d : Delivery) : Option PendingDelivery :=
  (l.event? d.eventId).map fun e => {
    deliveryId := d.id, eventId := d.eventId, channel := d.channel, attemptCount := d.attemptCount,
    choreId := e.choreId, dueAt := e.dueAt, title := e.title, body := e.body }

def isEligible (maxAttempts : Int) (d : Delivery) : Bool :=
  d.status != .delivered && (d.attemptCount : Int) < maxAttempts

def attemptedBefore (a b : PendingDelivery × Instant) : Bool :=
  a.1.dueAt.micros < b.1.dueAt.micros
    || (a.1.dueAt.micros == b.1.dueAt.micros && a.2.micros ≤ b.2.micros)

def pending (l : Ledger) (limit maxAttempts : Int) : Except LedgerFault (List PendingDelivery) := do
  fitting maxAttempts
  fitting limit
  let rows := (l.deliveries.filter (isEligible maxAttempts)).filterMap fun d =>
    (l.joined? d).map (·, d.createdAt)
  return (limited limit (rows.mergeSort attemptedBefore)).map (·.1)

/-- Changes the delivery of an id unless it is delivered. The result says whether there was one. -/
def changeDelivery (l : Ledger) (id : String) (change : Delivery → Delivery) : Bool × Ledger :=
  let applies (d : Delivery) : Bool := d.id = id ∧ d.status ≠ .delivered
  (l.deliveries.any applies,
    { l with deliveries := l.deliveries.map fun d => if applies d then change d else d })

def markDelivered (l : Ledger) (now : Instant) (id : String) : Bool × Ledger :=
  l.changeDelivery id fun d =>
    { d with
      status := .delivered, lastError := none, lastAttemptedAt := some now, deliveredAt := some now,
      updatedAt := now }

def markFailed (l : Ledger) (now : Instant) (id reason : String) : Bool × Ledger :=
  l.changeDelivery id fun d =>
    { d with
      status := .failed, attemptCount := d.attemptCount + 1, lastError := some reason,
      lastAttemptedAt := some now, updatedAt := now }

def noteFailed (l : Ledger) (now : Instant) (id : String) (reason : LooseText) :
    Except LedgerFault (Bool × Ledger) :=
  match reason.stored with
  | .ok reason => .ok (l.markFailed now id reason)
  | .error f => .error (.unencodable f)

def delivery? (l : Ledger) (id : String) : Option Delivery := l.deliveries.find? (·.id = id)

def deliveriesOfEvent (l : Ledger) (eventId : String) : List Delivery :=
  (l.deliveries.filter (·.eventId = eventId)).mergeSort fun a b => a.createdAt ≤ b.createdAt

def latestDeliveries (l : Ledger) : List Delivery :=
  l.deliveries.reverse.mergeSort fun a b => b.createdAt ≤ a.createdAt

def deliveriesOf (l : Ledger) (eventId : Option String) (limit : Int) :
    Except LedgerFault (List Delivery) := do
  fitting limit
  match eventId with
  | some id =>
    return limited limit (if id = "" then l.latestDeliveries else l.deliveriesOfEvent id)
  | none => return limited limit l.latestDeliveries

def deliveryCounts (l : Ledger) : List (DeliveryStatus × Nat) :=
  ([.pending, .failed, .delivered].map fun s => (s, l.deliveries.countP (·.status = s))).filter
    (·.2 != 0)

end Ledger

end ChoreReminder
