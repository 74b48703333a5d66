import ChoreReminder.Ledger.Deliveries

/-! The store: a ledger behind a connection that may be down. An outage of a kind of call says of the
next calls of that kind whether they fail; a call that fails does not reach the ledger. -/

namespace ChoreReminder

inductive Call where
  | createChore
  | getChore
  | updateSchedule
  | deleteChore
  | choreExists
  | choreCount
  | candidates
  | complete
  | completionExists
  | completions
  | upsert
  | pending
  | markDelivered
  | markFailed
  | getEvent
  | events
  | getDelivery
  | deliveries
  | deliveryCounts
  deriving DecidableEq, Repr

/-- Which of the next calls of a kind fail, and why. -/
structure Outage where
  call : Call
  failing : List Bool
  reason : String
  deriving DecidableEq

structure Store where
  ledger : Ledger
  outages : List Outage
  deriving DecidableEq

namespace Store

def ofLedger (l : Ledger) : Store := ⟨l, []⟩

def announce (s : Store) (o : Outage) : Store :=
  { s with outages := o :: s.outages.filter (·.call ≠ o.call) }

def connect (call : Call) : List Outage → Option String × List Outage
  | [] => (none, [])
  | o :: rest =>
    if o.call = call then
      match o.failing with
      | [] => (none, o :: rest)
      | fails :: more => (if fails then some o.reason else none, { o with failing := more } :: rest)
    else
      let (reason, rest) := connect call rest
      (reason, o :: rest)

def write {α : Type} (s : Store) (call : Call) (f : Ledger → Except LedgerFault (α × Ledger)) :
    Except LedgerFault α × Store :=
  match connect call s.outages with
  | (some reason, outages) => (.error (.unavailable reason), { s with outages })
  | (none, outages) =>
    match f s.ledger with
    | .ok (a, ledger) => (.ok a, { ledger, outages })
    | .error e => (.error e, { s with outages })

def read {α : Type} (s : Store) (call : Call) (f : Ledger → Except LedgerFault α) :
    Except LedgerFault α × Store :=
  s.write call fun l => (f l).map (·, l)

end Store

end ChoreReminder
