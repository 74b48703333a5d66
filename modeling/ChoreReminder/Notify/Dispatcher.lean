import ChoreReminder.Ledger.Store
import ChoreReminder.Log.Notice
import ChoreReminder.Notify.Registry

/-! The dispatcher: it sends the deliveries that are due through the senders of their channels and notes
what came of each. The senders are given as a function on whatever they act upon, so that any
behaviour of theirs is covered. A store that cannot take note of one outcome does not keep the others
from being tried. -/

namespace ChoreReminder

inductive Outcome where
  | delivered
  | failed (fault : SendFault)
  | unroutable
  deriving DecidableEq

structure Attempt where
  delivery : PendingDelivery
  outcome : Outcome
  deriving DecidableEq

structure DispatchSummary where
  delivered : Nat
  failed : Nat
  unroutable : Nat
  deriving DecidableEq

def DispatchSummary.total (s : DispatchSummary) : Nat := s.delivered + s.failed + s.unroutable

/-- The course of a tick: attempts in their order, and what is left behind. -/
structure Dispatched (σ : Type) where
  attempts : List Attempt
  store : Store
  senders : σ
  notices : List Notice

namespace Dispatched

variable {σ : Type}

def summary (d : Dispatched σ) : DispatchSummary where
  delivered := d.attempts.countP (·.outcome = .delivered)
  failed := d.attempts.countP fun a =>
    match a.outcome with
    | .failed _ => true
    | _ => false
  unroutable := d.attempts.countP (·.outcome = .unroutable)

def note (d : Dispatched σ) (n : Notice) : Dispatched σ := { d with notices := d.notices ++ [n] }

def tried (d : Dispatched σ) (p : PendingDelivery) (outcome : Outcome) : Dispatched σ :=
  { d with attempts := d.attempts ++ [⟨p, outcome⟩] }

end Dispatched

namespace Dispatcher

variable {α σ : Type}

def noSenderReason (channel : String) : String := "No sender configured for channel: " ++ channel

def recordFailure (now : Instant) (deliveryId : String) (reason : LooseText) (d : Dispatched σ) :
    Dispatched σ :=
  match d.store.write .markFailed fun l => l.noteFailed now deliveryId reason with
  | (.ok _, store) => { d with store }
  | (.error f, store) => { d with store }.note (.failedNotNoted deliveryId f)

def recordSuccess (now : Instant) (deliveryId : String) (d : Dispatched σ) : Dispatched σ :=
  match d.store.write .markDelivered fun l => .ok (l.markDelivered now deliveryId) with
  | (.ok _, store) => { d with store }
  | (.error f, store) => { d with store }.note (.deliveredNotNoted deliveryId f)

def attempt (send : α → PendingDelivery → σ → Except SendFault Unit × σ) (registry : Registry α)
    (now : Instant) (maxAttempts : Int) (d : Dispatched σ) (p : PendingDelivery) : Dispatched σ :=
  match registry.get? p.channel with
  | none =>
    recordFailure now p.deliveryId (noSenderReason p.channel)
      ((d.tried p .unroutable).note (.unroutable p.channel p.deliveryId))
  | some sender =>
    match send sender p d.senders with
    | (.error f, senders) =>
      let d := { d.tried p (.failed f) with senders }
      recordFailure now p.deliveryId f.reason
        (d.note (.sendFailed p.deliveryId p.channel (p.attemptCount + 1) maxAttempts f))
    | (.ok (), senders) =>
      recordSuccess now p.deliveryId { d.tried p .delivered with senders }

/-- A tick over at most `batchSize` deliveries that were attempted less than `maxAttempts` times. -/
def tick (send : α → PendingDelivery → σ → Except SendFault Unit × σ) (registry : Registry α)
    (now : Instant) (batchSize maxAttempts : Int) (s : Store) (senders : σ) : Dispatched σ :=
  match s.read .pending fun l => l.pending batchSize maxAttempts with
  | (.error f, s) => ⟨[], s, senders, [.pendingUnavailable f]⟩
  | (.ok deliveries, s) =>
    deliveries.foldl (attempt send registry now maxAttempts) ⟨[], s, senders, []⟩

end Dispatcher

end ChoreReminder
