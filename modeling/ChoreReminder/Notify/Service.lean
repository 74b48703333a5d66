import ChoreReminder.Notify.Dispatcher
import ChoreReminder.Notify.Generator
import ChoreReminder.Settings.Basic

/-! The notification service: two loops, one that records due chores and one that sends what is due. They
share nothing but the store, so either may run while the other does not. A loop never overlaps
itself, and runs that were missed are joined into one. -/

namespace ChoreReminder

/-- A loop as it is registered; the period is in seconds. -/
structure Job where
  id : String
  period : Int
  /-- Missed runs are joined into one. -/
  joinsMissed : Bool := true
  /-- How many runs there may be at once. -/
  concurrency : Nat := 1
  /-- Seconds by which a run may be late; `none` for any time. -/
  lateness : Option Nat := none
  deriving DecidableEq

namespace Job

def every (id : String) (period : Int) (now : Instant) : Except Overflow Job :=
  match Overflow.ofDays (period / (24 * 60 * 60)) with
  | some o => .error o
  | none =>
    match Instant.ofMicros? ((now.micros : Int) + period * Calendar.second) with
    | none => .error .date
    | some _ => .ok { id, period }

end Job

structure Service where
  settings : NotificationSettings
  jobs : List Job
  running : Bool
  deriving DecidableEq

namespace Service

def ofSettings (settings : NotificationSettings) : Service := ⟨settings, [], false⟩

def dispatcherId : String := "notifications:dispatch"

def generatorId : String := "notifications:generate"

def start (s : Service) (now : Instant) : Except Overflow Service := do
  let generator ← Job.every generatorId s.settings.pollInterval now
  let dispatcher ← Job.every dispatcherId s.settings.dispatchInterval now
  return { s with jobs := [dispatcher, generator], running := true }

def stop (s : Service) : Service := { s with running := false }

variable {α σ : Type}

def tick (s : Service) (send : α → PendingDelivery → σ → Except SendFault Unit × σ)
    (registry : Registry α) (now : Instant) (store : Store) (senders : σ) : Nat × Dispatched σ :=
  let g := Generator.tick now (.utc now) (s.settings.channels.map some) store
  let d := Dispatcher.tick send registry now s.settings.batchSize s.settings.maxAttempts g.store
    senders
  (g.count, { d with notices := g.notices ++ d.notices })

def ticks (s : Service) (send : α → PendingDelivery → σ → Except SendFault Unit × σ)
    (registry : Registry α) (now : Instant) :
    Nat → Store → σ → List (Nat × DispatchSummary) × Store × σ × List Notice
  | 0, store, senders => ([], store, senders, [])
  | n + 1, store, senders =>
    let (count, d) := s.tick send registry now store senders
    let (more, store, senders, notices) := ticks s send registry now n d.store d.senders
    ((count, d.summary) :: more, store, senders, d.notices ++ notices)

end Service

end ChoreReminder
