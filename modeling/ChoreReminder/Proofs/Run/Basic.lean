import ChoreReminder.Proofs.Notify.Generator
import ChoreReminder.Proofs.Notify.Tick
import ChoreReminder.Proofs.Telegram.Press

/-! Runs of the program on a ledger that can be reached. A step is an operation of the ledger, a tick of
one of the two loops, or a press, at an instant of its own; the clock may stand at any instant in any
step. Operations that only look at the ledger leave it as it is and are not listed. A run keeps a
record of the attempts at deliveries and of their marks, step by step. -/

namespace ChoreReminder

/-- Whom a tick of the dispatcher meets: the senders of the channels, and how they act on a state of
their own. -/
structure Crew where
  Sender : Type
  State : Type
  registry : Registry Sender
  send : Sender → PendingDelivery → State → Except SendFault Unit × State
  state : State

inductive Action where
  | createChore (name : String) (schedule : Schedule) (description : Option String)
      (createdAt : Option Stamp)
  | updateSchedule (id : String) (schedule : Schedule)
  | deleteChore (id : String)
  | complete (choreId : String) (completedAt : Option Stamp) (notes : Option String)
  | upsert (choreId : String) (due : Stamp) (title body : String) (channels : List (Option String))
  | markDelivered (id : String)
  | markFailed (id reason : String)
  | generate (time : Stamp) (channels : List (Option String))
  | dispatch (crew : Crew) (batchSize maxAttempts : Int)
  | press (channel : TelegramChannel) (query : Datum) (wire : Wire)

namespace Action

def limit? : Action → Option Int
  | dispatch _ _ maxAttempts => some maxAttempts
  | _ => none

def marksByHand : Action → Bool
  | markDelivered _ | markFailed .. => true
  | _ => false

end Action

structure Step where
  now : Instant
  action : Action

/-- What a step leaves behind: the ledger, the attempts that it made, and all marks that it set. -/
structure Performed where
  ledger : Ledger
  attempts : List Attempt := []
  marks : List Mark := []

namespace Ledger

def after {α : Type} (l : Ledger) (call : Call)
    (f : Ledger → Except LedgerFault (α × Ledger)) : Ledger :=
  ((Store.ofLedger l).write call f).2.ledger

def perform (l : Ledger) (s : Step) : Performed :=
  match s.action with
  | .createChore name schedule description createdAt =>
    { ledger := l.after .createChore fun l =>
        l.createChore s.now name schedule description createdAt }
  | .updateSchedule id schedule =>
    { ledger := l.after .updateSchedule fun l => l.updateSchedule s.now id schedule }
  | .deleteChore id => { ledger := l.after .deleteChore fun l => .ok (l.deleteChore id) }
  | .complete choreId completedAt notes =>
    { ledger := l.after .complete fun l => l.complete s.now choreId completedAt notes }
  | .upsert choreId due title body channels =>
    { ledger := l.after .upsert fun l => l.upsert s.now choreId due title body channels }
  | .markDelivered id =>
    { ledger := l.after .markDelivered fun l => .ok (l.markDelivered s.now id)
      marks := [⟨id, s.now, none⟩] }
  | .markFailed id reason =>
    { ledger := l.after .markFailed fun l => .ok (l.markFailed s.now id reason)
      marks := [⟨id, s.now, some reason⟩] }
  | .generate time channels =>
    { ledger := (Generator.tick s.now time channels (.ofLedger l)).store.ledger }
  | .dispatch crew batchSize maxAttempts =>
    let d := Dispatcher.tick crew.send crew.registry s.now batchSize maxAttempts (.ofLedger l)
      crew.state
    { ledger := d.store.ledger, attempts := d.attempts, marks := d.attempts.filterMap (·.mark? s.now) }
  | .press channel query wire =>
    { ledger := (Press.handle channel s.now query ⟨.ofLedger l, wire, []⟩).2.store.ledger }

def run (l : Ledger) : List Step → Ledger
  | [] => l
  | s :: rest => run (l.perform s).ledger rest

def attempts (l : Ledger) : List Step → List (List Attempt)
  | [] => []
  | s :: rest => (l.perform s).attempts :: attempts (l.perform s).ledger rest

def marks (l : Ledger) : List Step → List Mark
  | [] => []
  | s :: rest => (l.perform s).marks ++ marks (l.perform s).ledger rest

theorem after_course {α : Type} {l : Ledger} {call : Call}
    {f : Ledger → Except LedgerFault (α × Ledger)}
    (h : ∀ a l', f l = .ok (a, l') → Course l [] l') : Course l [] (l.after call f) := by
  unfold after
  cases hf : f l with
  | error e =>
    rw [Store.write_ofLedger_error hf]
    exact .refl l
  | ok r =>
    rw [Store.write_ofLedger_ok hf]
    exact h r.1 r.2 hf

theorem perform_course (l : Ledger) (s : Step) :
    Course l (l.perform s).marks (l.perform s).ledger := by
  obtain ⟨now, action⟩ := s
  cases action with
  | createChore name schedule description createdAt =>
    exact after_course fun chore l' done => .single (.createChore done)
  | updateSchedule id schedule =>
    exact after_course fun found l' done => .single (.updateSchedule done)
  | deleteChore id => exact .single (.deleteChore l id)
  | complete choreId completedAt notes =>
    exact after_course fun completion l' done => .single (.complete done)
  | upsert choreId due title body channels =>
    exact after_course fun id l' done => upsert_course done
  | markDelivered id => exact Course.marks l [⟨id, now, none⟩]
  | markFailed id reason => exact Course.marks l [⟨id, now, some reason⟩]
  | generate time channels => exact (Generator.tick_grown now channels (.ofLedger l) time).2.1
  | dispatch crew batchSize maxAttempts =>
    have tick := Dispatcher.tick_marks crew.send crew.registry now maxAttempts batchSize l crew.state
    simp only [perform, tick.2]
    exact Course.marks l _
  | press channel query wire =>
    rcases Press.handle_ledger channel now query ⟨.ofLedger l, wire, []⟩ with
      same | ⟨choreId, completion, -, done⟩
    · simp only [perform, same]
      exact .refl l
    · exact .single (.complete done)

theorem run_course (l : Ledger) (steps : List Step) : Course l (l.marks steps) (l.run steps) := by
  induction steps generalizing l with
  | nil => exact .refl l
  | cons s rest ih => exact (l.perform_course s).append (ih _)

theorem run_append (l : Ledger) (before later : List Step) :
    l.run (before ++ later) = (l.run before).run later := by
  induction before generalizing l with
  | nil => rfl
  | cons s rest ih => exact ih _

end Ledger

end ChoreReminder
