import ChoreReminder.Ledger.Store
import ChoreReminder.Proofs.Ledger.Request
import ChoreReminder.Proofs.Ledger.Store

/-! The writing operations of the ledger as transactions. An operation opens a connection and runs statement
after statement on it. Each takes effect in what the connection sees; only a commit at the end saves it,
and the connection is closed in any case. So an operation that fails half-way has changed what its
connection saw and nothing that is saved. The operations of the ledger are these transactions as seen from
outside. -/

namespace ChoreReminder

/-- A connection to the ledger: what is saved, and what the statements on the connection see. -/
structure Connection where
  saved : Ledger
  view : Ledger

/-- What runs on a connection. A failure ends it and leaves the connection as it is at that point. -/
abbrev Transaction (α : Type) := ExceptT LedgerFault (StateM Connection) α

namespace Transaction

variable {α β : Type}

def outcome (t : Transaction α) (c : Connection) : Except LedgerFault α × Connection :=
  (ExceptT.run t).run c

def check (x : Except LedgerFault α) : Transaction α := ExceptT.mk (pure x)

/-- A statement works on what the connection sees; one that is refused has no effect of its own. -/
def statement (f : Ledger → Except LedgerFault (α × Ledger)) : Transaction α :=
  ExceptT.mk fun c =>
    match f c.view with
    | .ok (a, view) => (.ok a, { c with view })
    | .error e => (.error e, c)

def commit : Transaction Unit := ExceptT.mk fun c => (.ok (), { c with saved := c.view })

def committed (t : Transaction α) : Transaction α := do
  let a ← t
  commit
  return a

/-- Opens a connection to the ledger and closes it at the end, which drops what is not saved. -/
def run (t : Transaction α) (l : Ledger) : Except LedgerFault α × Ledger :=
  let (result, c) := t.outcome ⟨l, l⟩
  (result, c.saved)

def settled (l : Ledger) : Except LedgerFault (α × Ledger) → Except LedgerFault α × Ledger
  | .ok (a, l') => (.ok a, l')
  | .error e => (.error e, l)

theorem outcome_bind (t : Transaction α) (k : α → Transaction β) (c : Connection) :
    (t >>= k).outcome c =
      match t.outcome c with
      | (.ok a, c') => (k a).outcome c'
      | (.error e, c') => (.error e, c') := by
  unfold outcome ExceptT.run StateT.run
  simp only [bind, ExceptT.bind, ExceptT.mk, StateT.bind, ExceptT.bindCont]
  rcases t c with ⟨e | a, c'⟩ <;> rfl

/-! ### Statements and the operation that they make up -/

/-- The transaction gives what the operation gives on what the connection sees, and it saves nothing. -/
structure Realizes (t : Transaction α) (f : Ledger → Except LedgerFault (α × Ledger)) : Prop where
  ok : ∀ {c a view}, f c.view = .ok (a, view) → t.outcome c = (.ok a, { c with view })
  error : ∀ {c e}, f c.view = .error e → ∃ view, t.outcome c = (.error e, { c with view })

namespace Realizes

variable {t : Transaction α} {f : Ledger → Except LedgerFault (α × Ledger)}

theorem statement (f : Ledger → Except LedgerFault (α × Ledger)) : Realizes (statement f) f where
  ok {c a view} h := by
    change (match f c.view with
      | .ok (a, view) => (.ok a, { c with view })
      | .error e => (.error e, c) : Except LedgerFault α × Connection) = _
    rw [h]
  error {c e} h := by
    refine ⟨c.view, ?_⟩
    change (match f c.view with
      | .ok (a, view) => (.ok a, { c with view })
      | .error e => (.error e, c) : Except LedgerFault α × Connection) = _
    rw [h]

theorem pure (a : α) : Realizes (pure a) fun l => .ok (a, l) where
  ok h := by
    cases h
    rfl
  error h := by cases h

theorem bind (first : Realizes t f) {k : α → Transaction β}
    {g : α → Ledger → Except LedgerFault (β × Ledger)} (later : ∀ a, Realizes (k a) (g a)) :
    Realizes (t >>= k) fun l => f l >>= fun p => g p.1 p.2 where
  ok {c b view} h := by
    obtain ⟨⟨a, between⟩, done, h⟩ := bind_eq_ok.1 h
    rw [outcome_bind, first.ok done]
    exact (later a).ok h
  error {c e} h := by
    rw [outcome_bind]
    cases done : f c.view with
    | error e' =>
      obtain ⟨view, failed⟩ := first.error done
      rw [done] at h
      cases h
      exact ⟨view, by rw [failed]⟩
    | ok p =>
      rw [done] at h
      rw [first.ok done]
      exact (later p.1).error (c := { c with view := p.2 }) h

theorem check (x : Except LedgerFault β) {k : β → Transaction α}
    {g : β → Ledger → Except LedgerFault (α × Ledger)} (later : ∀ b, Realizes (k b) (g b)) :
    Realizes (check x >>= k) fun l => x >>= fun b => g b l := by
  cases x with
  | ok b => exact later b
  | error e =>
    refine ⟨fun h => ?_, fun {c e'} h => ⟨c.view, ?_⟩⟩
    · cases h
    · cases h
      rfl

theorem congr {f' : Ledger → Except LedgerFault (α × Ledger)} (h : Realizes t f)
    (same : ∀ l, f' l = f l) : Realizes t f' := by
  rwa [funext same]

theorem forM {γ : Type} (step : Ledger → γ → Except LedgerFault Ledger) (xs : List γ) :
    Realizes (forM xs fun x => Transaction.statement fun l => (step l x).map ((), ·))
      fun l => (xs.foldlM step l).map ((), ·) := by
  induction xs with
  | nil => exact .pure ()
  | cons x rest ih =>
    rw [List.forM_cons]
    refine (Realizes.bind (.statement _) fun _ => ih).congr fun l => ?_
    rw [List.foldlM_cons]
    cases step l x <;> rfl

theorem run (h : Realizes t f) (l : Ledger) : t.committed.run l = settled l (f l) := by
  unfold Transaction.run committed
  simp only [outcome_bind]
  cases done : f l with
  | ok p =>
    rw [h.ok (c := ⟨l, l⟩) done]
    rfl
  | error e =>
    obtain ⟨view, failed⟩ := h.error (c := ⟨l, l⟩) done
    rw [failed]
    rfl

end Realizes

end Transaction

/-! ### The operations that write -/

inductive Write where
  | createChore (name : String) (schedule : Schedule) (description : Option String)
      (createdAt : Option Stamp)
  | updateSchedule (choreId : String) (schedule : Schedule)
  | deleteChore (choreId : String)
  | complete (choreId : String) (completedAt : Option Stamp) (notes : Option String)
  | upsert (choreId : String) (due : Stamp) (title body : String) (channels : List (Option String))
  | markDelivered (deliveryId : String)
  | markFailed (deliveryId reason : String)

inductive Receipt where
  | chore (chore : Chore)
  | completion (completion : Completion)
  | event (id : String)
  | found (present : Bool)
  deriving DecidableEq

namespace Write

open Ledger Transaction

def call : Write → Call
  | createChore .. => .createChore
  | updateSchedule .. => .updateSchedule
  | deleteChore _ => .deleteChore
  | complete .. => .complete
  | upsert .. => .upsert
  | markDelivered _ => .markDelivered
  | markFailed .. => .markFailed

def apply (now : Instant) (w : Write) (l : Ledger) : Except LedgerFault (Receipt × Ledger) :=
  match w with
  | createChore name schedule description createdAt =>
    (l.createChore now name schedule description createdAt).map (Prod.map .chore id)
  | updateSchedule choreId schedule => (l.updateSchedule now choreId schedule).map (Prod.map .found id)
  | deleteChore choreId => .ok (Prod.map .found id (l.deleteChore choreId))
  | complete choreId completedAt notes =>
    (l.complete now choreId completedAt notes).map (Prod.map .completion id)
  | upsert choreId due title body channels =>
    (l.upsert now choreId due title body channels).map (Prod.map .event id)
  | markDelivered deliveryId => .ok (Prod.map .found id (l.markDelivered now deliveryId))
  | markFailed deliveryId reason => .ok (Prod.map .found id (l.markFailed now deliveryId reason))

def insertChore (now : Instant) (name : String) (schedule : Schedule) (description : Option String)
    (created : Stamp) (createdInstant : Instant) (l : Ledger) :
    Except LedgerFault (Receipt × Ledger) := do
  let chores ← l.insertChore (l.newChoreRow now name schedule description createdInstant)
  let chore : Chore := {
    id := l.nextChoreId, name, description, schedule, createdAt := created, updatedAt := .utc now
    lastCompletedAt := none }
  return (.chore chore, { l with chores, ids := { l.ids with chores := l.ids.chores + 1 } })

def updateRow (now : Instant) (choreId : String) (schedule : Schedule) (l : Ledger) :
    Except LedgerFault (Receipt × Ledger) :=
  match l.chores.find? (·.id = choreId) with
  | none => .ok (.found false, l)
  | some r =>
    match (rescheduled now schedule r).brokenRule? with
    | some rule => .error (.constraint rule)
    | none => .ok (.found true, { l with
        chores := l.chores.map fun r => if r.id = choreId then rescheduled now schedule r else r })

def insertCompletion (now : Instant) (choreId : String) (completed : Stamp)
    (completedInstant : Instant) (notes : Option String) (l : Ledger) :
    Except LedgerFault (Receipt × Ledger) :=
  if l.choreExists choreId then
    let completion : Completion :=
      { id := l.nextCompletionId, choreId, completedAt := completed, notes, createdAt := .utc now }
    .ok (.completion completion, { l with
      completions := l.completions ++ [l.newCompletionRow now choreId completedInstant notes]
      ids := { l.ids with completions := l.ids.completions + 1 } })
  else .error (.choreNotFound choreId)

def statements (now : Instant) : Write → Transaction Receipt
  | createChore name schedule description createdAt => do
    check ((schedule.validate (.utc now)).mapError .schedule)
    let created := createdAt.getD (.utc now)
    let createdInstant ← check (storable created)
    statement (insertChore now name schedule description created createdInstant)
  | updateSchedule choreId schedule => do
    check ((schedule.validate (.utc now)).mapError .schedule)
    statement (updateRow now choreId schedule)
  | deleteChore choreId => statement fun l => .ok (Prod.map .found id (l.deleteChore choreId))
  | complete choreId completedAt notes => do
    let completed := completedAt.getD (.utc now)
    let completedInstant ← check (storable completed)
    statement (insertCompletion now choreId completed completedInstant notes)
  | upsert choreId due title body channels => do
    let dueInstant ← check (storable due)
    let eventId ← statement fun l => l.ensureEvent now choreId dueInstant title body
    forM channels fun channel => statement fun l =>
      (ensureDelivery now eventId l channel).map ((), ·)
    return .event eventId
  | markDelivered deliveryId => statement fun l =>
    .ok (Prod.map .found id (l.markDelivered now deliveryId))
  | markFailed deliveryId reason => statement fun l =>
    .ok (Prod.map .found id (l.markFailed now deliveryId reason))

theorem statements_realize (now : Instant) (w : Write) : Realizes (w.statements now) (w.apply now) := by
  cases w with
  | createChore name schedule description createdAt =>
    refine (Realizes.check _ fun _ => Realizes.check _ fun i => Realizes.statement _).congr fun l => ?_
    rw [apply, Ledger.createChore]
    simp only [map_bind]
    rfl
  | updateSchedule choreId schedule =>
    refine (Realizes.check _ fun _ => Realizes.statement _).congr fun l => ?_
    rw [apply, Ledger.updateSchedule]
    simp only [map_bind]
    congr 1
    funext u
    rw [updateRow]
    cases l.chores.find? (·.id = choreId) with
    | none => rfl
    | some r =>
      change (match (rescheduled now schedule r).brokenRule? with
        | some rule => _
        | none => _ : Except LedgerFault _).map _ = _
      dsimp only
      cases (rescheduled now schedule r).brokenRule? <;> rfl
  | deleteChore choreId => exact Realizes.statement (apply now (.deleteChore choreId))
  | complete choreId completedAt notes =>
    refine (Realizes.check _ fun _ => Realizes.statement _).congr fun l => ?_
    rw [apply, Ledger.complete]
    simp only [map_bind]
    congr 1
    funext i
    rw [insertCompletion]
    cases l.choreExists choreId <;> rfl
  | upsert choreId due title body channels =>
    refine (Realizes.check _ fun i => (Realizes.statement _).bind fun id =>
      (Realizes.forM _ channels).bind fun _ => .pure _).congr fun l => ?_
    rw [apply, Ledger.upsert]
    simp only [map_bind]
    congr 1
    funext i
    congr 1
    funext p
    cases channels.foldlM (ensureDelivery now p.1) p.2 <;> rfl
  | markDelivered deliveryId => exact Realizes.statement (apply now (.markDelivered deliveryId))
  | markFailed deliveryId reason => exact Realizes.statement (apply now (.markFailed deliveryId reason))

theorem run_statements (now : Instant) (w : Write) (l : Ledger) :
    (w.statements now).committed.run l = settled l (w.apply now l) :=
  (w.statements_realize now).run l

/-- A request that comes to a channel without a name is refused there. By then the connection sees the
event and the deliveries of the channels before it, and nothing of that is saved. -/
theorem upsert_interrupted {l : Ledger} {choreId : String} {due : Stamp} {i : Instant}
    (present : l.choreExists choreId = true) (meant : due.instant? = some i) (now : Instant)
    (title body : String) (before : List String) (after : List (Option String)) :
    ∃ view : Ledger,
      (statements now (.upsert choreId due title body (before.map some ++ none :: after))).outcome
        ⟨l, l⟩ = (.error (.constraint (.notNull "notification_deliveries.channel")), ⟨l, view⟩) ∧
      view.HasEvent choreId i ∧ ∀ channel ∈ before, view.HasChannel choreId i channel := by
  let r : Request := ⟨now, choreId, due, title, body, before⟩
  obtain ⟨id, view, done, granted⟩ := ask_granted (r := r) present meant
  obtain ⟨i', l₁, meant', event, deliveries⟩ := upsert_ok done
  obtain rfl := Option.some.inj (meant.symm.trans meant')
  obtain ⟨e, he, named, chore, at'⟩ := granted.event
  have delivered : ((before.map some).foldlM (ensureDelivery now id) l₁).map ((), ·) =
      .ok ((), view) := by
    rw [deliveries]
    rfl
  have looped := (Realizes.forM (ensureDelivery now id) (before.map some)).ok (c := ⟨l, l₁⟩) delivered
  refine ⟨view, ?_, ⟨e, he, chore, at'⟩, fun channel member => ?_⟩
  · have first := (Realizes.statement fun l => l.ensureEvent now choreId i title body).ok
      (c := ⟨l, l⟩) event
    have checked : (check (storable due)).outcome ⟨l, l⟩ = (.ok i, ⟨l, l⟩) := by
      rw [storable_eq_ok.2 meant]
      rfl
    simp only [statements, outcome_bind, checked, first, List.forM_append, looped]
    rfl
  · obtain ⟨d, hd, event', same⟩ := granted.channels channel member
    exact ⟨e, he, chore, at', d, hd, event'.trans named.symm, same⟩

end Write

namespace Store

/-- An operation that writes and fails, at a check, at any of its statements or for want of a connection,
leaves the ledger as it was. So does a request that is refused at one of its channels, although its
connection has seen the event and the deliveries before it by then. -/
theorem failed_write_leaves_no_trace (s : Store) (now : Instant) :
    (∀ w : Write,
      (w.statements now).committed.run s.ledger =
        Transaction.settled s.ledger (w.apply now s.ledger) ∧
      (∀ f, ((w.statements now).committed.run s.ledger).1 = .error f →
        ((w.statements now).committed.run s.ledger).2 = s.ledger) ∧
      ∀ f, (s.write w.call (w.apply now)).1 = .error f →
        (s.write w.call (w.apply now)).2.ledger = s.ledger) ∧
    ∀ (choreId title body : String) (due : Stamp) (i : Instant) (before : List String)
      (after : List (Option String)), s.ledger.choreExists choreId = true → due.instant? = some i →
      ∃ view : Ledger,
        ((Write.upsert choreId due title body (before.map some ++ none :: after)).statements now).outcome
          ⟨s.ledger, s.ledger⟩ =
            (.error (.constraint (.notNull "notification_deliveries.channel")), ⟨s.ledger, view⟩) ∧
        view.HasEvent choreId i ∧ ∀ channel ∈ before, view.HasChannel choreId i channel := by
  refine ⟨fun w => ⟨w.run_statements now s.ledger, fun f failed => ?_, fun f failed => ?_⟩, ?_⟩
  · rw [Write.run_statements] at failed ⊢
    cases done : w.apply now s.ledger with
    | error f' => rfl
    | ok p =>
      rw [done] at failed
      cases failed
  · rcases s.write_cases w.call (w.apply now) with ⟨-, same⟩ | ⟨receipt, given, -⟩
    · exact same
    · rw [given] at failed
      cases failed
  · intro choreId title body due i before after present meant
    exact Write.upsert_interrupted present meant now title body before after

/-- The second of three channels has no name: neither the event nor the first delivery is saved. -/
theorem failed_write_leaves_no_trace_unnamed :
    let now : Instant := ⟨9 * Calendar.hour, by decide⟩
    let id := rowId "c0000000" 1
    let plants := Write.createChore "Plants" .onceInAWhile none none
    let request := Write.upsert id (.utc now) "Plants" "Due" [some "telegram", none, some "console"]
    let s := ofLedger ((plants.statements now).committed.run .empty).2
    s.ledger.choreExists id = true ∧ (Stamp.utc now).instant? = some now ∧
    ((request.statements now).committed.run s.ledger).2 = s.ledger ∧
    ∃ view : Ledger,
      ((request.statements now).outcome ⟨s.ledger, s.ledger⟩).2 = ⟨s.ledger, view⟩ ∧
      view.HasEvent id now ∧ view.HasChannel id now "telegram" := by
  intro now id plants request s
  have present : s.ledger.choreExists id = true := by decide +kernel
  have meant : (Stamp.utc now).instant? = some now := Stamp.instant?_utc now
  obtain ⟨traceless, interrupted⟩ := failed_write_leaves_no_trace s now
  have failed : ((request.statements now).committed.run s.ledger).1 =
      .error (.constraint (.notNull "notification_deliveries.channel")) := by decide +kernel
  obtain ⟨view, outcome, event, channels⟩ :=
    interrupted id "Plants" "Due" _ now ["telegram"] [some "console"] present meant
  refine ⟨present, meant, (traceless request).2.1 _ failed, view, ?_, event, ?_⟩
  · exact congrArg Prod.snd outcome
  · exact channels "telegram" List.mem_cons_self

end Store

end ChoreReminder
