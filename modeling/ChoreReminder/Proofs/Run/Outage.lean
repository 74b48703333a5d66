import ChoreReminder.Proofs.Run.Basic

/-! Runs on a store whose calls may fail. Outages are announced between the steps, and a call that meets
one does not reach the ledger; so a step may go through in part. On a store without outages a step does
what it does to its ledger. -/

namespace ChoreReminder

/-- An episode of a run: a step, or outages that the next calls of the store meet. -/
inductive Episode where
  | outage (outage : Outage)
  | step (step : Step)

namespace Episode

def action? : Episode → Option Action
  | outage _ => none
  | step s => some s.action

end Episode

namespace Store

def perform (s : Store) (step : Step) : Store :=
  match step.action with
  | .createChore name schedule description createdAt =>
    (s.write .createChore fun l => l.createChore step.now name schedule description createdAt).2
  | .updateSchedule id schedule =>
    (s.write .updateSchedule fun l => l.updateSchedule step.now id schedule).2
  | .deleteChore id => (s.write .deleteChore fun l => .ok (l.deleteChore id)).2
  | .complete choreId completedAt notes =>
    (s.write .complete fun l => l.complete step.now choreId completedAt notes).2
  | .upsert choreId due title body channels =>
    (s.write .upsert fun l => l.upsert step.now choreId due title body channels).2
  | .markDelivered id => (s.write .markDelivered fun l => .ok (l.markDelivered step.now id)).2
  | .markFailed id reason => (s.write .markFailed fun l => .ok (l.markFailed step.now id reason)).2
  | .generate time channels => (Generator.tick step.now time channels s).store
  | .dispatch crew batchSize maxAttempts =>
    (Dispatcher.tick crew.send crew.registry step.now batchSize maxAttempts s crew.state).store
  | .press channel query wire => (Press.handle channel step.now query ⟨s, wire, []⟩).2.store

def after (s : Store) : Episode → Store
  | .outage outage => s.announce outage
  | .step step => s.perform step

def run (s : Store) : List Episode → Store
  | [] => s
  | t :: rest => run (s.after t) rest

theorem run_append (s : Store) (before later : List Episode) :
    s.run (before ++ later) = (s.run before).run later := by
  induction before generalizing s with
  | nil => rfl
  | cons t rest ih => exact ih _

theorem perform_outages (l : Ledger) (step : Step) : ((ofLedger l).perform step).outages = [] := by
  obtain ⟨now, action⟩ := step
  cases action with
  | generate time channels => exact Generator.tick_outages l now time channels
  | dispatch crew batchSize maxAttempts =>
    have tick := Dispatcher.tick_marks crew.send crew.registry now maxAttempts batchSize l crew.state
    exact congrArg Store.outages tick.2
  | press channel query wire =>
    exact Press.handle_outages (d := ⟨ofLedger l, wire, []⟩) channel now query rfl
  | _ => exact write_outages rfl _ _

theorem perform_ofLedger (l : Ledger) (step : Step) :
    (ofLedger l).perform step = ofLedger (l.perform step).ledger := by
  have same : ((ofLedger l).perform step).ledger = (l.perform step).ledger := by
    obtain ⟨now, action⟩ := step
    cases action <;> rfl
  rw [← same]
  exact eq_ofLedger (perform_outages l step)

end Store

end ChoreReminder
