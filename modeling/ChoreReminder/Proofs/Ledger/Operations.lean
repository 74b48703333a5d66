import ChoreReminder.Ledger.Deliveries
import ChoreReminder.Proofs.Outcome

/-! What an operation of the ledger did, given that it went through: the guards that it passed and the
ledger it left behind. Later arguments about the ledger use these statements and do not open the
operations again. -/

namespace ChoreReminder.Ledger

def newChoreRow (l : Ledger) (now : Instant) (name : String) (schedule : Schedule)
    (description : Option String) (created : Instant) : ChoreRow :=
  ChoreRow.withSchedule {
    id := l.nextChoreId, name, description, kind := "", cron := none, days := .null, hour := .null,
    minute := .null, createdAt := created.stored, updatedAt := now.stored } schedule

theorem storable_eq_ok {t : Stamp} {i : Instant} : storable t = .ok i ↔ t.instant? = some i := by
  unfold storable
  cases t.instant? <;> simp

theorem insertChore_eq_ok {l : Ledger} {r : ChoreRow} {rows : List ChoreRow} :
    l.insertChore r = .ok rows ↔
      r.brokenRule? = none ∧ l.choreExists r.id = false ∧ rows = l.chores ++ [r] := by
  unfold insertChore
  cases h : r.brokenRule? with
  | some rule => simp
  | none =>
    cases h' : l.choreExists r.id <;> simp [eq_comm]

theorem createChore_ok {l l' : Ledger} {now : Instant} {name : String} {schedule : Schedule}
    {description : Option String} {createdAt : Option Stamp} {chore : Chore}
    (h : l.createChore now name schedule description createdAt = .ok (chore, l')) :
    schedule.validate (.utc now) = .ok () ∧
    ∃ created, (createdAt.getD (.utc now)).instant? = some created ∧
      (l.newChoreRow now name schedule description created).brokenRule? = none ∧
      l' = { l with
        chores := l.chores ++ [l.newChoreRow now name schedule description created]
        ids := { l.ids with chores := l.ids.chores + 1 } } := by
  simp only [createChore, bind_eq_ok, pure_eq_ok, mapError_eq_ok, storable_eq_ok,
    insertChore_eq_ok] at h
  obtain ⟨_, valid, created, hc, rows, ⟨rule, _, rfl⟩, h⟩ := h
  rw [Prod.mk.injEq] at h
  exact ⟨valid, created, hc, rule, h.2.symm⟩

theorem createChore_chore {l l' : Ledger} {now : Instant} {name : String} {schedule : Schedule}
    {description : Option String} {createdAt : Option Stamp} {chore : Chore}
    (h : l.createChore now name schedule description createdAt = .ok (chore, l')) :
    chore = ⟨l.nextChoreId, name, description, schedule, createdAt.getD (.utc now), .utc now, none⟩ := by
  simp only [createChore, bind_eq_ok, pure_eq_ok] at h
  obtain ⟨_, -, _, -, _, -, same⟩ := h
  exact (Prod.mk.inj same).1.symm

theorem createChore_id {l l' : Ledger} {now : Instant} {name : String} {schedule : Schedule}
    {description : Option String} {createdAt : Option Stamp} {chore : Chore}
    (h : l.createChore now name schedule description createdAt = .ok (chore, l')) :
    chore.id = l.nextChoreId := by
  rw [createChore_chore h]

def rescheduled (now : Instant) (schedule : Schedule) (r : ChoreRow) : ChoreRow :=
  { r.withSchedule schedule with updatedAt := now.stored }

theorem updateSchedule_ok {l l' : Ledger} {now : Instant} {id : String} {schedule : Schedule}
    {found : Bool} (h : l.updateSchedule now id schedule = .ok (found, l')) :
    schedule.validate (.utc now) = .ok () ∧ found = l.choreExists id ∧
    l' = { l with
      chores := l.chores.map fun r => if r.id = id then rescheduled now schedule r else r } := by
  simp only [updateSchedule, bind_eq_ok, mapError_eq_ok] at h
  obtain ⟨_, valid, h⟩ := h
  refine ⟨valid, ?_⟩
  cases hr : l.chores.find? (·.id = id) with
  | none =>
    simp only [hr, pure_eq_ok, Prod.mk.injEq] at h
    have absent : ∀ r ∈ l.chores, r.id ≠ id := by simpa using hr
    obtain ⟨rfl, rfl⟩ := h
    refine ⟨by simpa [choreExists] using absent, ?_⟩
    have same : (l.chores.map fun r => if r.id = id then rescheduled now schedule r else r) =
        l.chores :=
      (List.map_congr_left fun r hm => if_neg (absent r hm)).trans (List.map_id' _)
    rw [same]
  | some r =>
    simp only [hr] at h
    split at h
    · simp at h
    · simp only [pure_eq_ok, Prod.mk.injEq] at h
      obtain ⟨rfl, rfl⟩ := h
      refine ⟨?_, rfl⟩
      have present := List.find?_some hr
      have member := List.mem_of_find?_eq_some hr
      simp only [choreExists]
      exact (List.any_eq_true.2 ⟨r, member, present⟩).symm

def newCompletionRow (l : Ledger) (now : Instant) (choreId : String) (completed : Instant)
    (notes : Option String) : CompletionRow where
  id := l.nextCompletionId
  choreId := choreId
  completedAt := completed.stored
  notes := notes
  createdAt := now.stored

theorem complete_ok {l l' : Ledger} {now : Instant} {choreId : String} {completedAt : Option Stamp}
    {notes : Option String} {completion : Completion}
    (h : l.complete now choreId completedAt notes = .ok (completion, l')) :
    l.choreExists choreId = true ∧
    ∃ completed, (completedAt.getD (.utc now)).instant? = some completed ∧
      l' = { l with
        completions := l.completions ++ [l.newCompletionRow now choreId completed notes]
        ids := { l.ids with completions := l.ids.completions + 1 } } := by
  simp only [complete, bind_eq_ok, storable_eq_ok] at h
  obtain ⟨completed, hc, h⟩ := h
  cases he : l.choreExists choreId with
  | false => simp [he] at h
  | true =>
    simp only [he, Bool.not_true, Bool.false_eq_true, ↓reduceIte, pure_eq_ok, Prod.mk.injEq] at h
    exact ⟨rfl, completed, hc, h.2.symm⟩

theorem complete_ne {l l' : Ledger} {now : Instant} {choreId : String} {completedAt : Option Stamp}
    {notes : Option String} {completion : Completion}
    (h : l.complete now choreId completedAt notes = .ok (completion, l')) : l' ≠ l := by
  obtain ⟨-, completed, -, added⟩ := complete_ok h
  intro same
  have more := congrArg (·.completions.length) (same.symm.trans added)
  simp at more

/-! ### Events and deliveries -/

def newEvent (l : Ledger) (now : Instant) (choreId : String) (due : Instant)
    (title body : String) : Event where
  id := l.nextEventId
  choreId := choreId
  dueAt := due
  title := title
  body := body
  createdAt := now

def addEvent (l : Ledger) (e : Event) : Ledger :=
  { l with events := l.events ++ [e], ids := { l.ids with events := l.ids.events + 1 } }

theorem ensureEvent_ok {l l' : Ledger} {now : Instant} {choreId : String} {due : Instant}
    {title body id : String} (h : l.ensureEvent now choreId due title body = .ok (id, l')) :
    (∃ e, l.eventFor? choreId due = some e ∧ id = e.id ∧ l' = l) ∨
    (l.eventFor? choreId due = none ∧ l.choreExists choreId = true ∧ id = l.nextEventId ∧
      l' = l.addEvent (l.newEvent now choreId due title body)) := by
  unfold ensureEvent at h
  cases he : l.eventFor? choreId due with
  | some e =>
    simp only [he, Except.ok.injEq, Prod.mk.injEq] at h
    exact .inl ⟨e, rfl, h.1.symm, h.2.symm⟩
  | none =>
    simp only [he] at h
    split at h
    · next hc =>
      simp only [Except.ok.injEq, Prod.mk.injEq] at h
      exact .inr ⟨rfl, hc, h.1.symm, h.2.symm⟩
    · simp at h

def newDelivery (l : Ledger) (now : Instant) (eventId channel : String) : Delivery where
  id := l.nextDeliveryId
  eventId := eventId
  channel := channel
  status := .pending
  attemptCount := 0
  lastError := none
  lastAttemptedAt := none
  deliveredAt := none
  createdAt := now
  updatedAt := now

def addDelivery (l : Ledger) (d : Delivery) : Ledger :=
  { l with
    deliveries := l.deliveries ++ [d]
    ids := { l.ids with deliveries := l.ids.deliveries + 1 } }

theorem ensureDelivery_ok {l l' : Ledger} {now : Instant} {eventId : String}
    {channel : Option String} (h : ensureDelivery now eventId l channel = .ok l') :
    ∃ name, channel = some name ∧
      ((∃ d, l.deliveryFor? eventId name = some d ∧ l' = l) ∨
       (l.deliveryFor? eventId name = none ∧ l' = l.addDelivery (l.newDelivery now eventId name))) := by
  cases channel with
  | none => simp [ensureDelivery] at h
  | some name =>
    refine ⟨name, rfl, ?_⟩
    cases hd : l.deliveryFor? eventId name with
    | some d =>
      simp only [ensureDelivery, hd, Except.ok.injEq] at h
      exact .inl ⟨d, rfl, h.symm⟩
    | none =>
      simp only [ensureDelivery, hd, Except.ok.injEq] at h
      exact .inr ⟨rfl, h.symm⟩

theorem upsert_ok {l l' : Ledger} {now : Instant} {choreId : String} {due : Stamp}
    {title body id : String} {channels : List (Option String)}
    (h : l.upsert now choreId due title body channels = .ok (id, l')) :
    ∃ dueInstant l₁, due.instant? = some dueInstant ∧
      l.ensureEvent now choreId dueInstant title body = .ok (id, l₁) ∧
      channels.foldlM (ensureDelivery now id) l₁ = .ok l' := by
  simp only [upsert, bind_eq_ok, pure_eq_ok, storable_eq_ok] at h
  obtain ⟨dueInstant, hd, ⟨eventId, l₁⟩, he, l₂, hf, h⟩ := h
  rw [Prod.mk.injEq] at h
  obtain ⟨rfl, rfl⟩ := h
  exact ⟨dueInstant, l₁, hd, he, hf⟩

end ChoreReminder.Ledger
