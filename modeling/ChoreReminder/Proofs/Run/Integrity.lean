import ChoreReminder.Proofs.Calendar.Order
import ChoreReminder.Proofs.Run.Effect

/-! The integrity of the ledger over whole runs, whichever calls fail on the way. Besides the rules between
the tables, which hold after every run, rows last: an event stays as it was created, a delivery stays with
its event and its channel, and both go only when their chore is removed. -/

namespace ChoreReminder

namespace Ledger

variable {l l' : Ledger} {t : Episode}

theorem eventFor?_stored (l : Ledger) (choreId : String) (due : Instant) :
    l.eventFor? choreId due =
      l.events.find? fun e => e.choreId = choreId ∧ e.dueAt.stored = due.stored := by
  simp only [eventFor?, Instant.stored_inj]

/-! ### Rows that stay -/

/-- The delivery with the same id, for the same event and channel; its marks may differ. -/
def HasDelivery (l : Ledger) (d : Delivery) : Prop :=
  ∃ d' ∈ l.deliveries, d'.id = d.id ∧ d'.eventId = d.eventId ∧ d'.channel = d.channel

theorem Effect.keeps_delivery (h : Effect l t l') {d : Delivery} (hd : d ∈ l.deliveries) :
    l'.HasDelivery d ∨
      ∃ e ∈ l.events, e.id = d.eventId ∧ t.action? = some (.deleteChore e.choreId) := by
  have stays (member : d ∈ l'.deliveries) : l'.HasDelivery d := ⟨d, member, rfl, rfl, rfl⟩
  rcases h.notifications with ⟨-, ms, deliveries⟩ | ⟨id, action, rfl⟩ | ⟨-, grown⟩
  · have marked : ms.foldl (fun d m => d.marked m) d ∈ l'.deliveries :=
      deliveries ▸ List.mem_map_of_mem hd
    exact .inl ⟨_, marked, foldl_marked_id ms d, foldl_marked_target ms d⟩
  · by_cases removed : ∃ e ∈ l.events, e.id = d.eventId ∧ e.choreId = id
    · obtain ⟨e, he, same, rfl⟩ := removed
      exact .inr ⟨e, he, same, action⟩
    · exact .inl (stays (List.mem_filter.2 ⟨hd, by simpa using removed⟩))
  · exact .inl (stays (grown.deliveries.subset hd))

/-! ### Events that do not change -/

theorem Change.event (h : Change l l') :
    l.ids.events ≤ l'.ids.events ∧
      ∀ e ∈ l'.events, e ∈ l.events ∨ ¬ IsIssued "e0000000" l.ids.events e.id := by
  cases h with
  | createChore done =>
    obtain ⟨-, created, -, -, rfl⟩ := createChore_ok done
    exact ⟨Nat.le_refl _, fun e he => .inl he⟩
  | updateSchedule done =>
    obtain ⟨-, -, rfl⟩ := updateSchedule_ok done
    exact ⟨Nat.le_refl _, fun e he => .inl he⟩
  | deleteChore id => exact ⟨Nat.le_refl _, fun e he => .inl (List.mem_filter.1 he).1⟩
  | complete done =>
    obtain ⟨-, completed, -, rfl⟩ := complete_ok done
    exact ⟨Nat.le_refl _, fun e he => .inl he⟩
  | addEvent =>
    refine ⟨Nat.le_succ _, fun e he => ?_⟩
    rcases List.mem_append.1 he with he | he
    · exact .inl he
    · rw [List.mem_singleton.1 he]
      exact .inr (not_isIssued_next _ _)
  | addDelivery => exact ⟨Nat.le_refl _, fun e he => .inl he⟩

theorem Course.event {ms : List Mark} (h : Course l ms l') {e : Event} (he : e ∈ l'.events) :
    e ∈ l.events ∨ ¬ IsIssued "e0000000" l.ids.events e.id := by
  induction h with
  | refl => exact .inl he
  | change first rest ih =>
    obtain ⟨le, rows⟩ := first.event
    rcases ih he with before | fresh
    · exact rows e before
    · exact .inr fun issued => fresh (issued.mono le)
  | mark rest ih =>
    rw [mark_ledger] at ih
    exact ih he

theorem Sound.event_unchanged (sound : Sound l) {ms : List Mark} (h : Course l ms l') {e e' : Event}
    (he : e ∈ l.events) (he' : e' ∈ l'.events) (same : e'.id = e.id) : e' = e := by
  rcases h.event he' with before | fresh
  · exact eq_of_key sound.eventIds before he same
  · exact absurd (same ▸ sound.eventsIssued e he) fresh

end Ledger

open Ledger (Sound)

namespace Store

/-! ### Runs -/

theorem run_keeps_event {s : Store} {e : Event} (he : e ∈ s.ledger.events) (later : List Episode) :
    e ∈ (s.run later).ledger.events ∨ ∃ t ∈ later, t.action? = some (.deleteChore e.choreId) := by
  induction later generalizing s with
  | nil => exact .inl he
  | cons t rest ih =>
    rcases (s.episode_effect t).keeps_event he with still | ⟨removed, -⟩
    · rcases ih still with still | ⟨t', member, removed⟩
      · exact .inl still
      · exact .inr ⟨t', List.mem_cons_of_mem _ member, removed⟩
    · exact .inr ⟨t, List.mem_cons_self, removed⟩

/-- The event of a delivery stays as long as the delivery does, so the removal that takes the delivery
away is that of the chore of this event. -/
theorem run_keeps_delivery {s : Store} (sound : Sound s.ledger) {d : Delivery}
    (hd : d ∈ s.ledger.deliveries) {e : Event} (he : e ∈ s.ledger.events) (event : e.id = d.eventId)
    (later : List Episode) :
    (s.run later).ledger.HasDelivery d ∨
      ∃ t ∈ later, t.action? = some (.deleteChore e.choreId) := by
  induction later generalizing s d with
  | nil => exact .inl ⟨d, hd, rfl, rfl, rfl⟩
  | cons t rest ih =>
    have effect := s.episode_effect t
    obtain ⟨ms, course⟩ := effect.course
    rcases effect.keeps_event he with eventStill | ⟨removed, -⟩
    · rcases effect.keeps_delivery hd with kept | ⟨e', he', same, removed⟩
      · obtain ⟨d₁, still, id, eventId, channel⟩ := kept
        rcases ih (sound.course course) still eventStill (event.trans eventId.symm) with
          ⟨d', member, id', eventId', channel'⟩ | ⟨t', member, removed⟩
        · exact .inl ⟨d', member, id'.trans id, eventId'.trans eventId, channel'.trans channel⟩
        · exact .inr ⟨t', List.mem_cons_of_mem _ member, removed⟩
      · obtain rfl := Ledger.eq_of_key sound.eventIds he' he (same.trans event.symm)
        exact .inr ⟨t, List.mem_cons_self, removed⟩
    · exact .inr ⟨t, List.mem_cons_self, removed⟩

/-- After every run rows refer to rows that exist, ids and keys are unique, also as texts, and whatever
follows, an event keeps all its parts; it stays, as its deliveries do, until its chore is removed. -/
theorem store_integrity (before later : List Episode) :
    let l := ((ofLedger .empty).run before).ledger
    let l' := ((ofLedger .empty).run (before ++ later)).ledger
    ((∀ c ∈ l.completions, ∃ r ∈ l.chores, r.id = c.choreId) ∧
      (∀ e ∈ l.events, ∃ r ∈ l.chores, r.id = e.choreId) ∧
      (∀ d ∈ l.deliveries, ∃ e ∈ l.events, e.id = d.eventId)) ∧
    ((l.chores.map (·.id)).Nodup ∧ (l.completions.map (·.id)).Nodup ∧
      (l.events.map (·.id)).Nodup ∧ (l.deliveries.map (·.id)).Nodup) ∧
    ((l.events.map fun e => (e.choreId, e.dueAt)).Nodup ∧
      (l.events.map fun e => (e.choreId, e.dueAt.stored)).Nodup ∧
      (∀ choreId due, l.eventFor? choreId due =
        l.events.find? fun e => e.choreId = choreId ∧ e.dueAt.stored = due.stored) ∧
      (l.deliveries.map fun d => (d.eventId, d.channel)).Nodup) ∧
    (∀ e ∈ l.events,
      (∀ e' ∈ l'.events, e'.id = e.id → e' = e) ∧
      (e ∈ l'.events ∨ ∃ t ∈ later, t.action? = some (.deleteChore e.choreId))) ∧
    ∀ d ∈ l.deliveries, ∀ e ∈ l.events, e.id = d.eventId →
      l'.HasDelivery d ∨ ∃ t ∈ later, t.action? = some (.deleteChore e.choreId) := by
  intro l l'
  have sound : Sound l := run_sound before
  have follows : l' = (((ofLedger .empty).run before).run later).ledger :=
    congrArg Store.ledger (run_append _ before later)
  have texts : (l.events.map fun e => (e.choreId, e.dueAt.stored)).Nodup := by
    have keys := sound.eventKeys.map (f := fun key => (key.1, Instant.stored key.2)) fun k k' same => by
      obtain ⟨chore, due⟩ := Prod.mk.inj same
      exact Prod.ext chore (Instant.stored_inj.1 due)
    rwa [List.map_map] at keys
  obtain ⟨ms, course⟩ := ((ofLedger .empty).run before).run_course later
  rw [follows]
  refine ⟨⟨sound.completionChore, sound.eventChore, sound.deliveryEvent⟩,
    ⟨sound.choreIds, sound.completionIds, sound.eventIds, sound.deliveryIds⟩,
    ⟨sound.eventKeys, texts, l.eventFor?_stored, sound.deliveryKeys⟩, ?_, ?_⟩
  · intro e he
    exact ⟨fun e' he' same => sound.event_unchanged course he he' same, run_keeps_event he later⟩
  · intro d hd e he event
    exact run_keeps_delivery sound hd he event later

end Store

end ChoreReminder
