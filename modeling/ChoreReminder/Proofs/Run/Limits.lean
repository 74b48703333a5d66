import ChoreReminder.Proofs.Ledger.Backlog
import ChoreReminder.Proofs.Lookup
import ChoreReminder.Proofs.Run.Effect
import ChoreReminder.Settings.Basic

/-! Limits from the settings and ticks of the dispatcher. The settings take any number from 1 on, while the ledger
refuses one that does not fit a 64-bit word, before it looks at a delivery. So a tick with accepted limits attempts
something wherever a delivery waits, unless one of the limits is too large; then it attempts nothing at all and
says only that the deliveries could not be loaded. -/

namespace ChoreReminder

theorem Reading.ap_eq_ok {α β : Type} {f : Reading (α → β)} {x : Reading α} {b : β} :
    Reading.ap f x = .ok b ↔ ∃ g a, f = .ok g ∧ x = .ok a ∧ g a = b := by
  cases f <;> cases x <;> simp [Reading.ap]

namespace Datum

theorem low_le_of_toIntFrom {low n : Int} {d : Datum} (read : toIntFrom low d = .ok n) : low ≤ n := by
  unfold toIntFrom Reading.check at read
  cases whole : d.toInt with
  | error cs => simp [whole] at read
  | ok m =>
    rw [whole] at read
    by_cases le : low ≤ m
    · simp only [decide_eq_true le, if_true, Except.ok.injEq] at read
      exact read ▸ le
    · simp [le, Reading.fail] at read

theorem low_le_of_optionalField {low n absent : Int} {d : Datum} {name : String} (least : low ≤ absent)
    (read : d.optionalField name (toIntFrom low) absent = .ok n) : low ≤ n := by
  unfold optionalField at read
  cases present : d.get? name with
  | none =>
    simp only [present, Except.ok.injEq] at read
    exact read ▸ least
  | some v =>
    cases given : toIntFrom low v with
    | error cs => simp [present, given, Reading.under] at read
    | ok m =>
      simp only [present, given, Reading.under, Except.ok.injEq] at read
      exact read ▸ low_le_of_toIntFrom given

end Datum

namespace NotificationSettings

def Accepts (batchSize maxAttempts : Int) : Prop :=
  ∃ (d : Datum) (s : NotificationSettings), ofDatum d = .ok s ∧ s.batchSize = batchSize ∧ s.maxAttempts = maxAttempts

theorem accepts_iff {batchSize maxAttempts : Int} :
    Accepts batchSize maxAttempts ↔ 1 ≤ batchSize ∧ 1 ≤ maxAttempts := by
  constructor
  · rintro ⟨d, s, read, rfl, rfl⟩
    -- The members are read one after the other, so the last one comes off first.
    obtain ⟨_, _, toBatch, -, rfl⟩ := Reading.ap_eq_ok.1 read
    obtain ⟨_, _, toAttempts, readBatch, rfl⟩ := Reading.ap_eq_ok.1 toBatch
    obtain ⟨_, _, toDispatch, readAttempts, rfl⟩ := Reading.ap_eq_ok.1 toAttempts
    obtain ⟨_, _, toPoll, -, rfl⟩ := Reading.ap_eq_ok.1 toDispatch
    obtain ⟨_, _, toEnabled, -, rfl⟩ := Reading.ap_eq_ok.1 toPoll
    obtain ⟨_, -, rfl⟩ := map_eq_ok.1 toEnabled
    exact ⟨Datum.low_le_of_optionalField (by decide) readBatch, Datum.low_le_of_optionalField (by decide) readAttempts⟩
  · rintro ⟨batch, attempts⟩
    refine ⟨.obj [("batch_size", .int batchSize), ("max_attempts", .int maxAttempts)],
      { batchSize := batchSize, maxAttempts := maxAttempts }, ?_, rfl, rfl⟩
    have readBatch : Datum.toIntFrom 1 (.int batchSize) = .ok batchSize := by
      simp [Datum.toIntFrom, Datum.toInt, Reading.check, batch]
    have readAttempts : Datum.toIntFrom 1 (.int maxAttempts) = .ok maxAttempts := by
      simp [Datum.toIntFrom, Datum.toInt, Reading.check, attempts]
    simp [ofDatum, Datum.optionalField, Datum.get?, lookup_cons_ite, Reading.under, Reading.ap, Except.map, readBatch,
      readAttempts]

end NotificationSettings

namespace Ledger

variable {l : Ledger} {limit batchSize maxAttempts : Int}

theorem pending_refused (low : 1 ≤ limit ∧ 1 ≤ maxAttempts) (wide : ¬ (limit < 2 ^ 63 ∧ maxAttempts < 2 ^ 63)) :
    l.pending limit maxAttempts = .error (.overflow .stored) := by
  unfold pending
  by_cases attempts : maxAttempts < 2 ^ 63
  · have cut : 2 ^ 63 ≤ limit := Int.not_lt.1 fun small => wide ⟨small, attempts⟩
    rw [fitting_ok (by omega) attempts, fitting_error cut]
    rfl
  · rw [fitting_error (Int.not_lt.1 attempts)]
    rfl

/-- Where a delivery waits, a tick with accepted limits attempts one exactly if both limits fit a word. Otherwise
it does nothing but to say that the deliveries could not be loaded. -/
theorem accepted_limits_attempt (episodes : List Episode)
    (accepted : NotificationSettings.Accepts batchSize maxAttempts)
    (waiting : ∃ d ∈ ((Store.ofLedger empty).run episodes).ledger.deliveries,
      d.status ≠ .delivered ∧ (d.attemptCount : Int) < maxAttempts) (now : Instant) (crew : Crew) :
    let l := ((Store.ofLedger empty).run episodes).ledger
    let tick := Dispatcher.tick crew.send crew.registry now batchSize maxAttempts (.ofLedger l) crew.state
    (tick.attempts ≠ [] ↔ batchSize < 2 ^ 63 ∧ maxAttempts < 2 ^ 63) ∧
      (¬ (batchSize < 2 ^ 63 ∧ maxAttempts < 2 ^ 63) →
        tick = ⟨[], .ofLedger l, crew.state, [.pendingUnavailable (.overflow .stored)]⟩) := by
  intro l tick
  have sound : Sound l := Store.run_sound episodes
  have low := NotificationSettings.accepts_iff.1 accepted
  have idle (wide : ¬ (batchSize < 2 ^ 63 ∧ maxAttempts < 2 ^ 63)) :
      tick = ⟨[], .ofLedger l, crew.state, [.pendingUnavailable (.overflow .stored)]⟩ := by
    simp only [tick, Dispatcher.tick, Store.read_ofLedger, pending_refused low wide]
  refine ⟨⟨fun attempted => ?_, fun fit => ?_⟩, idle⟩
  · by_contra wide
    exact attempted (congrArg Dispatched.attempts (idle wide))
  · obtain ⟨ps, pending, length⟩ := sound.pending_length ⟨low.1, fit.1⟩ ⟨low.2, fit.2⟩
    obtain ⟨tried, -⟩ := Dispatcher.tick_marks crew.send crew.registry now maxAttempts batchSize l crew.state
    obtain ⟨d, member, undelivered, left⟩ := waiting
    have eligible : isEligible maxAttempts d = true := by
      simp [isEligible, undelivered, left]
    have positive : 0 < l.deliveries.countP (isEligible maxAttempts) := List.countP_pos_iff.2 ⟨d, member, eligible⟩
    intro untried
    have nothing : ps = [] := by
      rw [pending] at tried
      exact tried.symm.trans (congrArg _ untried)
    rw [nothing, List.length_nil] at length
    omega

/-- One delivery waits. It is attempted with the largest batch of a word, and not with one more. -/
theorem accepted_limits_attempt_word :
    let start : Instant := ⟨0, by decide⟩
    let crew : Crew := ⟨Unit, Unit, Registry.empty.register "telegram" (), fun _ _ s => (.ok (), s), ()⟩
    let episodes : List Episode := [
      .step ⟨start, .createChore "Plants" .onceInAWhile none none⟩,
      .step ⟨start, .upsert (rowId "c0000000" 1) (.utc start) "Plants" "Due" [some "telegram"]⟩]
    let l := ((Store.ofLedger empty).run episodes).ledger
    let tick (batchSize : Int) :=
      Dispatcher.tick crew.send crew.registry start batchSize 5 (.ofLedger l) crew.state
    (tick (2 ^ 63 - 1)).attempts ≠ [] ∧
      tick (2 ^ 63) = ⟨[], .ofLedger l, crew.state, [.pendingUnavailable (.overflow .stored)]⟩ := by
  intro start crew episodes l tick
  have accepted (batchSize : Int) (positive : 1 ≤ batchSize) : NotificationSettings.Accepts batchSize 5 :=
    NotificationSettings.accepts_iff.2 ⟨positive, by decide⟩
  have waiting : ∃ d ∈ l.deliveries, d.status ≠ .delivered ∧ (d.attemptCount : Int) < 5 := by decide +kernel
  obtain ⟨attempted, -⟩ := accepted_limits_attempt episodes (accepted (2 ^ 63 - 1) (by decide)) waiting start crew
  obtain ⟨-, idle⟩ := accepted_limits_attempt episodes (accepted (2 ^ 63) (by decide)) waiting start crew
  exact ⟨attempted.2 (by decide), idle (by decide)⟩

/-- An accepted batch of 2 ^ 63 leaves a delivery waiting that was never attempted. -/
theorem accepted_batch_stalls :
    ¬ ∀ (episodes : List Episode) (batchSize maxAttempts : Int) (now : Instant) (crew : Crew),
      let l := ((Store.ofLedger empty).run episodes).ledger
      NotificationSettings.Accepts batchSize maxAttempts →
      (∃ d ∈ l.deliveries, d.status ≠ .delivered ∧ (d.attemptCount : Int) < maxAttempts) →
      (Dispatcher.tick crew.send crew.registry now batchSize maxAttempts (.ofLedger l) crew.state).attempts ≠ [] := by
  intro always
  let start : Instant := ⟨0, by decide⟩
  let crew : Crew := ⟨Unit, Unit, .empty, fun _ _ s => (.ok (), s), ()⟩
  let episodes : List Episode := [
    .step ⟨start, .createChore "Plants" .onceInAWhile none none⟩,
    .step ⟨start, .upsert (rowId "c0000000" 1) (.utc start) "Plants" "Due" [some "telegram"]⟩]
  have accepted : NotificationSettings.Accepts (2 ^ 63) 5 := NotificationSettings.accepts_iff.2 (by decide)
  have stalled : (Dispatcher.tick crew.send crew.registry start (2 ^ 63) 5
      (.ofLedger ((Store.ofLedger empty).run episodes).ledger) crew.state).attempts = [] := by decide +kernel
  exact always episodes (2 ^ 63) 5 start crew accepted (by decide +kernel) stalled

end Ledger

end ChoreReminder
