import ChoreReminder.Proofs.Cron.Next
import ChoreReminder.Proofs.Cron.Reader
import ChoreReminder.Proofs.Schedule.Due

/-! The next due time of a chore. It is determined by the schedule and the time of reference, whenever the
chore is evaluated, and lies after the time of reference; the moment of the evaluation decides only
whether the chore is overdue. -/

namespace ChoreReminder

open Calendar

namespace Chore

/-- The due time that follows a time of reference by the schedule of a chore. -/
def FallsDueAt (c : Chore) (base due : Instant) : Prop :=
  match c.schedule with
  | .onceInAWhile => False
  | .cron e => Cron.next e base = .ok due
  | .interval days hour minute => due.micros = (base.dayNumber + days).toNat * day +
      ((hour.getD 0).toNat * Calendar.hour + (minute.getD 0).toNat * Calendar.minute)

variable {c : Chore} {base due due' : Instant} {now now' : Stamp} {info info' : DueInfo}

theorem fallsDueAt_once (schedule : c.schedule = .onceInAWhile) : ¬ c.FallsDueAt base due := by
  simp only [FallsDueAt, schedule, not_false_eq_true]

theorem fallsDueAt_cron {e : String} (schedule : c.schedule = .cron e) :
    c.FallsDueAt base due ↔ Cron.next e base = .ok due := by
  simp only [FallsDueAt, schedule]

theorem fallsDueAt_interval {days : Int} {hour minute : Option Int}
    (schedule : c.schedule = .interval days hour minute) :
    c.FallsDueAt base due ↔ due.micros = (base.dayNumber + days).toNat * day +
      ((hour.getD 0).toNat * Calendar.hour + (minute.getD 0).toNat * Calendar.minute) := by
  simp only [FallsDueAt, schedule]

theorem FallsDueAt.unique (h : c.FallsDueAt base due) (h' : c.FallsDueAt base due') : due = due' := by
  cases schedule : c.schedule with
  | onceInAWhile => exact absurd h (fallsDueAt_once schedule)
  | cron e =>
    rw [fallsDueAt_cron schedule] at h h'
    exact Except.ok.inj (h.symm.trans h')
  | interval days hour minute =>
    rw [fallsDueAt_interval schedule] at h h'
    have micros : due.micros = due'.micros := h.trans h'.symm
    cases due
    cases due'
    cases micros
    rfl

theorem lt_of_next {expression : String} (found : Cron.next expression base = .ok due) :
    base < due := by
  unfold Cron.next at found
  cases hr : Cron.read expression with
  | error f =>
    rw [hr] at found
    cases found
  | ok x =>
    rw [hr] at found
    obtain ⟨r, seconds, micros⟩ := Cron.Expression.next_ok found
    obtain ⟨-, later, -, -⟩ := Cron.Expression.nextSeconds_fires (Cron.read_ok hr).timed seconds
    show base.micros < due.micros
    rw [micros]
    exact Nat.lt_mul_of_div_lt later (by decide)

namespace Settled

theorem base_unique {base' : Instant} (h : c.Settled base) (h' : c.Settled base') : base = base' :=
  congrArg Stamp.wall (h.base.symm.trans h'.base)

theorem base_lt (h : c.Settled base) (falls : c.FallsDueAt base due) : base < due := by
  cases schedule : c.schedule with
  | onceInAWhile => exact absurd falls (fallsDueAt_once schedule)
  | cron e => exact lt_of_next ((fallsDueAt_cron schedule).1 falls)
  | interval days hour minute =>
    obtain ⟨past, valid⟩ := h.valid
    rw [schedule] at valid
    rw [fallsDueAt_interval schedule] at falls
    obtain ⟨low, -, -, -⟩ := Schedule.validate_interval valid
    have nextDay : base.dayNumber + 1 ≤ (base.dayNumber + days).toNat := by omega
    show base.micros < due.micros
    calc base.micros < (base.dayNumber + 1) * day := by
          have := Nat.lt_div_mul_add (a := base.micros) (b := day) (by decide)
          rwa [Nat.succ_mul]
      _ ≤ (base.dayNumber + days).toNat * day := Nat.mul_le_mul_right day nextDay
      _ ≤ due.micros := by
        rw [falls]
        exact Nat.le_add_right _ _

theorem due_cases (h : c.Settled base) (found : c.due now = .due info) :
    (info = ⟨c, none, false⟩ ∧ c.schedule = .onceInAWhile) ∨
    ∃ n due, now.instant? = some n ∧ c.FallsDueAt base due ∧ info = ⟨c, some due, due ≤ n⟩ := by
  have at' {n due : Instant} (given : Schedule.dueAt c n due = .due info) :
      info = ⟨c, some due, due ≤ n⟩ := (DueResult.due.inj given).symm
  unfold due at found
  cases schedule : c.schedule with
  | onceInAWhile =>
    rw [schedule] at found
    exact .inl ⟨(DueResult.due.inj found).symm, rfl⟩
  | cron e =>
    rw [schedule] at found
    cases hn : now.instant? with
    | none => simp [hn] at found
    | some n =>
      simp only [hn, Schedule.cronDue, Schedule.nextOccurrence, h.base, Stamp.instant?_utc] at found
      cases hc : Cron.next e base with
      | error t => cases t <;> simp [hc] at found
      | ok due =>
        rw [hc] at found
        exact .inr ⟨n, due, rfl, (fallsDueAt_cron schedule).2 hc, at' found⟩
  | interval days hour minute =>
    rw [schedule] at found
    cases hn : now.instant? with
    | none => simp [hn] at found
    | some n =>
      obtain ⟨past, valid⟩ := h.valid
      rw [schedule] at valid
      obtain ⟨low, -, inDay, inHour⟩ := Schedule.validate_interval valid
      simp only [hn, h.due_interval schedule] at found
      split at found
      · cases found
      · next within =>
        obtain ⟨due, same, micros⟩ := Schedule.dayDue_eq c n (d := (base.dayNumber + days).toNat)
          (by omega) inDay inHour
        rw [same] at found
        exact .inr ⟨n, due, rfl, (fallsDueAt_interval schedule).2 micros, at' found⟩

theorem falls_of_due (h : c.Settled base) (found : c.due now = .due info)
    (next : info.nextDue = some due) : c.FallsDueAt base due := by
  rcases h.due_cases found with ⟨rfl, -⟩ | ⟨n, due', -, falls, rfl⟩
  · cases next
  · cases next
    exact falls

theorem nextDue_eq (h : c.Settled base) (found : c.due now = .due info)
    (found' : c.due now' = .due info') : info.nextDue = info'.nextDue := by
  rcases h.due_cases found with ⟨rfl, once⟩ | ⟨n, due, -, falls, rfl⟩
  · rcases h.due_cases found' with ⟨rfl, -⟩ | ⟨n', due', -, falls', rfl⟩
    · rfl
    · exact absurd falls' (fallsDueAt_once once)
  · rcases h.due_cases found' with ⟨rfl, once⟩ | ⟨n', due', -, falls', rfl⟩
    · exact absurd falls (fallsDueAt_once once)
    · exact congrArg some (falls.unique falls')

theorem due_le_of_overdue (h : c.Settled base) (found : c.due now = .due info)
    (overdue : info.isOverdue = true) :
    ∃ n due, now.instant? = some n ∧ c.FallsDueAt base due ∧ due ≤ n := by
  rcases h.due_cases found with ⟨rfl, -⟩ | ⟨n, due, moment, falls, rfl⟩
  · cases overdue
  · exact ⟨n, due, moment, falls, of_decide_eq_true overdue⟩

end Settled

end Chore

end ChoreReminder
