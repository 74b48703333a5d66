import ChoreReminder.Proofs.Ledger.Kept
import ChoreReminder.Schedule.Agenda

/-! When the evaluation of a chore breaks off. A schedule that was accepted keeps days and clock in
their ranges, so only dates past the last year are left: the moment of the evaluation, the day that an
interval leads to, and what a cron expression searches through. -/

namespace ChoreReminder

open Calendar

theorem Schedule.validateInterval_ok {days : Int} {hour minute : Option Int}
    (valid : validateInterval days hour minute = .ok ()) :
    1 ≤ days ∧ days ≤ 365 ∧ (0 ≤ hour.getD 0 ∧ hour.getD 0 ≤ 23) ∧
      0 ≤ minute.getD 0 ∧ minute.getD 0 ≤ 59 := by
  unfold validateInterval at valid
  split at valid
  · simp at valid
  · next short =>
    split at valid
    · simp at valid
    · next long =>
      split at valid
      · simp at valid
      · next inDay =>
        split at valid
        · simp at valid
        · next inHour =>
          simp only [minIntervalDays, maxIntervalDays] at short long
          refine ⟨by omega, by omega, ?_, ?_⟩
          · cases hour with
            | none => exact ⟨Int.le_refl 0, by decide⟩
            | some n => simpa [isWithin] using inDay
          · cases minute with
            | none => exact ⟨Int.le_refl 0, by decide⟩
            | some n => simpa [isWithin] using inHour

theorem Schedule.validate_interval {now : Stamp} {days : Int} {hour minute : Option Int}
    (valid : (Schedule.interval days hour minute).validate now = .ok ()) :
    1 ≤ days ∧ days ≤ 365 ∧ (0 ≤ hour.getD 0 ∧ hour.getD 0 ≤ 23) ∧
      0 ≤ minute.getD 0 ∧ minute.getD 0 ≤ 59 := validateInterval_ok valid

theorem fitsWord_small {n : Int} (low : 0 ≤ n) (high : n ≤ 365) : fitsWord 32 n = true := by
  have half : (twoPow (32 - 1) : Int) = 2147483648 := by decide
  simp only [fitsWord, half, Bool.and_eq_true, decide_eq_true_eq]
  omega

theorem clock_lt_day {h m : Nat} (inDay : h ≤ 23) (inHour : m ≤ 59) :
    h * hour + m * minute < day := by
  simp only [day, hour, minute, second]
  omega

theorem Instant.inRange_of_day {d t : Nat} (inCalendar : d < dayLimit) (inDay : t < day) :
    d * day + t < limit :=
  calc d * day + t < d * day + day := Nat.add_lt_add_left inDay _
    _ = (d + 1) * day := (Nat.succ_mul d day).symm
    _ ≤ dayLimit * day := Nat.mul_le_mul_right day inCalendar

-- The length of a day is a variable here, so that no step of the proof computes with it.
theorem Schedule.due_of_clock {c : Chore} {now due : Instant} {d t : Nat} {hour minute : Int}
    (length : Nat) (clock : clockMicros hour minute = .ok t)
    (found : Instant.ofMicros? (d * length + t) = some due) :
    (match clockMicros hour minute with
      | .error fault => DueResult.skipped (.clock c.id fault)
      | .ok t =>
        match Instant.ofMicros? (d * length + t) with
        | some due => dueAt c now due
        | none => .overflow .date) = dueAt c now due := by
  rw [clock]
  dsimp only
  rw [found]

theorem Schedule.chore_of_dueAt {c : Chore} {now due : Instant} {info : DueInfo}
    (h : dueAt c now due = .due info) : info.chore = c := by
  simp only [dueAt, DueResult.due.injEq] at h
  rw [← h]

theorem Schedule.chore_of_clock {c : Chore} {now : Instant} {info : DueInfo} {d : Nat}
    {hour minute : Int} (length : Nat)
    (h : (match clockMicros hour minute with
      | .error fault => DueResult.skipped (.clock c.id fault)
      | .ok t =>
        match Instant.ofMicros? (d * length + t) with
        | some due => dueAt c now due
        | none => .overflow .date) = .due info) : info.chore = c := by
  split at h
  · cases h
  · split at h
    · exact chore_of_dueAt h
    · cases h

theorem Schedule.dayDue_eq (c : Chore) (now : Instant) {d : Nat} {hour minute : Int}
    (inCalendar : d < dayLimit) (inDay : 0 ≤ hour ∧ hour ≤ 23) (inHour : 0 ≤ minute ∧ minute ≤ 59) :
    ∃ due : Instant, dayDue c now d hour minute = dueAt c now due ∧
      due.micros = d * day + (hour.toNat * Calendar.hour + minute.toNat * Calendar.minute) := by
  have words : (Overflow.ofClock hour <|> Overflow.ofClock minute) = none := by
    rw [Overflow.ofClock, if_pos (fitsWord_small inDay.1 (by omega)), Overflow.ofClock,
      if_pos (fitsWord_small inHour.1 (by omega))]
    rfl
  have clock : clockMicros hour minute =
      .ok (hour.toNat * Calendar.hour + minute.toNat * Calendar.minute) := by
    rw [clockMicros, if_neg (by omega), if_neg (by omega)]
  have short : hour.toNat * Calendar.hour + minute.toNat * Calendar.minute < day :=
    clock_lt_day (by omega) (by omega)
  generalize hour.toNat * Calendar.hour + minute.toNat * Calendar.minute = t at clock short ⊢
  have within := Instant.inRange_of_day inCalendar short
  have found : Instant.ofMicros? ((d : Int) * day + t) = some ⟨d * day + t, within⟩ := by
    rw [← Int.natCast_mul, ← Int.natCast_add]
    exact Instant.ofMicros?_micros ⟨d * day + t, within⟩
  refine ⟨⟨d * day + t, within⟩, ?_, rfl⟩
  unfold dayDue
  rw [words]
  exact due_of_clock day clock found

theorem Schedule.intervalDue_eq {c : Chore} {base : Instant} {days : Int} {hour minute : Option Int}
    (meant : c.base.instant? = some base) (valid : validateInterval days hour minute = .ok ()) (now : Instant) :
    intervalDue c days hour minute now =
      if (dayLimit : Int) ≤ base.dayNumber + days then .overflow .date
      else dayDue c now (base.dayNumber + days).toNat (hour.getD 0) (minute.getD 0) := by
  obtain ⟨low, high, -, -⟩ := validateInterval_ok valid
  have small : Overflow.ofDays days = none := by
    have step : ¬ Overflow.maxDayStep < days.natAbs := by
      simp only [Overflow.maxDayStep]
      omega
    rw [Overflow.ofDays, fitsWord_small (by omega) high, Bool.not_true, if_neg (by decide),
      if_neg step]
  have positive : 0 ≤ (base.dayNumber : Int) + days := by omega
  simp only [intervalDue, meant, addDays, small]
  by_cases past : (dayLimit : Int) ≤ base.dayNumber + days
  · rw [if_pos past, if_neg (by omega)]
  · rw [if_neg past, if_pos (by omega)]

namespace Chore

def LeavesCalendar (c : Chore) (now : Stamp) : Prop :=
  match c.schedule with
  | .onceInAWhile => False
  | .cron e => now.instant? = none ∨
      ∃ base, c.base.instant? = some base ∧ Cron.next e base = .error .overflow
  | .interval days _ _ => now.instant? = none ∨
      ∃ base, c.base.instant? = some base ∧ (dayLimit : Int) ≤ base.dayNumber + days

variable {c : Chore} {base : Instant}

theorem chore_of_due (c : Chore) {now : Stamp} {info : DueInfo} (found : c.due now = .due info) :
    info.chore = c := by
  have day {now : Instant} {d : Nat} {hour minute : Int}
      (h : Schedule.dayDue c now d hour minute = .due info) : info.chore = c := by
    unfold Schedule.dayDue at h
    split at h
    · cases h
    · exact Schedule.chore_of_clock _ h
  unfold due at found
  split at found
  · simp only [DueResult.due.injEq] at found
    rw [← found]
  · split at found
    · cases found
    · unfold Schedule.cronDue at found
      split at found
      · exact Schedule.chore_of_dueAt found
      · cases found
      · cases found
  · split at found
    · cases found
    · unfold Schedule.intervalDue at found
      split at found
      · cases found
      · split at found
        · cases found
        · exact day found

theorem Settled.due_interval (h : c.Settled base) {days : Int} {hour minute : Option Int}
    (schedule : c.schedule = .interval days hour minute) (now : Instant) :
    Schedule.intervalDue c days hour minute now =
        (if (dayLimit : Int) ≤ base.dayNumber + days then .overflow .date
        else Schedule.dayDue c now (base.dayNumber + days).toNat (hour.getD 0) (minute.getD 0)) := by
  obtain ⟨past, valid⟩ := h.valid
  rw [schedule] at valid
  exact Schedule.intervalDue_eq (by rw [h.base, Stamp.instant?_utc]) valid now

theorem Settled.due_overflow (h : c.Settled base) (now : Stamp) :
    (∃ o, c.due now = .overflow o) ↔ c.LeavesCalendar now := by
  unfold due LeavesCalendar
  cases schedule : c.schedule with
  | onceInAWhile => simp
  | cron e =>
    cases hn : now.instant? with
    | none => simp
    | some n =>
      simp only [Schedule.cronDue, Schedule.nextOccurrence, h.base, Stamp.instant?_utc,
        Option.some.injEq, exists_eq_left', reduceCtorEq, false_or]
      rcases hc : Cron.next e base with (f | _) | due <;> simp [Schedule.dueAt]
  | interval days hour minute =>
    cases hn : now.instant? with
    | none => simp
    | some n =>
      obtain ⟨past, valid⟩ := h.valid
      rw [schedule] at valid
      obtain ⟨low, high, inDay, inHour⟩ := Schedule.validate_interval valid
      simp only [h.due_interval schedule, h.base, Stamp.instant?_utc, Option.some.injEq,
        exists_eq_left', reduceCtorEq, false_or]
      by_cases beyond : (dayLimit : Int) ≤ base.dayNumber + days
      · simp [beyond]
      · obtain ⟨due, found, -⟩ := Schedule.dayDue_eq c n (d := (base.dayNumber + days).toNat)
          (by omega) inDay inHour
        simp [beyond, found, Schedule.dueAt]

end Chore

end ChoreReminder
