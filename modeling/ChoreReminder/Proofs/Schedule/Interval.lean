import ChoreReminder.Proofs.Calendar.Following
import ChoreReminder.Proofs.Schedule.Due

/-! The due time of an interval in the civil calendar. Days are counted from the date of the base in universal time, so
neither the time of day of the base nor the offset in which it is written has a say in the day that is due. -/

namespace ChoreReminder

open Calendar

namespace Instant

variable {due base : Instant} {d h m : Nat}

theorem parts_of_micros (inDay : h ≤ 23) (inHour : m ≤ 59) (made : due.micros = d * day + (h * hour + m * minute)) :
    due.dayNumber = d ∧ due.hourOfDay = h ∧ due.minuteOfHour = m ∧ due.secondOfMinute = 0 ∧ due.fraction = 0 := by
  simp only [dayNumber, hourOfDay, minuteOfHour, secondOfMinute, fraction, made, day, hour, minute, second]
  omega

theorem sub_within (i j : Instant) :
    ((j.dayNumber : Int) - i.dayNumber - 1) * day < (j.micros : Int) - i.micros ∧
      (j.micros : Int) - i.micros < ((j.dayNumber : Int) - i.dayNumber + 1) * day := by
  simp only [dayNumber, day, hour, minute, second]
  omega

end Instant

namespace Chore

variable {c : Chore} {base n : Instant} {now : Stamp} {days : Int} {hour minute : Option Int}

/-- An accepted interval falls due on the civil day that is so many days after that of its base, at its time of day,
unless that day lies past the calendar. The due time is behind the base, differs from so many days by less than one,
and a chore is overdue from that time on. -/
theorem interval_falls_due (schedule : c.schedule = .interval days hour minute)
    (valid : Schedule.validateInterval days hour minute = .ok ()) (meant : c.base.instant? = some base)
    (present : now.instant? = some n) (inside : (Date.next^[days.toNat] base.date).year ≤ maxYear) :
    ∃ due info, c.due now = .due info ∧ info.chore = c ∧ info.nextDue = some due ∧
      due.date = Date.next^[days.toNat] base.date ∧
      (due.hourOfDay : Int) = hour.getD 0 ∧ (due.minuteOfHour : Int) = minute.getD 0 ∧
      due.secondOfMinute = 0 ∧ due.fraction = 0 ∧
      base < due ∧ (days - 1) * (24 * Calendar.hour : Nat) < (due.micros : Int) - base.micros ∧
      (due.micros : Int) - base.micros < (days + 1) * (24 * Calendar.hour : Nat) ∧
      (info.isOverdue = true ↔ due ≤ n) := by
  obtain ⟨low, high, inDay, inHour⟩ := Schedule.validateInterval_ok valid
  obtain ⟨k, rfl⟩ := Int.eq_ofNat_of_zero_le (show 0 ≤ days by omega)
  have within : base.dayNumber + k < dayLimit := by
    rw [Date.lt_dayLimit_iff, Date.ofNumber_add]
    exact inside
  obtain ⟨due, found, micros⟩ := Schedule.dayDue_eq c n within inDay inHour
  obtain ⟨onDay, atHour, atMinute, atSecond, atFraction⟩ :=
    Instant.parts_of_micros (by omega) (by omega) micros
  have evaluated : c.due now = Schedule.dueAt c n due := by
    have stays : ¬ (dayLimit : Int) ≤ base.dayNumber + (k : Int) := by omega
    have sum : ((base.dayNumber : Int) + (k : Int)).toNat = base.dayNumber + k := by omega
    simp only [Chore.due, schedule, present, Schedule.intervalDue_eq meant valid, if_neg stays, sum, found]
  have between : ((base.dayNumber + k : Nat) : Int) - base.dayNumber = k := by omega
  obtain ⟨least, most⟩ := base.sub_within due
  rw [onDay, between] at least most
  have later : base < due := by
    have whole : 0 ≤ ((k : Int) - 1) * day := Int.mul_nonneg (by omega) (Int.natCast_nonneg day)
    show base.micros < due.micros
    omega
  refine ⟨due, ⟨c, some due, due ≤ n⟩, evaluated, rfl, rfl, ?_, by omega, by omega, atSecond, atFraction, later, ?_, ?_,
    decide_eq_true_iff⟩
  · rw [Instant.date, onDay]
    exact Date.ofNumber_add _ _
  · exact least
  · exact most

/-- The chore was done in the first hour of a New Year's Eve, two hours east of universal time, where the day before
has not ended yet. Sixty-one days later it is due on a leap day. -/
theorem interval_falls_due_leapDay :
    let completed : Stamp := ⟨⟨738884 * day + 30 * Calendar.minute, by decide⟩, some (2 * Calendar.hour : Nat)⟩
    let c : Chore := ⟨rowId "c0000000" 1, "Plants", none, .interval 61 none (some 5), .utc ⟨0, by decide⟩,
      .utc ⟨0, by decide⟩, some completed⟩
    let now : Stamp := .utc ⟨738950 * day, by decide⟩
    ∃ due info, c.due now = .due info ∧ info.nextDue = some due ∧ due.date = ⟨2024, 2, 29⟩ ∧
      due.hourOfDay = 0 ∧ due.minuteOfHour = 5 ∧ info.isOverdue = true := by
  intro completed c now
  let base : Instant := ⟨738883 * day + 22 * Calendar.hour + 30 * Calendar.minute, by decide⟩
  have meant : c.base.instant? = some base := by decide +kernel
  have leapDay : Date.next^[61] base.date = ⟨2024, 2, 29⟩ := by decide +kernel
  have inside : (Date.next^[(61 : Int).toNat] base.date).year ≤ maxYear := by
    rw [show (61 : Int).toNat = 61 from rfl, leapDay]
    decide
  obtain ⟨due, info, found, -, next, date, atHour, atMinute, -, -, -, -, high, overdue⟩ :=
    interval_falls_due (c := c) rfl (by decide) meant (Stamp.instant?_utc _) inside
  refine ⟨due, info, found, next, date.trans leapDay, Int.ofNat.inj atHour, Int.ofNat.inj atMinute, overdue.2 ?_⟩
  show due.micros ≤ 738950 * day
  have past : base.micros + (61 + 1) * (24 * Calendar.hour) ≤ 738950 * day := by decide
  omega

end Chore

end ChoreReminder
