import ChoreReminder.Proofs.Cron.Next
import ChoreReminder.Schedule.Validation

/-! The next date of a written expression after a time. It is the date that the search of the expression finds after
the instant that the time means, in whole seconds. -/

namespace ChoreReminder.Schedule

variable {expression : String} {x : Cron.Expression} {t : Stamp} {o : Instant}

theorem nextOccurrence_congr {a b : Stamp} (same : a.instant? = b.instant?) (expression : String) :
    nextOccurrence expression a = nextOccurrence expression b := by
  unfold nextOccurrence
  rw [same]

theorem nextOccurrence_ok (read : Cron.read expression = .ok x)
    (h : nextOccurrence expression t = .ok o) :
    ∃ i r, t.instant? = some i ∧ x.nextSeconds i = .ok r ∧ o.micros = r * Calendar.second := by
  unfold nextOccurrence at h
  split at h
  · cases h
  · next i at' =>
    unfold Cron.next at h
    rw [read] at h
    dsimp only at h
    split at h
    · next o' found =>
      obtain ⟨r, seconds, micros⟩ := Cron.Expression.next_ok found
      exact ⟨i, r, at', seconds, Except.ok.inj h ▸ micros⟩
    · cases h
    · cases h

theorem nextOccurrence_utc_ok {i : Instant} (read : Cron.read expression = .ok x)
    (h : nextOccurrence expression (.utc i) = .ok o) :
    ∃ r, x.nextSeconds i = .ok r ∧ o.micros = r * Calendar.second := by
  obtain ⟨j, r, at', found, micros⟩ := nextOccurrence_ok read h
  rw [Stamp.instant?_utc, Option.some.injEq] at at'
  exact ⟨r, at' ▸ found, micros⟩

theorem read_of_nextOccurrence (h : nextOccurrence expression t = .ok o) :
    ∃ x, Cron.read expression = .ok x := by
  unfold nextOccurrence Cron.next at h
  cases read : Cron.read expression with
  | ok x => exact ⟨x, rfl⟩
  | error f =>
    rw [read] at h
    split at h <;> cases h

theorem nextOccurrence_of_nextSeconds {r : Nat} {next : Instant}
    (read : Cron.read expression = .ok x) (found : x.nextSeconds o = .ok r)
    (micros : next.micros = r * Calendar.second) :
    nextOccurrence expression (.utc o) = .ok next := by
  have occurs := Cron.Expression.next_of_nextSeconds found micros
  rw [nextOccurrence, Stamp.instant?_utc]
  dsimp only
  rw [Cron.next, read]
  dsimp only
  rw [occurs]

end ChoreReminder.Schedule
