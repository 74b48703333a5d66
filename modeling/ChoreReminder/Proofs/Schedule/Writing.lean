import ChoreReminder.Proofs.Schedule.Occurrence
import ChoreReminder.Schedule.Due

/-! What the due state of a chore depends on: its schedule, the instant from which it counts, and the present
one, which decides about the overdue mark only. A time counts as the instant that it means, and one outside the
calendar counts as such; so how the times of a chore are written makes no difference, and offsets decide neither
the day from which an interval is counted nor the fields that a cron expression is compared with. -/

namespace ChoreReminder

namespace Stamp

/-- The microseconds from the start of year 1 to the moment that is meant, which may lie outside the calendar. -/
def meant (s : Stamp) : Int := (s.wall.micros : Int) - s.offset.getD 0

def SameMoment (a b : Stamp) : Prop := a.meant = b.meant

instance (a b : Stamp) : Decidable (a.SameMoment b) := inferInstanceAs (Decidable (a.meant = b.meant))

theorem SameMoment.instant? {a b : Stamp} (same : a.SameMoment b) : a.instant? = b.instant? :=
  congrArg Instant.ofMicros? same

theorem meant_of_instant? {s : Stamp} {i : Instant} (h : s.instant? = some i) : (i.micros : Int) = s.meant := by
  unfold Stamp.instant? Instant.ofMicros? at h
  split at h
  · next range =>
    rw [← Option.some.inj h]
    exact Int.toNat_of_nonneg range.1
  · cases h

end Stamp

def SameMoments : Option Stamp → Option Stamp → Prop
  | none, none => True
  | some a, some b => a.SameMoment b
  | _, _ => False

namespace DueInfo

def seenAt (info : DueInfo) (now : Option Instant) : DueInfo :=
  { info with isOverdue := info.nextDue.any fun due => now.any (due ≤ ·) }

@[simp] theorem seenAt_nextDue (info : DueInfo) (now : Option Instant) :
    (info.seenAt now).nextDue = info.nextDue := rfl

@[simp] theorem seenAt_chore (info : DueInfo) (now : Option Instant) :
    (info.seenAt now).chore = info.chore := rfl

theorem seenAt_isOverdue {info : DueInfo} {now : Option Instant} :
    (info.seenAt now).isOverdue = true ↔ ∃ due n, info.nextDue = some due ∧ now = some n ∧ due ≤ n := by
  simp only [seenAt, Option.any_eq_true, decide_eq_true_eq]
  grind

end DueInfo

namespace DueResult

def about (c : Chore) : DueResult → DueResult
  | .due info => .due { info with chore := c }
  | .skipped w => .skipped w
  | .overflow o => .overflow o

def retold (c : Chore) (now : Option Instant) : DueResult → DueResult
  | .due info => .due (DueInfo.seenAt { info with chore := c } now)
  | .skipped w => .skipped w
  | .overflow o => .overflow o

end DueResult

namespace Schedule

variable {c c' : Chore} {now now' : Instant}

theorem dueAt_retold (due : Instant) : dueAt c' now' due = (dueAt c now due).retold c' (some now') := rfl

theorem cronDue_retold (id : c'.id = c.id) (base : c'.base.instant? = c.base.instant?) (expression : String) :
    cronDue c' expression now' = (cronDue c expression now).retold c' (some now') := by
  unfold cronDue
  rw [nextOccurrence_congr base, id]
  cases nextOccurrence expression c.base with
  | ok due => exact dueAt_retold due
  | error f => cases f <;> rfl

-- The length of a day is a variable here, so that no step of the proof computes with it.
theorem clockDue_retold (length day : Nat) (id : c'.id = c.id) (hour minute : Int) :
    (match clockMicros hour minute with
      | .error f => DueResult.skipped (.clock c'.id f)
      | .ok t =>
        match Instant.ofMicros? (day * length + t) with
        | some due => dueAt c' now' due
        | none => .overflow .date) =
      DueResult.retold c' (some now') (match clockMicros hour minute with
        | .error f => DueResult.skipped (.clock c.id f)
        | .ok t =>
          match Instant.ofMicros? (day * length + t) with
          | some due => dueAt c now due
          | none => .overflow .date) := by
  rw [id]
  cases clockMicros hour minute with
  | error f => rfl
  | ok t =>
    dsimp only
    cases Instant.ofMicros? (day * length + t) with
    | none => rfl
    | some due => exact dueAt_retold due

theorem dayDue_retold (id : c'.id = c.id) (day : Nat) (hour minute : Int) :
    dayDue c' now' day hour minute = (dayDue c now day hour minute).retold c' (some now') := by
  unfold dayDue
  cases Overflow.ofClock hour <|> Overflow.ofClock minute with
  | some o => rfl
  | none => exact clockDue_retold Calendar.day day id hour minute

theorem intervalDue_retold (id : c'.id = c.id) (base : c'.base.instant? = c.base.instant?) (days : Int)
    (hour minute : Option Int) :
    intervalDue c' days hour minute now' = (intervalDue c days hour minute now).retold c' (some now') := by
  unfold intervalDue
  rw [base]
  cases c.base.instant? with
  | none => rfl
  | some base =>
    dsimp only
    cases addDays base.dayNumber days with
    | error o => rfl
    | ok day => exact dayDue_retold id day _ _

end Schedule

namespace Chore

variable {c c' : Chore} {now now' : Stamp}

theorem due_retold (id : c'.id = c.id) (schedule : c'.schedule = c.schedule)
    (base : c'.base.instant? = c.base.instant?) (present : now'.instant?.isSome = now.instant?.isSome) :
    c'.due now' = (c.due now).retold c' now'.instant? := by
  unfold due
  rw [schedule]
  cases moment : now.instant? with
  | none =>
    rw [moment, Option.isSome_none, Option.isSome_eq_false_iff, Option.isNone_iff_eq_none] at present
    rw [present]
    cases c.schedule <;> rfl
  | some n =>
    rw [moment, Option.isSome_some] at present
    obtain ⟨n', present⟩ := Option.isSome_iff_exists.1 present
    rw [present]
    cases c.schedule with
    | onceInAWhile => rfl
    | cron expression => exact Schedule.cronDue_retold id base expression
    | interval days hour minute => exact Schedule.intervalDue_retold id base days hour minute

theorem due_seen (c : Chore) (now : Stamp) : c.due now = (c.due now).retold c now.instant? :=
  due_retold rfl rfl rfl rfl

theorem due_later (whole : ∀ o, c.due now ≠ .overflow o) (whole' : ∀ o, c.due now' ≠ .overflow o) :
    c.due now' = (c.due now).retold c now'.instant? := by
  by_cases present : now'.instant?.isSome = now.instant?.isSome
  · exact due_retold rfl rfl rfl present
  · -- Without a present of its own in the calendar only a chore that sets no date is evaluated.
    unfold due at whole whole' ⊢
    cases schedule : c.schedule with
    | onceInAWhile => rfl
    | cron expression =>
      rw [schedule] at whole whole'
      cases moment : now.instant? <;> cases moment' : now'.instant? <;> simp_all
    | interval days hour minute =>
      rw [schedule] at whole whole'
      cases moment : now.instant? <;> cases moment' : now'.instant? <;> simp_all

theorem base_sameMoment {created : Stamp} {completed : Option Stamp} (creation : created.SameMoment c.createdAt)
    (completion : SameMoments completed c.lastCompletedAt) :
    ({ c with createdAt := created, lastCompletedAt := completed } : Chore).base.SameMoment c.base := by
  unfold base
  cases last : c.lastCompletedAt with
  | none =>
    rw [last] at completion
    cases completed with
    | none => exact creation
    | some s => exact completion.elim
  | some t =>
    rw [last] at completion
    cases completed with
    | none => exact completion.elim
    | some s => exact completion

/-- A chore whose times are written in another way has the same due state at the same moment: the same due time
and the same overdue mark, the same warning, or the same overflow. -/
theorem due_by_moments (c : Chore) {created : Stamp} {completed : Option Stamp} {now now' : Stamp}
    (creation : created.SameMoment c.createdAt) (completion : SameMoments completed c.lastCompletedAt)
    (present : now'.SameMoment now) :
    let c' : Chore := { c with createdAt := created, lastCompletedAt := completed }
    c'.due now' = (c.due now).about c' := by
  intro c'
  have base : c'.base.instant? = c.base.instant? := (base_sameMoment creation completion).instant?
  have instant : now'.instant? = now.instant? := present.instant?
  calc c'.due now'
      = (c.due now).retold c' now.instant? := by
        rw [← instant]
        exact due_retold rfl rfl base (congrArg Option.isSome instant)
    _ = ((c.due now).retold c now.instant?).about c' := by cases c.due now <;> rfl
    _ = (c.due now).about c' := by rw [← due_seen]

/-- Half past midnight on 1 March, east of universal time, is still 29 February: written either way, the chore
is due on 1 March. -/
theorem due_by_moments_leapDay :
    let evening : Nat := 738944 * Calendar.day + 22 * Calendar.hour + 30 * Calendar.minute
    let east : Stamp :=
      ⟨⟨evening + 2 * Calendar.hour, by decide⟩, some ((2 * Calendar.hour : Nat) : Int)⟩
    let naive : Stamp := ⟨⟨evening, by decide⟩, none⟩
    let due : Instant := ⟨738945 * Calendar.day + 9 * Calendar.hour, by decide⟩
    let c : Chore := {
      id := "c", name := "Plants", description := none, schedule := .interval 1 (some 9) none,
      createdAt := naive, updatedAt := naive, lastCompletedAt := some east }
    let c' : Chore := { c with createdAt := east, lastCompletedAt := some naive }
    (east.SameMoment c.createdAt ∧ SameMoments (some naive) c.lastCompletedAt ∧
      (Stamp.utc due).SameMoment ⟨due, none⟩) ∧
    c.due ⟨due, none⟩ = .due ⟨c, some due, true⟩ ∧ c'.due (.utc due) = .due ⟨c', some due, true⟩ := by
  intro evening east naive due c c'
  have same : east.SameMoment naive := by decide
  have evaluated : c.due ⟨due, none⟩ = .due ⟨c, some due, true⟩ := by decide +kernel
  have alike : c'.due (.utc due) = (c.due ⟨due, none⟩).about c' := due_by_moments c same same.symm rfl
  refine ⟨⟨same, same.symm, rfl⟩, evaluated, ?_⟩
  rw [evaluated] at alike
  exact alike

end Chore

end ChoreReminder
