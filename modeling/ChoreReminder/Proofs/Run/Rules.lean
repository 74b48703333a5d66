import ChoreReminder.Proofs.Run.Effect

/-! Three statements of what a schedule may be. The bounds of an interval are checked when the schedule is
given, and again by the rules for a row of the chores; the two accept the same intervals, so a schedule that
was accepted never meets a broken rule. What is stored can therefore be read after every run, and the
list of the chores holds each of them once, by name. -/

namespace ChoreReminder

namespace Schedule

def InRange (high : Int) (part : Option Int) : Prop := ∀ n ∈ part, 0 ≤ n ∧ n ≤ high

structure IntervalBounds (days : Int) (hour minute : Option Int) : Prop where
  days : 1 ≤ days ∧ days ≤ 365
  hour : InRange 23 hour
  minute : InRange 59 minute

def Bounded : Schedule → Prop
  | .cron expression => expression ≠ ""
  | .interval days hour minute => IntervalBounds days hour minute
  | .onceInAWhile => True

theorem isWithin_iff {high : Int} {part : Option Int} : isWithin high part = true ↔ InRange high part := by
  cases part <;> simp [isWithin, InRange]

theorem intervalBounds_iff {days : Int} {hour minute : Option Int} :
    IntervalBounds days hour minute ↔
      (1 ≤ days ∧ days ≤ 365) ∧ InRange 23 hour ∧ InRange 59 minute :=
  ⟨fun h => ⟨h.days, h.hour, h.minute⟩, fun h => ⟨h.1, h.2.1, h.2.2⟩⟩

theorem validateInterval_eq_ok {days : Int} {hour minute : Option Int} :
    validateInterval days hour minute = .ok () ↔ IntervalBounds days hour minute := by
  rw [intervalBounds_iff, ← isWithin_iff, ← isWithin_iff]
  unfold validateInterval minIntervalDays maxIntervalDays
  by_cases short : days < 1
  · simp [short]
  by_cases long : 365 < days
  · simp [short, long]
  have inYear : 1 ≤ days ∧ days ≤ 365 := by omega
  cases isWithin 23 hour <;> cases isWithin 59 minute <;> simp [short, long, inYear]

theorem validate_bounded {s : Schedule} {now : Stamp} (valid : s.validate now = .ok ()) : s.Bounded := by
  cases s with
  | cron e => exact validate_cron_ne_empty valid
  | interval days hour minute => exact validateInterval_eq_ok.1 valid
  | onceInAWhile => trivial

end Schedule

namespace Text

/-- The second text does not come before the first one in the order of code points. -/
def InCodeOrder (s t : String) : Prop :=
  ¬ List.Lex (· < ·) (t.toList.map Char.toNat) (s.toList.map Char.toNat)

theorem lex_toNat {cs ds : List Char} :
    List.Lex (· < ·) (cs.map Char.toNat) (ds.map Char.toNat) ↔ List.Lex (· < ·) cs ds := by
  induction cs generalizing ds with
  | nil => cases ds <;> simp
  | cons c cs ih =>
    cases ds with
    | nil => simp
    | cons d ds =>
      have less : c.toNat < d.toNat ↔ c < d := Iff.rfl
      simp only [List.map_cons, List.cons_lex_cons_iff, ih, Char.toNat_inj, less]

theorem inCodeOrder_iff {s t : String} : InCodeOrder s t ↔ s ≤ t := by
  unfold InCodeOrder
  rw [lex_toNat]
  exact Iff.rfl

end Text

namespace ChoreRow

theorem isWithin_int {low high n : Int} :
    (Cell.int n).isWithin low high = true ↔ low ≤ n ∧ n ≤ high := by
  simp [Cell.isWithin]

theorem isWithin_ofOption {high : Int} {part : Option Int} :
    (Cell.ofOption part).isWithin 0 high = true ↔ Schedule.InRange high part := by
  cases part <;> simp [Cell.ofOption, Cell.isWithin, Schedule.InRange]

theorem brokenRule?_interval (r : ChoreRow) (days : Int) (hour minute : Option Int) :
    (r.withSchedule (.interval days hour minute)).brokenRule? = none ↔
      Schedule.IntervalBounds days hour minute := by
  have known : ["cron", "interval", "once_in_a_while"].contains "interval" = true := by decide
  rw [Schedule.intervalBounds_iff, ← isWithin_int, ← isWithin_ofOption, ← isWithin_ofOption]
  simp only [brokenRule?, columns, ScheduleColumns.brokenRule?, withSchedule, Schedule.columns, Schedule.kind, known]
  cases (Cell.int days).isWithin 1 365 <;> cases (Cell.ofOption hour).isWithin 0 23 <;>
    cases (Cell.ofOption minute).isWithin 0 59 <;> simp

theorem brokenRule?_of_bounded (r : ChoreRow) {s : Schedule} (bounded : s.Bounded) :
    (r.withSchedule s).brokenRule? = none := by
  cases s with
  | cron e => simp [brokenRule?, columns, ScheduleColumns.brokenRule?, withSchedule, Schedule.columns, Schedule.kind,
      Cell.isWithin]
  | interval days hour minute => exact (r.brokenRule?_interval days hour minute).2 bounded
  | onceInAWhile => simp [brokenRule?, columns, ScheduleColumns.brokenRule?, withSchedule, Schedule.columns, Schedule.kind,
      Cell.isWithin]

end ChoreRow

namespace Ledger

open Text (InCodeOrder inCodeOrder_iff)

variable {l : Ledger} {now : Instant} {schedule : Schedule}

/-! ### Accepted schedules are stored -/

theorem insertChore_new (s : Sound l) {r : ChoreRow} (id : r.id = l.nextChoreId)
    (rules : r.brokenRule? = none) : l.insertChore r = .ok (l.chores ++ [r]) := by
  refine insertChore_eq_ok.2 ⟨rules, ?_, rfl⟩
  rw [← Bool.not_eq_true, choreExists_iff]
  rintro ⟨old, member, same⟩
  have issued := s.choresIssued old member
  rw [same, id] at issued
  exact not_isIssued_next _ _ issued

theorem Sound.createChore_accepted (s : Sound l) (valid : schedule.validate (.utc now) = .ok ())
    (name : String) (description : Option String) (createdAt : Option Stamp) :
    (∃ r, l.createChore now name schedule description createdAt = .ok r) ∨
      (createdAt.getD (.utc now)).instant? = none ∧
        l.createChore now name schedule description createdAt = .error (.overflow .date) := by
  cases meant : (createdAt.getD (.utc now)).instant? with
  | none =>
    refine .inr ⟨rfl, ?_⟩
    simp only [Ledger.createChore, valid, mapError_ok, storable, meant]
    rfl
  | some created =>
    have inserted := insertChore_new s (r := l.newChoreRow now name schedule description created) rfl
      (ChoreRow.brokenRule?_of_bounded _ (Schedule.validate_bounded valid))
    refine .inl ?_
    simp only [Ledger.createChore, valid, mapError_ok, storable_eq_ok.2 meant, bind_eq_ok,
      Except.ok.injEq, exists_eq_left', pure_eq_ok]
    exact ⟨_, (), trivial, _, inserted, rfl⟩

theorem brokenRule?_rescheduled (now : Instant) (r : ChoreRow) (bounded : schedule.Bounded) :
    (rescheduled now schedule r).brokenRule? = none :=
  ChoreRow.brokenRule?_of_bounded { r with updatedAt := now.stored } bounded

theorem updateSchedule_accepted (valid : schedule.validate (.utc now) = .ok ()) (id : String) :
    ∃ r, l.updateSchedule now id schedule = .ok r := by
  simp only [updateSchedule, valid, mapError_ok, bind_eq_ok]
  cases l.chores.find? (·.id = id) with
  | none => exact ⟨_, (), trivial, rfl⟩
  | some r =>
    have rules := brokenRule?_rescheduled now r (Schedule.validate_bounded valid)
    unfold rescheduled at rules
    simp only [rules]
    exact ⟨_, (), trivial, rfl⟩

/-! ### What is stored -/

theorem Kept.row_bounded (k : Kept l) {r : ChoreRow} (hr : r ∈ l.chores) :
    r.brokenRule? = none ∧ ∃ s, r.schedule = .ok s ∧ s.Bounded := by
  obtain ⟨s, now, created, updated, valid, holds⟩ := k.chores r hr
  have bounded := Schedule.validate_bounded valid
  refine ⟨?_, s, holds.schedule valid, bounded⟩
  rw [← holds.columns]
  exact r.brokenRule?_of_bounded bounded

/-! ### The list by name -/

theorem name_le_trans (a b c : ChoreRow) (ab : decide (a.name ≤ b.name) = true)
    (bc : decide (b.name ≤ c.name) = true) : decide (a.name ≤ c.name) = true := by
  simp only [decide_eq_true_eq] at *
  exact String.le_trans ab bc

theorem name_le_total (a b : ChoreRow) : (decide (a.name ≤ b.name) || decide (b.name ≤ a.name)) = true := by
  simpa using String.le_total a.name b.name

theorem sorted_by_name (rows : List ChoreRow) :
    (rows.mergeSort fun a b => a.name ≤ b.name).Pairwise fun a b => InCodeOrder a.name b.name :=
  (List.pairwise_mergeSort name_le_trans name_le_total rows).imp fun le => inCodeOrder_iff.2 (of_decide_eq_true le)

theorem Kept.candidates_sorted (k : Kept l) :
    l.candidates.1.Pairwise fun a b => InCodeOrder a.name b.name := by
  have perm := List.mergeSort_perm l.chores fun a b => a.name ≤ b.name
  have names : l.candidates.1.map (·.name) = _ :=
    (read_all (fun r => r.read (l.latestCompletion r.id)) (·.name) (·.name) fun r hr => by
      obtain ⟨c, base, read, -, name, -⟩ := k.read (perm.subset hr)
      exact ⟨c, read, name⟩).2
  have byName : (l.candidates.1.map (·.name)).Pairwise InCodeOrder := by
    rw [names, List.pairwise_map]
    exact sorted_by_name l.chores
  exact List.pairwise_map.1 byName

end Ledger

open Ledger (Kept Sound)
open Text (InCodeOrder)

namespace Store

/-- Intervals are accepted exactly if a row may hold them. After every run, whichever calls failed, an
accepted schedule is stored, a creation beyond the calendar apart; every stored schedule keeps its
bounds; and every chore is listed once, by name. -/
theorem rules_agree :
    (∀ (r : ChoreRow) (days : Int) (hour minute : Option Int),
      Schedule.validateInterval days hour minute = .ok () ↔
        (r.withSchedule (.interval days hour minute)).brokenRule? = none) ∧
    ∀ episodes : List Episode,
      let l := ((ofLedger .empty).run episodes).ledger
      (∀ (now : Instant) (schedule : Schedule), schedule.validate (.utc now) = .ok () →
        (∀ name description createdAt,
          (∃ r, l.createChore now name schedule description createdAt = .ok r) ∨
            (createdAt.getD (.utc now)).instant? = none ∧
              l.createChore now name schedule description createdAt = .error (.overflow .date)) ∧
        ∀ id, ∃ r, l.updateSchedule now id schedule = .ok r) ∧
      (∀ r ∈ l.chores, r.brokenRule? = none ∧ ∃ s, r.schedule = .ok s ∧ s.Bounded) ∧
      l.candidates.2 = [] ∧ (l.chores.map (·.id)).Nodup ∧
      (l.candidates.1.map (·.id)).Perm (l.chores.map (·.id)) ∧
      l.candidates.1.Pairwise fun a b => InCodeOrder a.name b.name := by
  refine ⟨?_, ?_⟩
  · intro r days hour minute
    exact Schedule.validateInterval_eq_ok.trans (r.brokenRule?_interval days hour minute).symm
  · intro episodes l
    have sound : Sound l := run_sound episodes
    have k : Kept l := run_kept episodes
    obtain ⟨skipped, ids, -⟩ := k.candidates
    refine ⟨fun now schedule valid => ⟨?_, ?_⟩, fun r hr => k.row_bounded hr, skipped, sound.choreIds,
      ids, k.candidates_sorted⟩
    · exact fun name description createdAt => sound.createChore_accepted valid name description createdAt
    · exact fun id => Ledger.updateSchedule_accepted valid id

end Store

end ChoreReminder
