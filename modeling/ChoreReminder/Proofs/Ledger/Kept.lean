import ChoreReminder.Proofs.Calendar.Stamp
import ChoreReminder.Proofs.Ledger.Change

/-! Rows that can be read back. The operations of the ledger write only schedules that were accepted and
times in the stored form; so on every course from such rows each row of the chores and of the
completions is read back as what was written, and no chore is left out when the chores are listed. -/

namespace ChoreReminder

theorem Instant.stored_ne_empty (i : Instant) : i.stored ≠ "" := by
  intro empty
  have read := Stamp.read_stored i
  have unread : Stamp.read "" = .error (.malformed "") := by decide
  rw [empty, unread] at read
  cases read

theorem ChoreRow.readTime_stored (i : Instant) : readTime i.stored = .ok (some (.utc i)) := by
  rw [readTime, if_neg i.stored_ne_empty, Stamp.read_stored]

theorem Schedule.validate_cron_ne_empty {now : Stamp} {e : String}
    (valid : (Schedule.cron e).validate now = .ok ()) : e ≠ "" := by
  rintro rfl
  simp only [validate, validateCron, bind_eq_ok] at valid
  obtain ⟨first, found, -⟩ := valid
  have unread : Cron.read "" = .error .columns := by decide
  unfold nextOccurrence Cron.next at found
  rw [unread] at found
  cases h : now.instant? <;> simp [h] at found

namespace ChoreRow

variable {r : ChoreRow} {s : Schedule} {created updated : Instant}

/-- The row holds a schedule and two times in the form in which they are written. -/
structure Holds (r : ChoreRow) (s : Schedule) (created updated : Instant) : Prop where
  columns : r.withSchedule s = r
  created : r.createdAt = created.stored
  updated : r.updatedAt = updated.stored

theorem Holds.schedule (h : r.Holds s created updated) {now : Stamp}
    (valid : s.validate now = .ok ()) : r.schedule = .ok s := by
  rw [← h.columns]
  cases s with
  | cron e =>
    have given := Schedule.validate_cron_ne_empty valid
    simp [ChoreRow.schedule, ChoreRow.columns, ScheduleColumns.schedule, withSchedule, Schedule.columns,
      Schedule.kind, given]
  | interval days hour minute =>
    cases hour <;> cases minute <;> rfl
  | onceInAWhile => rfl

def chore (r : ChoreRow) (s : Schedule) (created updated : Instant) (latest : Option Instant) :
    Chore where
  id := r.id
  name := r.name
  description := r.description
  schedule := s
  createdAt := .utc created
  updatedAt := .utc updated
  lastCompletedAt := latest.map .utc

theorem Holds.read (h : r.Holds s created updated) {now : Stamp} (valid : s.validate now = .ok ())
    (latest : Option Instant) :
    r.read (latest.map Instant.stored) = .ok (r.chore s created updated latest) := by
  have last : readTime ((latest.map Instant.stored).getD "") = .ok (latest.map .utc) := by
    cases latest with
    | none => rfl
    | some i => exact readTime_stored i
  rw [ChoreRow.read, h.schedule valid, h.created, h.updated, readTime_stored, readTime_stored, last]
  rfl

end ChoreRow

namespace Ledger

variable {l l' : Ledger}

/-- All rows of the chores and of the completions are as the operations write them. -/
structure Kept (l : Ledger) : Prop where
  chores : ∀ r ∈ l.chores, ∃ s now created updated,
    s.validate (.utc now) = .ok () ∧ r.Holds s created updated
  completions : ∀ c ∈ l.completions, ∃ completed created : Instant,
    c.completedAt = completed.stored ∧ c.createdAt = created.stored

theorem kept_empty : Kept empty := ⟨by simp [empty], by simp [empty]⟩

theorem Kept.change (h : Change l l') (k : Kept l) : Kept l' := by
  cases h with
  | createChore done =>
    obtain ⟨valid, created, -, -, rfl⟩ := createChore_ok done
    refine ⟨fun r hr => ?_, k.completions⟩
    rcases List.mem_append.1 hr with hr | hr
    · exact k.chores r hr
    · rw [List.mem_singleton.1 hr]
      exact ⟨_, _, created, _, valid, rfl, rfl, rfl⟩
  | updateSchedule done =>
    obtain ⟨valid, -, rfl⟩ := updateSchedule_ok done
    refine ⟨fun r hr => ?_, k.completions⟩
    obtain ⟨old, member, rfl⟩ := List.mem_map.1 hr
    obtain ⟨s, past, created, updated, before, holds⟩ := k.chores old member
    split
    · exact ⟨_, _, created, _, valid, rfl, holds.created, rfl⟩
    · exact ⟨s, past, created, updated, before, holds⟩
  | deleteChore id =>
    exact ⟨fun r hr => k.chores r (List.mem_filter.1 hr).1,
      fun c hc => k.completions c (List.mem_filter.1 hc).1⟩
  | complete done =>
    obtain ⟨-, completed, -, rfl⟩ := complete_ok done
    refine ⟨k.chores, fun c hc => ?_⟩
    rcases List.mem_append.1 hc with hc | hc
    · exact k.completions c hc
    · rw [List.mem_singleton.1 hc]
      exact ⟨completed, _, rfl, rfl⟩
  | addEvent => exact ⟨k.chores, k.completions⟩
  | addDelivery => exact ⟨k.chores, k.completions⟩

theorem Kept.course {ms : List Mark} (h : Course l ms l') (k : Kept l) : Kept l' :=
  h.preserves Kept.change (fun m k => by rw [mark_ledger]; exact ⟨k.chores, k.completions⟩) k

theorem greatest?_mem {texts : List String} {s : String} (h : greatest? texts = some s) :
    s ∈ texts := by
  induction texts generalizing s with
  | nil => simp [greatest?] at h
  | cons t rest ih =>
    unfold greatest? at h
    cases hr : greatest? rest with
    | none =>
      rw [hr] at h
      simp_all
    | some u =>
      rw [hr] at h
      have later := ih hr
      by_cases le : t ≤ u
      · simp_all
      · simp_all

theorem Kept.latestCompletion (k : Kept l) (id : String) :
    ∃ latest : Option Instant, l.latestCompletion id = latest.map Instant.stored := by
  unfold Ledger.latestCompletion
  cases h : greatest? ((l.completions.filter (·.choreId = id)).map (·.completedAt)) with
  | none => exact ⟨none, rfl⟩
  | some s =>
    obtain ⟨c, hc, rfl⟩ := List.mem_map.1 (greatest?_mem h)
    obtain ⟨completed, -, stored, -⟩ := k.completions c (List.mem_filter.1 hc).1
    exact ⟨some completed, by rw [stored, Option.map_some]⟩

end Ledger

/-- A chore with an accepted schedule whose time of reference is an instant. -/
structure Chore.Settled (c : Chore) (base : Instant) : Prop where
  valid : ∃ now, c.schedule.validate (.utc now) = .ok ()
  base : c.base = .utc base

namespace Ledger

variable {l : Ledger}

theorem Kept.read (k : Kept l) {r : ChoreRow} (hr : r ∈ l.chores) :
    ∃ c base, r.read (l.latestCompletion r.id) = .ok c ∧ c.id = r.id ∧ c.name = r.name ∧
      c.Settled base := by
  obtain ⟨s, now, created, updated, valid, holds⟩ := k.chores r hr
  obtain ⟨latest, stored⟩ := k.latestCompletion r.id
  refine ⟨r.chore s created updated latest, latest.getD created, ?_, rfl, rfl, ⟨now, valid⟩, ?_⟩
  · rw [stored]
    exact holds.read valid latest
  · cases latest <;> rfl

theorem readable_eq (read : ChoreRow → Except RowFault Chore) (rows : List ChoreRow) :
    rows.foldr (fun r (chores, skipped) =>
        match read r with
        | .ok c => (c :: chores, skipped)
        | .error f => (chores, (r.id, f) :: skipped)) (([], []) : List Chore × List (String × RowFault)) =
      (rows.filterMap fun r => (read r).toOption, rows.filterMap fun r => (fault? (read r)).map (r.id, ·)) := by
  induction rows with
  | nil => rfl
  | cons r rest ih =>
    rw [List.foldr_cons, ih]
    cases hr : read r <;> simp [hr, Except.toOption, fault?]

theorem mem_readable (read : ChoreRow → Except RowFault Chore) {rows : List ChoreRow} {c : Chore} :
    c ∈ (rows.foldr (fun r (chores, skipped) =>
      match read r with
      | .ok c => (c :: chores, skipped)
      | .error f => (chores, (r.id, f) :: skipped))
      (([], []) : List Chore × List (String × RowFault))).1 ↔ ∃ r ∈ rows, read r = .ok c := by
  rw [readable_eq, List.mem_filterMap]
  simp only [toOption_eq_some]

theorem read_all {α : Type} (read : ChoreRow → Except RowFault Chore) (f : Chore → α) (g : ChoreRow → α)
    {rows : List ChoreRow} (readable : ∀ r ∈ rows, ∃ c, read r = .ok c ∧ f c = g r) :
    let listed : List Chore × List (String × RowFault) :=
      rows.foldr (fun r (chores, skipped) =>
        match read r with
        | .ok c => (c :: chores, skipped)
        | .error f => (chores, (r.id, f) :: skipped)) ([], [])
    listed.2 = [] ∧ listed.1.map f = rows.map g := by
  intro listed
  have each : listed = _ := readable_eq read rows
  rw [each]
  constructor
  · refine List.filterMap_eq_nil_iff.2 fun r hr => ?_
    obtain ⟨c, ok, -⟩ := readable r hr
    rw [ok]
    rfl
  · rw [List.map_filterMap, ← List.filterMap_eq_map]
    refine List.filterMap_congr fun r hr => ?_
    obtain ⟨c, ok, same⟩ := readable r hr
    rw [ok]
    exact congrArg some same

theorem Kept.candidates (k : Kept l) :
    l.candidates.2 = [] ∧ (l.candidates.1.map (·.id)).Perm (l.chores.map (·.id)) ∧
      ∀ c ∈ l.candidates.1, ∃ base, c.Settled base := by
  have sorted := List.mergeSort_perm l.chores fun a b => a.name ≤ b.name
  obtain ⟨skipped, ids⟩ := read_all (fun r => r.read (l.latestCompletion r.id)) (·.id) (·.id) fun r hr => by
    obtain ⟨c, base, read, id, -⟩ := k.read (sorted.subset hr)
    exact ⟨c, read, id⟩
  refine ⟨skipped, (List.Perm.of_eq ids).trans (sorted.map _), fun c hc => ?_⟩
  obtain ⟨r, hr, read⟩ := (mem_readable fun r => r.read (l.latestCompletion r.id)).1 hc
  obtain ⟨c', base, same, -, -, settled⟩ := k.read (sorted.subset hr)
  obtain rfl := Except.ok.inj (read.symm.trans same)
  exact ⟨base, settled⟩

end Ledger

end ChoreReminder
