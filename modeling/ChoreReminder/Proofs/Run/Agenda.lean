import ChoreReminder.Proofs.Notify.Generator
import ChoreReminder.Proofs.Run.Basic
import ChoreReminder.Proofs.Schedule.Agenda
import ChoreReminder.Proofs.Schedule.Due

/-! The agenda of ledgers that a run leaves behind. Every stored chore is read and evaluated. The agenda
breaks off exactly if the evaluation of one of them leaves the calendar, and then the generator does
nothing; otherwise each chore counts on its own account, and the generator creates an event for each
one that is overdue. -/

namespace ChoreReminder

namespace Ledger

theorem kept_run (steps : List Step) : Kept (empty.run steps) :=
  Kept.course (run_course empty steps) kept_empty

variable {l : Ledger} {now : Stamp}

theorem agenda_eq (l : Ledger) (now : Stamp) (includeUpcoming : Bool) :
    ((Store.ofLedger l).agenda now includeUpcoming).1 =
      (Agenda.collect l.candidates.1 now includeUpcoming).1.mapError .overflow := by
  simp only [Store.agenda, Store.read_ofLedger]

theorem Kept.overflows (k : Kept l) :
    (∃ c ∈ l.candidates.1, ∃ o, c.due now = .overflow o) ↔
      ∃ c ∈ l.candidates.1, c.LeavesCalendar now := by
  refine exists_congr fun c => and_congr_right fun hc => ?_
  obtain ⟨base, settled⟩ := k.candidates.2.2 c hc
  exact settled.due_overflow now

theorem Kept.agenda_error (k : Kept l) (includeUpcoming : Bool) :
    (∃ f, ((Store.ofLedger l).agenda now includeUpcoming).1 = .error f) ↔
      ∃ c ∈ l.candidates.1, c.LeavesCalendar now := by
  rw [← k.overflows, ← Agenda.evaluate_eq_error includeUpcoming, agenda_eq]
  simp only [Agenda.collect]
  cases (Agenda.evaluate now includeUpcoming l.candidates.1).1 with
  | error o => simp [Except.map, mapError_error]
  | ok infos => simp [Except.map, mapError_ok]

theorem Kept.agenda_ok (k : Kept l) (includeUpcoming : Bool)
    (within : ∀ c ∈ l.candidates.1, ¬ c.LeavesCalendar now) :
    ((Store.ofLedger l).agenda now includeUpcoming).1 =
      .ok ((l.candidates.1.filterMap (Agenda.listed now includeUpcoming)).mergeSort DueInfo.le) := by
  have whole : Agenda.Whole l.candidates.1 now := by
    intro c hc o broken
    obtain ⟨d, hd, leaves⟩ := k.overflows.1 ⟨c, hc, o, broken⟩
    exact within d hd leaves
  rw [agenda_eq, Agenda.collect_eq whole, mapError_ok]

end Ledger

namespace Generator

variable {l : Ledger} {time : Stamp} (now : Instant)

theorem tick_error {f : LedgerFault} (broken : ((Store.ofLedger l).agenda time false).1 = .error f)
    (channels : List (Option String)) :
    (tick now time channels (.ofLedger l)).store = .ofLedger l ∧
      (tick now time channels (.ofLedger l)).count = 0 := by
  have unchanged := agenda_store l time false
  unfold tick
  rcases h : (Store.ofLedger l).agenda time false with ⟨f' | infos, s, notices⟩
  · rw [h] at unchanged
    exact ⟨unchanged, rfl⟩
  · rw [h] at broken
    cases broken

theorem tick_adds {infos : List DueInfo}
    (agenda : ((Store.ofLedger l).agenda time false).1 = .ok infos)
    (exist : ∀ info ∈ infos, l.choreExists info.chore.id = true) (channels : List String) :
    ∀ info ∈ infos, ∀ due, info.nextDue = some due →
      (tick now time (channels.map some) (.ofLedger l)).store.ledger.HasEvent info.chore.id due := by
  have unchanged := agenda_store l time false
  unfold tick
  rcases h : (Store.ofLedger l).agenda time false with ⟨f | found, s, notices⟩
  · rw [h] at agenda
    cases agenda
  · rw [h] at agenda unchanged
    cases agenda
    obtain ⟨l', store, -, each⟩ := generate_adds now channels
      (g := ⟨0, s, notices⟩) unchanged exist
    intro info hi due next
    simp only [store]
    exact each info hi due next

end Generator

namespace Ledger

variable {l : Ledger}

theorem Kept.candidate_exists (k : Kept l) {c : Chore} (hc : c ∈ l.candidates.1) :
    l.choreExists c.id = true := by
  have listed : c.id ∈ l.candidates.1.map (·.id) := List.mem_map_of_mem hc
  obtain ⟨r, hr, same⟩ := List.mem_map.1 (k.candidates.2.1.subset listed)
  exact choreExists_iff.2 ⟨r, hr, same⟩

theorem Kept.tick_adds (k : Kept l) {time : Stamp}
    (within : ∀ c ∈ l.candidates.1, ¬ c.LeavesCalendar time) (now : Instant)
    (channels : List String) {c : Chore} (hc : c ∈ l.candidates.1) {info : DueInfo} {due : Instant}
    (found : c.due time = .due info) (overdue : info.isOverdue = true)
    (next : info.nextDue = some due) :
    (Generator.tick now time (channels.map some) (.ofLedger l)).store.ledger.HasEvent c.id due := by
  have agenda := k.agenda_ok false within
  have exist : ∀ info ∈ (l.candidates.1.filterMap (Agenda.listed time false)).mergeSort DueInfo.le,
      l.choreExists info.chore.id = true := by
    intro info hi
    obtain ⟨d, hd, given⟩ := List.mem_filterMap.1 ((List.mergeSort_perm _ _).subset hi)
    rw [Agenda.chore_of_listed given]
    exact k.candidate_exists hd
  have listed : info ∈ (l.candidates.1.filterMap (Agenda.listed time false)).mergeSort DueInfo.le := by
    refine (List.mergeSort_perm _ _).symm.subset (List.mem_filterMap.2 ⟨c, hc, ?_⟩)
    simp only [Agenda.listed, found, overdue, Bool.true_or, if_true]
  have event := Generator.tick_adds now agenda exist channels info listed due next
  rwa [c.chore_of_due found] at event

/-- The agenda breaks off exactly if a stored chore leaves the calendar. Then the generator does
nothing; else it creates the events of all overdue chores. A chore that is passed over does not change
the agenda in any case. -/
theorem agenda_breaks_off (steps : List Step) (now : Stamp) (includeUpcoming : Bool) :
    let l := empty.run steps
    let chores := l.candidates.1
    let agenda := ((Store.ofLedger l).agenda now includeUpcoming).1
    (l.candidates.2 = [] ∧ (chores.map (·.id)).Perm (l.chores.map (·.id))) ∧
    (∀ c ∈ chores, (∃ o, c.due now = .overflow o) ↔ c.LeavesCalendar now) ∧
    ((∃ f, agenda = .error f) ↔ ∃ c ∈ chores, c.LeavesCalendar now) ∧
    ((∃ c ∈ chores, c.LeavesCalendar now) → ∀ present channels,
      (Generator.tick present now channels (.ofLedger l)).store = .ofLedger l ∧
        (Generator.tick present now channels (.ofLedger l)).count = 0) ∧
    (∀ before c after w, chores = before ++ c :: after → c.due now = .skipped w →
      agenda = (Agenda.collect (before ++ after) now includeUpcoming).1.mapError .overflow) ∧
    ((∀ c ∈ chores, ¬ c.LeavesCalendar now) →
      agenda = .ok ((chores.filterMap (Agenda.listed now includeUpcoming)).mergeSort DueInfo.le) ∧
      ∀ (present : Instant) (channels : List String), ∀ c ∈ chores, ∀ info due,
        c.due now = .due info → info.isOverdue = true → info.nextDue = some due →
        (Generator.tick present now (channels.map some) (.ofLedger l)).store.ledger.HasEvent c.id
          due) := by
  intro l chores agenda
  have k : Kept l := kept_run steps
  obtain ⟨skipped, ids, settled⟩ := k.candidates
  refine ⟨⟨skipped, ids⟩, ?_, k.agenda_error _, ?_, ?_, ?_⟩
  · intro c hc
    obtain ⟨base, h⟩ := settled c hc
    exact h.due_overflow now
  · intro leaves present channels
    obtain ⟨f, broken⟩ := (k.agenda_error false).2 leaves
    exact Generator.tick_error present broken channels
  · intro before c after w split passed
    rw [← Agenda.collect_without passed, ← split]
    exact agenda_eq l now includeUpcoming
  · intro within
    refine ⟨k.agenda_ok _ within, ?_⟩
    intro present channels c hc info due found overdue next
    exact k.tick_adds within present channels hc found overdue next

/-- A daily chore that was created on the last day leaves no agenda, not even an empty one. -/
theorem agenda_breaks_off_last_day :
    let present : Instant := ⟨10 * Calendar.day, by decide⟩
    let lastDay : Instant := ⟨(Calendar.dayLimit - 1) * Calendar.day, by decide⟩
    let l := empty.run
      [⟨present, .createChore "Windows" (.interval 1 none none) none (some (.utc lastDay))⟩]
    ((Store.ofLedger l).agenda (.utc present) false).1 = .error (.overflow .date) := by
  decide +kernel

end Ledger

end ChoreReminder
