import ChoreReminder.Proofs.Ledger.Pending
import ChoreReminder.Proofs.Run.Agenda
import ChoreReminder.Proofs.Run.Rules
import ChoreReminder.Proofs.Schedule.Order

/-! The agenda of the stored chores. The ledger lists them by name, and the agenda sorts that list by due time; since
the second sort leaves ties as they are, the names decide between chores that fall due together. -/

namespace ChoreReminder

open Ledger (Kept Sound)

namespace Agenda

variable {chores : List Chore} {now : Stamp} {includeUpcoming : Bool} {infos : List DueInfo}

theorem collect_nodup (ids : (chores.map (·.id)).Nodup)
    (done : (collect chores now includeUpcoming).1 = .ok infos) : (infos.map (·.chore.id)).Nodup := by
  rw [collect_eq (whole_of_collect done)] at done
  obtain rfl := Except.ok.inj done
  refine ((List.mergeSort_perm _ _).map _).nodup_iff.2 (ids.sublist ?_)
  exact Ledger.map_filterMap_sublist (fun c info given => congrArg Chore.id (chore_of_listed given)) chores

end Agenda

namespace Store

/-- After every run, if each stored chore can be evaluated, the agenda holds it once if it is overdue, or if all that
is to come is asked for, and not otherwise. It goes by due time, what has none comes last, and the names decide
between chores that fall due together. Of any other chores, those that fall due together are listed as they were
given. -/
theorem due_list_ordered :
    (∀ (episodes : List Episode) (now : Stamp) (includeUpcoming : Bool),
      let l := ((ofLedger .empty).run episodes).ledger
      (l.candidates.2 = [] ∧ (l.candidates.1.map (·.id)).Perm (l.chores.map (·.id))) ∧
      (Agenda.Whole l.candidates.1 now →
        ∃ infos, ((ofLedger l).agenda now includeUpcoming).1 = .ok infos ∧
          (infos.map (·.chore.id)).Nodup ∧
          (∀ info, info ∈ infos ↔ ∃ c ∈ l.candidates.1,
            c.due now = .due info ∧ (info.isOverdue = true ∨ includeUpcoming = true)) ∧
          infos.Pairwise fun a b =>
            a.Before b ∨ a.nextDue = b.nextDue ∧ Text.InCodeOrder a.chore.name b.chore.name)) ∧
    ∀ (chores : List Chore) (now : Stamp) (includeUpcoming : Bool), Agenda.Whole chores now →
      ∃ infos, (Agenda.collect chores now includeUpcoming).1 = .ok infos ∧
        ∀ key : Option Instant, infos.filter (·.nextDue = key) =
          (chores.filterMap (Agenda.listed now includeUpcoming)).filter (·.nextDue = key) := by
  constructor
  · intro episodes now includeUpcoming l
    have sound : Sound l := run_sound episodes
    have k : Kept l := run_kept episodes
    obtain ⟨skipped, ids, -⟩ := k.candidates
    refine ⟨⟨skipped, ids⟩, fun whole => ?_⟩
    have done : (Agenda.collect _ now includeUpcoming).1 = _ := Agenda.collect_eq whole
    refine ⟨_, by rw [Ledger.agenda_eq, done, mapError_ok], ?_, fun info => Agenda.mem_collect done, ?_⟩
    · exact Agenda.collect_nodup (ids.nodup_iff.2 sound.choreIds) done
    · exact Agenda.collect_ordered k.candidates_sorted done
  · intro chores now includeUpcoming whole
    have done : (Agenda.collect _ now includeUpcoming).1 = _ := Agenda.collect_eq whole
    exact ⟨_, done, Agenda.filter_collect done⟩

/-- Two chores of three fall due at one instant and were stored against the order of their names. -/
theorem due_list_ordered_ties :
    let day (n : Nat) (h : n < Calendar.dayLimit := by decide) : Instant :=
      ⟨n * Calendar.day, Nat.mul_lt_mul_of_pos_right h (by decide)⟩
    let chore (name : String) (schedule : Schedule) : Episode :=
      .step ⟨day 1, .createChore name schedule none none⟩
    let l := ((ofLedger .empty).run [
      chore "Windows" (.interval 1 none none), chore "Gutters" .onceInAWhile,
      chore "Plants" (.interval 1 none none)]).ledger
    Agenda.Whole l.candidates.1 (.utc (day 3)) ∧
    ∃ infos, ((ofLedger l).agenda (.utc (day 3)) true).1 = .ok infos ∧
      (infos.Pairwise fun a b =>
        a.Before b ∨ a.nextDue = b.nextDue ∧ Text.InCodeOrder a.chore.name b.chore.name) ∧
      infos.map (·.chore.name) = ["Plants", "Windows", "Gutters"] := by
  intro day chore l
  let daily : Schedule := .interval 1 none none
  let row (n : Nat) (name : String) (schedule : Schedule) : ChoreRow :=
    { Ledger.empty.newChoreRow (day 1) name schedule none (day 1) with id := rowId "c0000000" n }
  have rows : l.chores = [row 1 "Windows" daily, row 2 "Gutters" .onceInAWhile, row 3 "Plants" daily] := by
    decide +kernel
  have named (n : Nat) (name : String) (schedule : Schedule) : (row n name schedule).name = name := by
    cases schedule <;> rfl
  have sorted : l.chores.mergeSort (fun a b => a.name ≤ b.name) =
      [row 2 "Gutters" .onceInAWhile, row 3 "Plants" daily, row 1 "Windows" daily] := by
    rw [rows]
    simp [List.mergeSort, List.MergeSort.Internal.splitInTwo, named]
  have whole : Agenda.Whole l.candidates.1 (.utc (day 3)) := by
    rw [Ledger.candidates, sorted]
    decide +kernel
  let entry (n : Nat) (name : String) (schedule : Schedule) (due : Option Instant) : DueInfo := {
    chore := {
      id := rowId "c0000000" n, name, description := none, schedule, createdAt := .utc (day 1),
      updatedAt := .utc (day 1), lastCompletedAt := none }
    nextDue := due, isOverdue := due.isSome }
  have given : l.candidates.1.filterMap (Agenda.listed (.utc (day 3)) true) =
      [entry 2 "Gutters" .onceInAWhile none, entry 3 "Plants" daily (some (day 2)),
        entry 1 "Windows" daily (some (day 2))] := by
    rw [Ledger.candidates, sorted]
    decide +kernel
  obtain ⟨infos, agenda, -, -, ordered⟩ := (due_list_ordered.1 _ (.utc (day 3)) true).2 whole
  refine ⟨whole, infos, agenda, ordered, ?_⟩
  rw [Ledger.agenda_eq, Agenda.collect_eq whole, given, mapError_ok] at agenda
  obtain rfl := Except.ok.inj agenda
  simp [List.mergeSort, List.MergeSort.Internal.splitInTwo, DueInfo.le, entry]

end Store

end ChoreReminder
