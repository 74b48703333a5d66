import ChoreReminder.Proofs.Schedule.Agenda
import ChoreReminder.Proofs.Schedule.Writing
import ChoreReminder.Proofs.Sorting

/-! The order of the agenda. It goes by due time and is otherwise the order in which the chores were given; what
has no due time comes last. Since the due times do not depend on the present, the agendas of all moments are one
list with different overdue marks, and what is overdue at a moment is a first part of it, which grows with time. -/

namespace ChoreReminder

namespace DueInfo

theorem le_trans (a b c : DueInfo) (ab : a.le b = true) (bc : b.le c = true) : a.le c = true := by
  unfold le at *
  split at ab <;> split at bc <;> simp_all
  omega

theorem le_total (a b : DueInfo) : (a.le b || b.le a) = true := by
  unfold le
  split <;> simp_all [Nat.le_total]

/-- Due at an earlier instant. What has no due time is before nothing. -/
def Before (a b : DueInfo) : Prop := ∃ s, a.nextDue = some s ∧ ∀ t, b.nextDue = some t → s < t

theorem le_iff {a b : DueInfo} : a.le b = true ↔ a.Before b ∨ a.nextDue = b.nextDue := by
  unfold le Before
  cases a.nextDue with
  | none => cases b.nextDue <;> simp
  | some s =>
    cases b.nextDue with
    | none => simp
    | some t =>
      have less : s < t ↔ s.micros < t.micros := Iff.rfl
      simp only [decide_eq_true_eq, Option.some.injEq, exists_eq_left', forall_eq']
      rw [less, Instant.eq_iff]
      exact Nat.le_iff_lt_or_eq

theorem isOverdue_of_le {a b : DueInfo} {now : Option Instant} (le : a.le b = true)
    (overdue : (b.seenAt now).isOverdue = true) : (a.seenAt now).isOverdue = true := by
  obtain ⟨due, n, next, present, come⟩ := seenAt_isOverdue.1 overdue
  unfold DueInfo.le at le
  rw [next] at le
  cases next' : a.nextDue with
  | none =>
    rw [next'] at le
    cases le
  | some due' =>
    rw [next'] at le
    exact seenAt_isOverdue.2 ⟨due', n, next', present, Nat.le_trans (of_decide_eq_true le) come⟩

def entry (info : DueInfo) : Chore × Option Instant := (info.chore, info.nextDue)

end DueInfo

namespace Agenda

variable {chores : List Chore} {c : Chore} {now now' : Stamp} {includeUpcoming : Bool} {infos : List DueInfo}

/-! ### The order of the entries -/

theorem collect_ordered {before : Chore → Chore → Prop} (came : chores.Pairwise before)
    (done : (collect chores now includeUpcoming).1 = .ok infos) :
    infos.Pairwise fun a b => a.Before b ∨ a.nextDue = b.nextDue ∧ before a.chore b.chore := by
  rw [collect_eq (whole_of_collect done)] at done
  obtain rfl := Except.ok.inj done
  have given : (chores.filterMap (listed now includeUpcoming)).Pairwise fun a b => before a.chore b.chore := by
    refine List.pairwise_filterMap.2 (came.imp fun before a ha b hb => ?_)
    rwa [chore_of_listed ha, chore_of_listed hb]
  refine (pairwise_mergeSort_stable DueInfo.le_trans DueInfo.le_total given).imp ?_
  rintro a b ⟨le, stable⟩
  refine (DueInfo.le_iff.1 le).imp_right fun same => ⟨same, stable ?_⟩
  exact DueInfo.le_iff.2 (.inr same.symm)

theorem filter_collect (done : (collect chores now includeUpcoming).1 = .ok infos) (key : Option Instant) :
    infos.filter (·.nextDue = key) =
      (chores.filterMap (listed now includeUpcoming)).filter (·.nextDue = key) := by
  rw [collect_eq (whole_of_collect done)] at done
  obtain rfl := Except.ok.inj done
  rw [filter_mergeSort DueInfo.le_trans DueInfo.le_total]
  refine List.mergeSort_of_pairwise (List.pairwise_of_forall_mem_list fun a ha b hb => ?_)
  have keyed {info : DueInfo} {given : List DueInfo} (member : info ∈ given.filter (·.nextDue = key)) :
      info.nextDue = key := of_decide_eq_true (List.mem_filter.1 member).2
  exact DueInfo.le_iff.2 (.inr ((keyed ha).trans (keyed hb).symm))

theorem mem_collect (done : (collect chores now includeUpcoming).1 = .ok infos) {info : DueInfo} :
    info ∈ infos ↔ ∃ c ∈ chores, c.due now = .due info ∧ (info.isOverdue = true ∨ includeUpcoming = true) := by
  rw [collect_eq (whole_of_collect done)] at done
  obtain rfl := Except.ok.inj done
  rw [List.mem_mergeSort, List.mem_filterMap]
  refine exists_congr fun c => and_congr_right fun _ => ?_
  rw [← Bool.or_eq_true]
  refine ⟨due_of_listed, fun ⟨found, wanted⟩ => ?_⟩
  rw [listed, found]
  exact if_pos wanted

/-! ### One agenda for all moments -/

theorem listed_seen (whole : ∀ o, c.due now ≠ .overflow o) (whole' : ∀ o, c.due now' ≠ .overflow o) :
    listed now' includeUpcoming c = ((listed now true c).map (·.seenAt now'.instant?)).filter
      fun info => info.isOverdue || includeUpcoming := by
  unfold listed
  rw [c.due_later whole whole']
  cases found : c.due now with
  | overflow o => rfl
  | skipped w => rfl
  | due info =>
    obtain rfl := c.chore_of_due found
    simp only [DueResult.retold, Bool.or_true, if_true, Option.map_some, Option.filter_some]

theorem filterMap_listed_seen (whole : Whole chores now) (whole' : Whole chores now') :
    chores.filterMap (listed now' includeUpcoming) =
      ((chores.filterMap (listed now true)).map (·.seenAt now'.instant?)).filter
        fun info => info.isOverdue || includeUpcoming := by
  rw [List.map_filterMap, List.filter_filterMap]
  exact List.filterMap_congr fun c hc => listed_seen (whole c hc) (whole' c hc)

theorem collect_overdue (whole : Whole chores now) (whole' : Whole chores now')
    (all : (collect chores now true).1 = .ok infos) : (collect chores now' false).1 =
      .ok ((infos.map (·.seenAt now'.instant?)).takeWhile (·.isOverdue)) := by
  rw [collect_eq whole] at all
  obtain rfl := Except.ok.inj all
  rw [collect_eq whole', filterMap_listed_seen whole whole']
  simp only [Bool.or_false]
  rw [← filter_mergeSort DueInfo.le_trans DueInfo.le_total,
    ← List.map_mergeSort (r := DueInfo.le) (f := (·.seenAt now'.instant?)) fun _ _ _ _ => rfl]
  refine congrArg Except.ok (filter_eq_takeWhile (List.pairwise_map.2 ?_))
  have sorted := List.pairwise_mergeSort DueInfo.le_trans DueInfo.le_total
    (chores.filterMap (listed now true))
  exact sorted.imp fun le overdue => DueInfo.isOverdue_of_le le overdue

theorem seenAt_of_listed {info : DueInfo} (given : listed now includeUpcoming c = some info) :
    info.seenAt now.instant? = info := by
  obtain ⟨found, -⟩ := due_of_listed given
  obtain rfl := c.chore_of_due found
  have same := info.chore.due_seen now
  rw [found] at same
  exact (DueResult.due.inj same).symm

theorem overdue_later {now₁ now₂ : Stamp} {info : DueInfo} (order : now₁.meant ≤ now₂.meant)
    (given : listed now true c = some info) (whole : ∀ o, c.due now₂ ≠ .overflow o)
    (overdue : (info.seenAt now₁.instant?).isOverdue = true) :
    (info.seenAt now₂.instant?).isOverdue = true := by
  obtain ⟨due, n, next, present, come⟩ := DueInfo.seenAt_isOverdue.1 overdue
  cases present' : now₂.instant? with
  | some n' =>
    refine DueInfo.seenAt_isOverdue.2 ⟨due, n', next, rfl, Nat.le_trans come ?_⟩
    have := Stamp.meant_of_instant? present
    have := Stamp.meant_of_instant? present'
    omega
  | none =>
    -- A chore that sets a date is not evaluated outside the calendar.
    obtain ⟨found, -⟩ := due_of_listed given
    unfold Chore.due at found whole
    cases schedule : c.schedule with
    | onceInAWhile =>
      rw [schedule] at found
      obtain rfl := DueResult.due.inj found
      cases next
    | cron expression =>
      rw [schedule, present'] at whole
      exact absurd rfl (whole .date)
    | interval days hour minute =>
      rw [schedule, present'] at whole
      exact absurd rfl (whole .date)

/-- The overdue chores are a first part of the agenda, the longest one in which all are overdue, and they only
get more: with the same due times and in the same order, those of an earlier moment are a first part of those of
a later one, and these of the agenda with all that is to come, whenever it is looked at. -/
theorem overdue_prefix {now now₁ now₂ : Stamp} (order : now₁.meant ≤ now₂.meant)
    (whole : Whole chores now) (whole₁ : Whole chores now₁) (whole₂ : Whole chores now₂) :
    ∃ all overdue early late,
      (collect chores now true).1 = .ok all ∧ (collect chores now false).1 = .ok overdue ∧
      (collect chores now₁ false).1 = .ok early ∧ (collect chores now₂ false).1 = .ok late ∧
      early.map DueInfo.entry <+: late.map DueInfo.entry ∧ late.map DueInfo.entry <+: all.map DueInfo.entry ∧
      overdue = all.takeWhile (·.isOverdue) := by
  have all : (collect chores now true).1 = _ := collect_eq whole
  generalize sorted : (chores.filterMap (listed now true)).mergeSort DueInfo.le = infos at all
  have given : ∀ info ∈ infos, ∃ c ∈ chores, listed now true c = some info :=
    fun info member => listed_of_mem_collect all member
  have marks : infos.map (·.seenAt now.instant?) = infos :=
    (List.map_congr_left fun info member => (given info member).elim fun c h => seenAt_of_listed h.2).trans
      (List.map_id infos)
  have entries (time : Stamp) : ((infos.map (·.seenAt time.instant?)).takeWhile (·.isOverdue)).map DueInfo.entry =
      (infos.takeWhile fun info => (info.seenAt time.instant?).isOverdue).map DueInfo.entry := by
    rw [List.takeWhile_map, List.map_map]
    rfl
  refine ⟨_, _, _, _, all, collect_overdue whole whole all, collect_overdue whole whole₁ all,
    collect_overdue whole whole₂ all, ?_, ?_, by rw [marks]⟩
  · rw [entries, entries]
    refine (takeWhile_prefix_takeWhile fun info member overdue => ?_).map _
    obtain ⟨c, hc, listed⟩ := given info member
    exact overdue_later order listed (whole₂ c hc) overdue
  · rw [entries]
    exact (List.takeWhile_prefix _).map _

/-- Two chores are due at one instant, one has no date, one is due later and one cannot be evaluated. Before the
later one the clock in the east shows its own time of day. -/
theorem overdue_prefix_ties :
    let day (n : Nat) (fits : n * Calendar.day < Calendar.limit) : Instant := ⟨n * Calendar.day, fits⟩
    let chore (name : String) (schedule : Schedule) (created : Instant) : Chore := {
      id := name, name, description := none, schedule, createdAt := .utc created, updatedAt := .utc created,
      lastCompletedAt := none }
    let chores := [
      chore "Gutters" .onceInAWhile (day 100 (by decide)), chore "Bins" (.interval 3 none none) (day 100 (by decide)),
      chore "Windows" (.interval 2 (some 9) none) (day 99 (by decide)),
      chore "Floor" (.interval 1 (some 24) none) (day 99 (by decide)),
      chore "Plants" (.interval 1 (some 9) none) (day 100 (by decide))]
    let now : Stamp := .utc (day 99 (by decide))
    let now₁ : Stamp := ⟨⟨101 * Calendar.day + 9 * Calendar.hour, by decide⟩, none⟩
    let now₂ : Stamp := ⟨⟨103 * Calendar.day + 2 * Calendar.hour, by decide⟩, some ((2 * Calendar.hour : Nat) : Int)⟩
    (now₁.meant ≤ now₂.meant ∧ Whole chores now ∧ Whole chores now₁ ∧ Whole chores now₂) ∧
    ∃ all overdue early late,
      (collect chores now true).1 = .ok all ∧ (collect chores now false).1 = .ok overdue ∧
      (collect chores now₁ false).1 = .ok early ∧ (collect chores now₂ false).1 = .ok late ∧
      early.map DueInfo.entry <+: late.map DueInfo.entry ∧ late.map DueInfo.entry <+: all.map DueInfo.entry ∧
      overdue = all.takeWhile (·.isOverdue) ∧
      all.map (·.chore.name) = ["Windows", "Plants", "Bins", "Gutters"] ∧ early.length = 2 ∧ late.length = 3 := by
  intro day chore chores now now₁ now₂
  have order : now₁.meant ≤ now₂.meant := by decide
  have whole : Whole chores now := by decide +kernel
  have whole₁ : Whole chores now₁ := by decide +kernel
  have whole₂ : Whole chores now₂ := by decide +kernel
  obtain ⟨all, overdue, early, late, hall, hoverdue, hearly, hlate, first, second, longest⟩ :=
    overdue_prefix order whole whole₁ whole₂
  refine ⟨⟨order, whole, whole₁, whole₂⟩, all, overdue, early, late, hall, hoverdue, hearly, hlate, first, second,
    longest, ?_, ?_, ?_⟩
  · have given : chores.filterMap (listed now true) = [
        ⟨chore "Gutters" .onceInAWhile (day 100 (by decide)), none, false⟩,
        ⟨chore "Bins" (.interval 3 none none) (day 100 (by decide)), some (day 103 (by decide)), false⟩,
        ⟨chore "Windows" (.interval 2 (some 9) none) (day 99 (by decide)), some now₁.wall, false⟩,
        ⟨chore "Plants" (.interval 1 (some 9) none) (day 100 (by decide)), some now₁.wall, false⟩] := by
      decide +kernel
    rw [collect_eq whole, given] at hall
    obtain rfl := Except.ok.inj hall
    simp [List.mergeSort, List.MergeSort.Internal.splitInTwo, DueInfo.le, day, now₁, chore, Calendar.day,
      Calendar.hour, Calendar.minute, Calendar.second]
  · rw [collect_eq whole₁] at hearly
    obtain rfl := Except.ok.inj hearly
    rw [List.length_mergeSort]
    decide +kernel
  · rw [collect_eq whole₂] at hlate
    obtain rfl := Except.ok.inj hlate
    rw [List.length_mergeSort]
    decide +kernel

end Agenda

end ChoreReminder
