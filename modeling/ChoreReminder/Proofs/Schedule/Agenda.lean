import Mathlib.Tactic.ByContra
import ChoreReminder.Proofs.Schedule.Due

/-! The agenda as a whole. As long as no chore breaks the evaluation off, each chore is listed on its own
account: the agenda is what the single chores give, in order. A chore that is passed over leaves no
trace on it, and one that breaks off the evaluation leaves no agenda at all. -/

namespace ChoreReminder.Agenda

variable {now : Stamp} {includeUpcoming : Bool} {chores before after : List Chore} {c : Chore}

def listed (now : Stamp) (includeUpcoming : Bool) (c : Chore) : Option DueInfo :=
  match c.due now with
  | .due info => if info.isOverdue || includeUpcoming then some info else none
  | _ => none

theorem due_of_listed {info : DueInfo} (given : listed now includeUpcoming c = some info) :
    c.due now = .due info ∧ (info.isOverdue || includeUpcoming) = true := by
  unfold listed at given
  split at given
  · next found =>
    split at given
    · next wanted =>
      cases given
      exact ⟨found, wanted⟩
    · cases given
  · cases given

theorem chore_of_listed {info : DueInfo} (given : listed now includeUpcoming c = some info) :
    info.chore = c :=
  c.chore_of_due (due_of_listed given).1

theorem evaluate_cons_skipped {w : DueWarning} (skipped : c.due now = .skipped w) :
    (evaluate now includeUpcoming (c :: chores)).1 = (evaluate now includeUpcoming chores).1 := by
  rw [evaluate, skipped]

theorem evaluate_cons_due {info : DueInfo} (found : c.due now = .due info) :
    (evaluate now includeUpcoming (c :: chores)).1 =
      (evaluate now includeUpcoming chores).1.map fun infos =>
        if info.isOverdue || includeUpcoming then info :: infos else infos := by
  rw [evaluate, found]

theorem evaluate_cons_overflow {o : Overflow} (broken : c.due now = .overflow o) :
    (evaluate now includeUpcoming (c :: chores)).1 = .error o := by
  rw [evaluate, broken]

def Whole (chores : List Chore) (now : Stamp) : Prop := ∀ c ∈ chores, ∀ o, c.due now ≠ .overflow o

theorem evaluate_eq_ok (whole : Whole chores now) :
    (evaluate now includeUpcoming chores).1 =
      .ok (chores.filterMap (listed now includeUpcoming)) := by
  induction chores with
  | nil => rfl
  | cons c rest ih =>
    have others := ih fun d hd => whole d (List.mem_cons_of_mem _ hd)
    cases h : c.due now with
    | overflow o => exact absurd h (whole c List.mem_cons_self o)
    | skipped w =>
      have nothing : listed now includeUpcoming c = none := by rw [listed, h]
      rw [evaluate_cons_skipped h, others, List.filterMap_cons_none nothing]
    | due info =>
      rw [evaluate_cons_due h, others, List.filterMap_cons, listed, h]
      by_cases wanted : (info.isOverdue || includeUpcoming) = true
      · simp only [wanted, if_true, Except.map]
      · simp only [wanted, Except.map, Bool.false_eq_true, if_false]

theorem evaluate_eq_error (includeUpcoming : Bool) :
    (∃ o, (evaluate now includeUpcoming chores).1 = .error o) ↔
      ∃ c ∈ chores, ∃ o, c.due now = .overflow o := by
  constructor
  · rintro ⟨o, broken⟩
    by_contra whole
    simp only [not_exists, not_and] at whole
    rw [evaluate_eq_ok (fun c hc o => whole c hc o)] at broken
    cases broken
  · rintro ⟨c, hc, o, broken⟩
    induction chores with
    | nil => exact absurd hc List.not_mem_nil
    | cons d rest ih =>
      cases h : d.due now with
      | overflow o' => exact ⟨o', evaluate_cons_overflow h⟩
      | skipped w =>
        rcases List.mem_cons.1 hc with rfl | hc
        · rw [broken] at h
          cases h
        · obtain ⟨o', later⟩ := ih hc
          exact ⟨o', (evaluate_cons_skipped h).trans later⟩
      | due info =>
        rcases List.mem_cons.1 hc with rfl | hc
        · rw [broken] at h
          cases h
        · obtain ⟨o', later⟩ := ih hc
          exact ⟨o', by rw [evaluate_cons_due h, later]; rfl⟩

theorem whole_iff (includeUpcoming : Bool) :
    Whole chores now ↔ (evaluate now includeUpcoming chores).1.toBool = true := by
  constructor
  · intro whole
    rw [evaluate_eq_ok whole]
    rfl
  · intro done c hc o broken
    obtain ⟨o', failed⟩ := (evaluate_eq_error includeUpcoming).2 ⟨c, hc, o, broken⟩
    rw [failed] at done
    cases done

instance : Decidable (Whole chores now) := decidable_of_iff' _ (whole_iff false)

theorem collect_eq (whole : Whole chores now) : (collect chores now includeUpcoming).1 =
    .ok ((chores.filterMap (listed now includeUpcoming)).mergeSort DueInfo.le) := by
  simp only [collect, evaluate_eq_ok whole, Except.map]

theorem whole_of_collect {infos : List DueInfo} (done : (collect chores now includeUpcoming).1 = .ok infos) :
    Whole chores now := by
  rw [whole_iff includeUpcoming]
  simp only [collect] at done
  cases found : (evaluate now includeUpcoming chores).1 with
  | error o =>
    rw [found] at done
    cases done
  | ok given => rfl

theorem evaluate_without {w : DueWarning} (skipped : c.due now = .skipped w) :
    (evaluate now includeUpcoming (before ++ c :: after)).1 =
      (evaluate now includeUpcoming (before ++ after)).1 := by
  induction before with
  | nil => exact evaluate_cons_skipped skipped
  | cons d rest ih =>
    rw [List.cons_append, List.cons_append]
    cases h : d.due now with
    | overflow o => rw [evaluate_cons_overflow h, evaluate_cons_overflow h]
    | skipped w' => rw [evaluate_cons_skipped h, evaluate_cons_skipped h, ih]
    | due info => rw [evaluate_cons_due h, evaluate_cons_due h, ih]

theorem collect_without {w : DueWarning} (skipped : c.due now = .skipped w) :
    (collect (before ++ c :: after) now includeUpcoming).1 =
      (collect (before ++ after) now includeUpcoming).1 := by
  simp only [collect, evaluate_without skipped]

theorem listed_of_mem_collect {infos : List DueInfo}
    (done : (collect chores now includeUpcoming).1 = .ok infos) {info : DueInfo}
    (member : info ∈ infos) : ∃ c ∈ chores, listed now includeUpcoming c = some info := by
  rw [collect_eq (whole_of_collect done)] at done
  obtain rfl := Except.ok.inj done
  exact List.mem_filterMap.1 ((List.mergeSort_perm _ _).subset member)

end ChoreReminder.Agenda
