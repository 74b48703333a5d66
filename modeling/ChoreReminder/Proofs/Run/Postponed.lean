import ChoreReminder.Proofs.Cron.Least
import ChoreReminder.Proofs.Run.Completed

/-! What a completion does to the due time of its chore. A later time of reference has a later due time, by
an interval as by an expression; and the time of reference of a chore moves forward only when a completion is
recorded, be it the first one, the latest one or one of long ago. -/

namespace ChoreReminder

open Calendar

namespace Chore

variable {c c' : Chore} {base base' due due' : Instant} {now now' : Stamp} {info info' : DueInfo}

theorem FallsDueAt.mono (same : c'.schedule = c.schedule) (le : base ≤ base')
    (h : c.FallsDueAt base due) (h' : c'.FallsDueAt base' due') : due ≤ due' := by
  cases schedule : c.schedule with
  | onceInAWhile => exact absurd h (fallsDueAt_once schedule)
  | cron e =>
    rw [fallsDueAt_cron schedule] at h
    rw [fallsDueAt_cron (same.trans schedule)] at h'
    exact Cron.next_mono le h h'
  | interval days hour minute =>
    rw [fallsDueAt_interval schedule] at h
    rw [fallsDueAt_interval (same.trans schedule)] at h'
    have dayNumber : base.dayNumber ≤ base'.dayNumber := Nat.div_le_div_right le
    have later : (base.dayNumber + days).toNat ≤ (base'.dayNumber + days).toNat := by omega
    show due.micros ≤ due'.micros
    rw [h, h']
    exact Nat.add_le_add_right (Nat.mul_le_mul_right day later) _

namespace Settled

theorem nextDue_mono (h : c.Settled base) (h' : c'.Settled base') (same : c'.schedule = c.schedule)
    (le : base ≤ base') (found : c.due now = .due info) (found' : c'.due now' = .due info') :
    Option.Rel (· ≤ ·) info.nextDue info'.nextDue := by
  rcases h.due_cases found with ⟨rfl, once⟩ | ⟨n, due, -, falls, rfl⟩
  · rcases h'.due_cases found' with ⟨rfl, -⟩ | ⟨n', due', -, falls', rfl⟩
    · exact .none
    · exact absurd falls' (fallsDueAt_once (same.trans once))
  · rcases h'.due_cases found' with ⟨rfl, once⟩ | ⟨n', due', -, falls', rfl⟩
    · exact absurd falls (fallsDueAt_once (same.symm.trans once))
    · exact .some (falls.mono same le falls')

theorem not_overdue_mono (h : c.Settled base) (h' : c'.Settled base') (same : c'.schedule = c.schedule)
    (le : base ≤ base') (found : c.due now = .due info) (found' : c'.due now = .due info')
    (early : info.isOverdue = false) : info'.isOverdue = false := by
  rcases h.due_cases found with ⟨rfl, once⟩ | ⟨n, due, moment, falls, rfl⟩
  · rcases h'.due_cases found' with ⟨rfl, -⟩ | ⟨-, due', -, falls', -⟩
    · rfl
    · exact absurd falls' (fallsDueAt_once (same.trans once))
  · rw [← Bool.not_eq_true]
    intro overdue
    obtain ⟨n', due', moment', falls', past⟩ := h'.due_le_of_overdue found' overdue
    obtain rfl := Option.some.inj (moment.symm.trans moment')
    have later : due ≤ due' := falls.mono same le falls'
    exact of_decide_eq_false early (Nat.le_trans later past)

end Settled

end Chore

namespace Ledger

variable {l l' : Ledger} {c : Chore} {i : Instant}

theorem completedAt_of_latest {id : String} (found : l.latestCompletion id = some i.stored) :
    l.CompletedAt id i := by
  obtain ⟨row, member, at'⟩ := List.mem_map.1 (greatest?_mem found)
  obtain ⟨member, own⟩ := List.mem_filter.1 member
  exact ⟨row, member, of_decide_eq_true own, at'⟩

theorem completed_of_complete {now : Instant} {id : String} {completedAt : Option Stamp}
    {notes : Option String} {completion : Completion}
    (done : l.complete now id completedAt notes = .ok (completion, l'))
    (meant : (completedAt.getD (.utc now)).instant? = some i) :
    l'.chores = l.chores ∧ l'.CompletedAt id i ∧ ∀ j, l.CompletedAt id j → l'.CompletedAt id j := by
  obtain ⟨-, i', meant', rfl⟩ := complete_ok done
  obtain rfl := Option.some.inj (meant.symm.trans meant')
  refine ⟨rfl, ⟨_, List.mem_append_right _ List.mem_cons_self, rfl, rfl⟩, ?_⟩
  rintro j ⟨row, member, own, at'⟩
  exact ⟨row, List.mem_append_left _ member, own, at'⟩

theorem Kept.complete_later (k : Kept l) (hc : c ∈ l.candidates.1) {now : Instant}
    {completedAt : Option Stamp} {notes : Option String} {completion : Completion}
    (done : l.complete now c.id completedAt notes = .ok (completion, l'))
    (meant : (completedAt.getD (.utc now)).instant? = some i)
    (late : (∃ row ∈ l.completions, row.choreId = c.id) ∨
      ∃ created, c.createdAt.instant? = some created ∧ created ≤ i) :
    ∃ base base' c', c' ∈ l'.candidates.1 ∧ c'.id = c.id ∧ c'.schedule = c.schedule ∧
      c.Settled base ∧ c'.Settled base' ∧ base ≤ base' := by
  obtain ⟨same, added, kept⟩ := completed_of_complete done meant
  have k' : Kept l' := k.change (.complete done)
  obtain ⟨r, hr, id, read⟩ := k.candidate_row hc
  obtain ⟨s, n, created, updated, valid, holds⟩ := k.chores r hr
  obtain ⟨latest, stored⟩ := k.latestCompletion c.id
  obtain ⟨latest', stored'⟩ := k'.latestCompletion r.id
  rw [stored, holds.read valid latest] at read
  obtain rfl := Except.ok.inj read
  have read' := holds.read valid latest'
  rw [← stored'] at read'
  have hc' := mem_candidates.2 ⟨r, same ▸ hr, read'⟩
  have settled : (r.chore s created updated latest).Settled (latest.getD created) :=
    ⟨⟨n, valid⟩, by cases latest <;> rfl⟩
  have counts {j : Instant} (earlier : l'.CompletedAt r.id j) :
      ∃ base', (r.chore s created updated latest').Settled base' ∧ j ≤ base' :=
    k'.base_ge hc' earlier
  cases latest with
  | some j =>
    obtain ⟨base', settled', le⟩ := counts (kept j (completedAt_of_latest stored))
    exact ⟨j, base', _, hc', rfl, rfl, settled, settled', le⟩
  | none =>
    obtain ⟨base', settled', le⟩ := counts added
    refine ⟨created, base', _, hc', rfl, rfl, settled, settled', ?_⟩
    rcases late with ⟨row, member, own⟩ | ⟨first, meant', before⟩
    · change row.choreId = r.id at own
      have recorded : row ∈ l.completions.filter (·.choreId = r.id) :=
        List.mem_filter.2 ⟨member, decide_eq_true own⟩
      have listed := List.mem_map_of_mem (f := (·.completedAt)) recorded
      obtain ⟨t, greatest, -⟩ := le_greatest? listed
      cases stored.symm.trans greatest
    · obtain rfl := Option.some.inj ((Stamp.instant?_utc created).symm.trans meant')
      exact Nat.le_trans before le

end Ledger

open Ledger (Kept Sound)

namespace Store

/-- Recording a completion never brings a due date forward, if the chore has been completed before or the
completion does not lie before its creation: whenever the chore is evaluated before and after it, it falls
due no earlier, and it is not overdue then if it was not. -/
theorem completion_postpones (episodes : List Episode) {c : Chore} (now : Instant)
    {completedAt : Option Stamp} (notes : Option String) {i : Instant}
    (listed : c ∈ ((ofLedger .empty).run episodes).ledger.candidates.1)
    (meant : (completedAt.getD (.utc now)).instant? = some i)
    (late : (∃ row ∈ ((ofLedger .empty).run episodes).ledger.completions, row.choreId = c.id) ∨
      ∃ created, c.createdAt.instant? = some created ∧ created ≤ i) :
    ∃ completion l c',
      ((ofLedger .empty).run episodes).ledger.complete now c.id completedAt notes = .ok (completion, l) ∧
      l.chore? c.id = .ok (some c') ∧ l.candidates.1.filter (·.id = c.id) = [c'] ∧
      (∀ time time' info info', c.due time = .due info → c'.due time' = .due info' →
        Option.Rel (· ≤ ·) info.nextDue info'.nextDue) ∧
      ∀ time info info', c.due time = .due info → c'.due time = .due info' →
        info.isOverdue = false → info'.isOverdue = false := by
  have kept := run_kept episodes
  have present : ((ofLedger .empty).run episodes).ledger.choreExists c.id = true := by
    obtain ⟨r, hr, own, -⟩ := kept.candidate_row listed
    exact Ledger.choreExists_iff.2 ⟨r, hr, own⟩
  obtain ⟨completion, l, done, -, -⟩ := Ledger.complete_recorded present meant notes
  obtain ⟨base, base', c', hc', own, same, settled, settled', le⟩ :=
    kept.complete_later listed done meant late
  have step := Ledger.Course.single (.complete done)
  have sound' : Sound l := (run_sound episodes).course step
  have kept' : Kept l := kept.course step
  have ids : (l.candidates.1.map (·.id)).Nodup := kept'.candidates.2.1.nodup_iff.2 sound'.choreIds
  refine ⟨completion, l, c', done, own ▸ kept'.chore?_candidate sound' hc',
    Ledger.filter_key_eq ids hc' own, ?_, ?_⟩
  · exact fun time time' info info' found found' => settled.nextDue_mono settled' same le found found'
  · exact fun time info info' found found' early =>
      settled.not_overdue_mono settled' same le found found' early

/-- A chore due at nine every day is completed at six of the next day. -/
theorem completion_postpones_cron :
    let hour (n : Nat) (h : n * Calendar.hour < Calendar.limit := by decide) : Instant :=
      ⟨n * Calendar.hour, h⟩
    let id := rowId "c0000000" 1
    let episodes : List Episode := [.step ⟨hour 240, .createChore "Plants" (.cron "0 9 * * *") none none⟩]
    let s := (ofLedger .empty).run episodes
    let six : Stamp := .utc (hour 270)
    ∃ c ∈ s.ledger.candidates.1, c.id = id ∧ c.due (.utc (hour 245)) = .due ⟨c, some (hour 249), false⟩ ∧
      ∃ completion l c', s.ledger.complete (hour 400) c.id (some six) none = .ok (completion, l) ∧
        l.chore? c.id = .ok (some c') ∧ c'.due (.utc (hour 275)) = .due ⟨c', some (hour 273), true⟩ ∧
        hour 249 ≤ hour 273 := by
  intro hour id episodes s six
  have evaluated : ∃ c ∈ s.ledger.candidates.1, c.id = id ∧ c.createdAt.instant? = some (hour 240) ∧
      c.due (.utc (hour 245)) = .due ⟨c, some (hour 249), false⟩ := by decide +kernel
  let complete : Episode := .step ⟨hour 400, .complete id (some six) none⟩
  have evaluated' : ∃ c ∈ (s.after complete).ledger.candidates.1, c.id = id ∧
      c.due (.utc (hour 275)) = .due ⟨c, some (hour 273), true⟩ := by decide +kernel
  have taken : (s.ledger.complete (hour 400) id (some six) none).toOption.map Prod.snd =
      some (s.after complete).ledger := by decide +kernel
  generalize s.after complete = s' at evaluated' taken
  obtain ⟨c, listed, own, made, found⟩ := evaluated
  have meant : ((some six).getD (.utc (hour 400))).instant? = some (hour 270) := by decide +kernel
  have late : ∃ created, c.createdAt.instant? = some created ∧ created ≤ hour 270 :=
    ⟨hour 240, made, by decide⟩
  obtain ⟨completion, l, c', done, asked, listed', later, -⟩ :=
    completion_postpones episodes (hour 400) none listed meant (.inr late)
  refine ⟨c, listed, own, found, completion, l, c', done, asked, ?_⟩
  change s.ledger.complete (hour 400) c.id (some six) none = .ok (completion, l) at done
  rw [own] at done listed'
  simp only [done, Except.toOption, Option.map_some, Option.some.injEq] at taken
  subst taken
  obtain ⟨d, hd, own', found'⟩ := evaluated'
  have same : d ∈ [c'] := listed' ▸ List.mem_filter.2 ⟨hd, decide_eq_true own'⟩
  obtain rfl := List.mem_singleton.1 same
  have rel := later _ _ _ _ found found'
  exact ⟨found', by cases rel; assumption⟩

end Store

end ChoreReminder
