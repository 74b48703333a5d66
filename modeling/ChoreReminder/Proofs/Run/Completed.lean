import ChoreReminder.Proofs.Ledger.Candidates
import ChoreReminder.Proofs.Run.Agenda
import ChoreReminder.Proofs.Run.Effect
import ChoreReminder.Proofs.Schedule.NextDue

/-! What a completion does for its chore. A completion that is recorded stays until its chore is removed, and
a chore counts from the latest of its completions, in whatever order they came. So whatever follows, the
chore falls due after the completion, and up to that instant it is neither on the agenda nor given an
event. -/

namespace ChoreReminder

namespace Ledger

variable {l l' : Ledger} {id : String} {i n : Instant} {c : Chore} {time : Stamp}

/-! ### Completions that stay -/

theorem complete_recorded (present : l.choreExists id = true) {completedAt : Option Stamp}
    {now : Instant} (meant : (completedAt.getD (.utc now)).instant? = some i)
    (notes : Option String) :
    ∃ completion l', l.complete now id completedAt notes = .ok (completion, l') ∧
      l'.choreExists id = true ∧ l'.CompletedAt id i := by
  simp only [complete, storable_eq_ok.2 meant, bind_eq_ok, present, Bool.not_true,
    Bool.false_eq_true, if_false, pure_eq_ok]
  exact ⟨_, _, ⟨i, rfl, rfl⟩, present, _, List.mem_append_right _ List.mem_cons_self, rfl, rfl⟩

theorem CompletedAt.change (done : l.CompletedAt id i) (h : Change l l') (sound : Sound l) :
    l'.CompletedAt id i ∨ ChoreGone l' id := by
  obtain ⟨row, member, own, at'⟩ := done
  have stays (still : row ∈ l'.completions) : l'.CompletedAt id i := ⟨row, still, own, at'⟩
  cases h with
  | createChore done =>
    obtain ⟨-, created, -, -, rfl⟩ := createChore_ok done
    exact .inl (stays member)
  | updateSchedule done =>
    obtain ⟨-, -, rfl⟩ := updateSchedule_ok done
    exact .inl (stays member)
  | deleteChore choreId =>
    by_cases removed : row.choreId = choreId
    · obtain rfl := removed
      exact .inr (own ▸ sound.chore_gone (sound.completionChore row member))
    · exact .inl (stays (List.mem_filter.2 ⟨member, by simpa using removed⟩))
  | complete done =>
    obtain ⟨-, completed, -, rfl⟩ := complete_ok done
    exact .inl (stays (List.mem_append_left _ member))
  | addEvent => exact .inl (stays member)
  | addDelivery => exact .inl (stays member)

theorem CompletedAt.course (done : l.CompletedAt id i) {ms : List Mark} (h : Course l ms l')
    (sound : Sound l) : l'.CompletedAt id i ∨ ChoreGone l' id := by
  refine (h.preserves (P := fun l => Sound l ∧ (l.CompletedAt id i ∨ ChoreGone l id))
    (fun change now => ⟨now.1.change change, ?_⟩) (fun m now => ⟨now.1.mark m, ?_⟩)
    ⟨sound, .inl done⟩).2
  · rcases now.2 with done | gone
    · exact done.change change now.1
    · exact .inr (gone.course (.single change))
  · rw [mark_ledger]
    exact now.2.imp (fun done => done) fun gone => ⟨gone.issued, gone.gone⟩

/-! ### Due times after a completion -/

theorem Kept.lt_nextDue (k : Kept l) (hc : c ∈ l.candidates.1) (done : l.CompletedAt c.id i)
    {info : DueInfo} (found : c.due time = .due info) {due : Instant}
    (next : info.nextDue = some due) : i < due := by
  obtain ⟨base, settled, le⟩ := k.base_ge hc done
  exact Nat.lt_of_le_of_lt le (settled.base_lt (settled.falls_of_due found next))

theorem Kept.not_overdue (k : Kept l) (hc : c ∈ l.candidates.1) (done : l.CompletedAt c.id i)
    (moment : time.instant? = some n) (before : n ≤ i) {info : DueInfo}
    (found : c.due time = .due info) : info.isOverdue = false := by
  obtain ⟨base, settled, le⟩ := k.base_ge hc done
  rw [← Bool.not_eq_true]
  intro overdue
  obtain ⟨n', due, moment', falls, past⟩ := settled.due_le_of_overdue found overdue
  obtain rfl := Option.some.inj (moment.symm.trans moment')
  have later : base < due := settled.base_lt falls
  have chain : due ≤ base := Nat.le_trans past (Nat.le_trans before le)
  exact Nat.lt_irrefl _ (Nat.lt_of_lt_of_le later chain)

theorem Kept.not_listed (k : Kept l) (hc : c ∈ l.candidates.1) (done : l.CompletedAt c.id i)
    (moment : time.instant? = some n) (before : n ≤ i) : Agenda.listed time false c = none := by
  cases given : Agenda.listed time false c with
  | none => rfl
  | some info =>
    obtain ⟨found, overdue⟩ := Agenda.due_of_listed given
    rw [k.not_overdue hc done moment before found] at overdue
    cases overdue

end Ledger

open Ledger (Kept Sound)

namespace Store

variable {s : Store} {id : String} {time : Stamp}

/-! ### Chores that are passed over -/

theorem agenda_passes
    (passed : ∀ c ∈ s.ledger.candidates.1, c.id = id → Agenda.listed time false c = none)
    {infos : List DueInfo} (agenda : (s.agenda time false).1 = .ok infos) :
    ∀ info ∈ infos, info.chore.id ≠ id := by
  intro info member own
  have collected := (Generator.agenda_cases s time false).2 infos agenda
  obtain ⟨c, hc, given⟩ := Agenda.listed_of_mem_collect collected member
  rw [Agenda.chore_of_listed given] at own
  rw [passed c hc own] at given
  cases given

theorem tick_passes
    (passed : ∀ c ∈ s.ledger.candidates.1, c.id = id → Agenda.listed time false c = none)
    (now : Instant) (channels : List (Option String)) :
    ∀ e ∈ (Generator.tick now time channels s).store.ledger.events,
      e.choreId = id → e ∈ s.ledger.events := by
  intro e he own
  rcases (Generator.tick_grown now channels s time).2.2 e he with old | ⟨c, hc, info, given, chore, -⟩
  · exact old
  · rw [passed c hc (chore.trans own)] at given
    cases given

/-- A completion of a chore is recorded, whatever was recorded before. Whatever follows, the chore falls
due after it. Up to the instant of the completion the chore is not overdue, it is not on the agenda, and a
tick of the generator adds no event for it. -/
theorem completed_not_due (before : List Episode) (now : Instant) {id : String}
    {completedAt : Option Stamp} (notes : Option String) {i : Instant}
    (present : ((ofLedger .empty).run before).ledger.choreExists id = true)
    (meant : (completedAt.getD (.utc now)).instant? = some i) :
    ∃ completion l,
      ((ofLedger .empty).run before).ledger.complete now id completedAt notes = .ok (completion, l) ∧
      (∃ c ∈ l.candidates.1, c.id = id) ∧
      ∀ (outages : List Outage) (later : List Episode),
        let s := (⟨l, outages⟩ : Store).run later
        (∀ c ∈ s.ledger.candidates.1, c.id = id → ∀ time info, c.due time = .due info →
          (∀ due, info.nextDue = some due → i < due) ∧
          ∀ n, time.instant? = some n → n ≤ i → info.isOverdue = false) ∧
        ∀ time n, time.instant? = some n → n ≤ i →
          (∀ infos, (s.agenda time false).1 = .ok infos → ∀ info ∈ infos, info.chore.id ≠ id) ∧
          ∀ present channels,
            ∀ e ∈ (Generator.tick present time channels s).store.ledger.events,
              e.choreId = id → e ∈ s.ledger.events := by
  obtain ⟨completion, l, recorded, still, done⟩ := Ledger.complete_recorded present meant notes
  have step := Ledger.Course.single (.complete recorded)
  have sound : Sound l := (run_sound before).course step
  have kept : Kept l := (run_kept before).course step
  refine ⟨completion, l, recorded, kept.exists_candidate still, fun outages later => ?_⟩
  intro s
  obtain ⟨ms, course⟩ := (⟨l, outages⟩ : Store).run_course later
  have k : Kept s.ledger := kept.course course
  have known : ∀ c ∈ s.ledger.candidates.1, c.id = id → s.ledger.CompletedAt c.id i := by
    rintro c hc rfl
    exact (done.course course sound).resolve_right fun gone => gone.no_candidate k c hc rfl
  constructor
  · intro c hc own time info found
    exact ⟨fun due next => k.lt_nextDue hc (known c hc own) found next,
      fun n moment le => k.not_overdue hc (known c hc own) moment le found⟩
  · intro time n moment le
    have passed : ∀ c ∈ s.ledger.candidates.1, c.id = id → Agenda.listed time false c = none :=
      fun c hc own => k.not_listed hc (known c hc own) moment le
    exact ⟨fun infos agenda => agenda_passes passed agenda, tick_passes passed⟩

/-- A completion is recorded by a clock two hours ahead, between a later one and an earlier one. -/
theorem completed_not_due_daily :
    let hour (n : Nat) (h : n * Calendar.hour < Calendar.limit := by decide) : Instant :=
      ⟨n * Calendar.hour, h⟩
    let id := rowId "c0000000" 1
    let complete (time : Stamp) : Episode := .step ⟨hour 400, .complete id (some time) none⟩
    let before : List Episode := [
      .step ⟨hour 240, .createChore "Plants" (.interval 1 (some 8) none) none none⟩,
      complete (.utc (hour 300))]
    let ahead : Stamp := ⟨hour 292, some (2 * Calendar.hour)⟩
    let s := (ofLedger .empty).run before
    let later : List Episode := [complete (.utc (hour 250))]
    s.ledger.choreExists id = true ∧ ahead.instant? = some (hour 290) ∧
    ∃ c ∈ ((s.after (complete ahead)).run later).ledger.candidates.1, c.id = id ∧
      c.due (.utc (hour 290)) = .due ⟨c, some (hour 320), false⟩ ∧ hour 290 < hour 320 := by
  intro hour id complete before ahead s later
  have present : s.ledger.choreExists id = true := by decide +kernel
  have meant : ((some ahead).getD (.utc (hour 400))).instant? = some (hour 290) := by decide +kernel
  have evaluated : ∃ c ∈ ((s.after (complete ahead)).run later).ledger.candidates.1, c.id = id ∧
      c.due (.utc (hour 290)) = .due ⟨c, some (hour 320), false⟩ := by decide +kernel
  have taken : (s.ledger.complete (hour 400) id (some ahead) none).toOption.map Prod.snd =
      some (s.after (complete ahead)).ledger := by decide +kernel
  generalize s.after (complete ahead) = s' at evaluated taken ⊢
  obtain ⟨completion, l, recorded, -, follows⟩ :=
    completed_not_due before (hour 400) none present meant
  change s.ledger.complete (hour 400) id (some ahead) none = .ok (completion, l) at recorded
  simp only [recorded, Except.toOption, Option.map_some, Option.some.injEq] at taken
  subst taken
  obtain ⟨c, hc, own, found⟩ := evaluated
  obtain ⟨due, -⟩ := follows s'.outages later
  exact ⟨present, meant, c, hc, own, found, (due c hc own _ _ found).1 _ rfl⟩

end Store

end ChoreReminder
