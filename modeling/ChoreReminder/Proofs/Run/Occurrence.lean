import ChoreReminder.Proofs.Ledger.Candidates
import ChoreReminder.Proofs.Run.Agenda
import ChoreReminder.Proofs.Run.Effect
import ChoreReminder.Proofs.Schedule.NextDue

/-! How many events a run creates for a chore. The generator creates the event of an occurrence once: the
due time of a chore does not depend on when it is looked up, and changes only with its schedule or its
latest completion. So a chore is given one event, and one more at most for each completion of it and each
change of its schedule. -/

namespace ChoreReminder

namespace Store

/-! ### Counting over a run -/

def newEvents (id : String) (s : Store) (t : Episode) : Nat :=
  (s.after t).ledger.events.countP fun e => e.choreId = id ∧ e ∉ s.ledger.events

def newCompletions (id : String) (s : Store) (t : Episode) : Nat :=
  (s.after t).ledger.completions.countP fun c => c.choreId = id ∧ c ∉ s.ledger.completions

def reschedulings (id : String) (s : Store) : Episode → Nat
  | .step ⟨now, .updateSchedule choreId schedule⟩ =>
    match (s.write .updateSchedule fun l => l.updateSchedule now choreId schedule).1 with
    | .ok true => if choreId = id then 1 else 0
    | _ => 0
  | _ => 0

def tally (count : Store → Episode → Nat) (s : Store) : List Episode → Nat
  | [] => 0
  | t :: rest => count s t + tally count (s.after t) rest

/-- The run creates events by ticks of the generator only: who asks for one by hand finds it there. -/
def CreatesByTicks (s : Store) : List Episode → Prop
  | [] => True
  | t :: rest =>
    (t.asksByHand = true → (s.after t).ledger.events ⊆ s.ledger.events) ∧
      CreatesByTicks (s.after t) rest

end Store

namespace Ledger

variable {l l' : Ledger} {t : Episode} {id : String} {c : Chore}

/-! ### What a chore tells -/

theorem Effect.keeps_candidate (h : Effect l t l') (k : Kept l) (sound : Sound l)
    (hc : c ∈ l.candidates.1) :
    c ∈ l'.candidates.1 ∨ ChoreGone l' c.id ∨
    (∃ row ∈ l'.completions, row.choreId = c.id ∧ row ∉ l.completions) ∨
    ∃ now schedule l₁, t = .step ⟨now, .updateSchedule c.id schedule⟩ ∧
      l.updateSchedule now c.id schedule = .ok (true, l₁) := by
  have same (chores : l'.chores = l.chores) (completions : l'.completions = l.completions) :
      c ∈ l'.candidates.1 := by
    rwa [candidates_congr chores completions]
  cases h with
  | none => exact .inl hc
  | createChore done =>
    obtain ⟨-, created, -, -, rfl⟩ := createChore_ok done
    exact .inl (k.candidate_stays hc (fun r hr _ => List.mem_append_left _ hr) rfl)
  | @updateSchedule now choreId schedule found l' done =>
    obtain ⟨-, exists', rfl⟩ := updateSchedule_ok done
    by_cases own : c.id = choreId
    · obtain rfl := own
      rw [k.candidate_exists hc] at exists'
      obtain rfl := exists'
      exact .inr (.inr (.inr ⟨now, schedule, _, rfl, done⟩))
    · refine .inl (k.candidate_stays hc (fun r hr id => ?_) rfl)
      exact List.mem_map.2 ⟨r, hr, if_neg fun other => own (id.symm.trans other)⟩
  | deleteChore now choreId =>
    by_cases own : c.id = choreId
    · obtain rfl := own
      exact .inr (.inl (sound.chore_gone (choreExists_iff.1 (k.candidate_exists hc))))
    · refine .inl (k.candidate_stays hc (fun r hr id => ?_) ?_)
      · exact List.mem_filter.2 ⟨hr, by simpa [id] using own⟩
      · simp only [Ledger.deleteChore, List.filter_filter]
        refine List.filter_congr fun row _ => ?_
        by_cases mine : row.choreId = c.id
        · simp [mine, own]
        · simp [mine]
  | @complete _ choreId _ _ _ _ done =>
    obtain ⟨-, completed, -, rfl⟩ := complete_ok done
    by_cases own : choreId = c.id
    · refine .inr (.inr (.inl ⟨_, List.mem_append_right _ List.mem_cons_self, own, fun old => ?_⟩))
      exact not_isIssued_next "d0000000" l.ids.completions (sound.completionsIssued _ old)
    · refine .inl (k.candidate_stays hc (fun r hr _ => hr) ?_)
      simp [List.filter_append, newCompletionRow, own]
  | ask asks grown => exact .inl (same grown.chores grown.completions)
  | mark s ms =>
    rw [foldl_mark_ledger] at same ⊢
    exact .inl (same rfl rfl)

def DueAt (l : Ledger) (id : String) (due : Instant) : Prop :=
  ∃ c ∈ l.candidates.1, c.id = id ∧ ∃ base, c.Settled base ∧ c.FallsDueAt base due

theorem DueAt.unique {due due' : Instant} (h : l.DueAt id due) (h' : l.DueAt id due') (k : Kept l)
    (sound : Sound l) : due = due' := by
  obtain ⟨c, hc, own, base, settled, falls⟩ := h
  obtain ⟨c', hc', own', base', settled', falls'⟩ := h'
  obtain rfl := k.candidate_unique sound hc hc' (own.trans own'.symm)
  obtain rfl := settled.base_unique settled'
  exact falls.unique falls'

theorem Grown.dueAt (grown : Grown l l') {due : Instant} : l'.DueAt id due ↔ l.DueAt id due := by
  rw [DueAt, candidates_congr grown.chores grown.completions, DueAt]

def Current (l : Ledger) (id : String) : Prop := ∃ due, l.DueAt id due ∧ l.HasEvent id due

end Ledger

open Ledger (ChoreGone Current Grown Kept Sound)

namespace Store

variable {s : Store} {t : Episode} {id : String}

theorem current_episode (h : Current s.ledger id) (k : Kept s.ledger) (sound : Sound s.ledger)
    (completions : newCompletions id s t = 0) (schedule : reschedulings id s t = 0) :
    Current (s.after t).ledger id ∨ ChoreGone (s.after t).ledger id := by
  have unchanged (same : (s.after t).ledger = s.ledger) : Current (s.after t).ledger id := same ▸ h
  obtain ⟨due, ⟨c, hc, rfl, base, settled, falls⟩, e, he, chore, at'⟩ := h
  have effect := s.episode_effect t
  rcases effect.keeps_candidate k sound hc with stays | gone | ⟨row, member, own, fresh⟩ |
    ⟨now, schedule', l₁, rfl, done⟩
  · rcases effect.keeps_event he with event | ⟨-, removed⟩
    · exact .inl ⟨due, ⟨c, stays, rfl, base, settled, falls⟩, e, event, chore, at'⟩
    · rw [removed, chore]
      exact .inr (sound.chore_gone (Ledger.choreExists_iff.1 (k.candidate_exists hc)))
  · exact .inr gone
  · have counted : 0 < newCompletions c.id s t :=
      List.countP_pos_iff.2 ⟨row, member, decide_eq_true ⟨own, fresh⟩⟩
    omega
  · rcases s.write_cases .updateSchedule fun l => l.updateSchedule now c.id schedule' with
      ⟨-, same⟩ | ⟨found, given, done'⟩
    · exact .inl (unchanged same)
    · obtain ⟨rfl, -⟩ := Prod.mk.inj (Except.ok.inj (done'.symm.trans done))
      simp [reschedulings, given] at schedule

/-! ### What an episode creates -/

theorem newEvents_eq_zero (old : (s.after t).ledger.events ⊆ s.ledger.events) :
    newEvents id s t = 0 :=
  List.countP_eq_zero.2 fun _ he new => (of_decide_eq_true new).2 (old he)

theorem newEvents_pos (new : 0 < newEvents id s t) :
    ∃ e ∈ (s.after t).ledger.events, e.choreId = id ∧ e ∉ s.ledger.events := by
  obtain ⟨e, he, new⟩ := List.countP_pos_iff.1 new
  exact ⟨e, he, of_decide_eq_true new⟩

theorem newEvents_le_one (sound : Sound (s.after t).ledger) (due : Instant)
    (one : ∀ e ∈ (s.after t).ledger.events, e.choreId = id → e ∉ s.ledger.events → e.dueAt = due) :
    newEvents id s t ≤ 1 :=
  calc newEvents id s t
      ≤ (s.after t).ledger.events.countP fun e => (e.choreId, e.dueAt) = (id, due) := by
        refine List.countP_mono_left fun e he new => ?_
        obtain ⟨chore, fresh⟩ := of_decide_eq_true new
        exact decide_eq_true (Prod.ext chore (one e he chore fresh))
    _ ≤ 1 := by
        rw [List.countP_eq_length_filter]
        exact Ledger.filter_key_length sound.eventKeys (id, due)

theorem generate_creates (k : Kept s.ledger) (now : Instant) (time : Stamp)
    (channels : List (Option String)) :
    let l' := (Generator.tick now time channels s).store.ledger
    Grown s.ledger l' ∧
      ∀ e ∈ l'.events, e ∉ s.ledger.events → s.ledger.DueAt e.choreId e.dueAt := by
  obtain ⟨grown, -, added⟩ := Generator.tick_grown now channels s time
  refine ⟨grown, fun e he fresh => ?_⟩
  obtain ⟨c, hc, info, listed, chore, next⟩ := (added e he).resolve_left fresh
  obtain ⟨base, settled⟩ := k.candidates.2.2 c hc
  exact ⟨c, hc, chore, base, settled, settled.falls_of_due (Agenda.due_of_listed listed).1 next⟩

theorem newEvents_episode (k : Kept s.ledger) (sound : Sound s.ledger) (id : String)
    (byTick : t.asksByHand = true → (s.after t).ledger.events ⊆ s.ledger.events) :
    newEvents id s t = 0 ∨
      newEvents id s t = 1 ∧ ¬ Current s.ledger id ∧ Current (s.after t).ledger id := by
  have effect := s.episode_effect t
  rcases effect.events with old | byHand | ⟨now, time, channels, rfl⟩
  · exact .inl (newEvents_eq_zero old)
  · exact .inl (newEvents_eq_zero (byTick byHand))
  · obtain ⟨grown, added⟩ := generate_creates k now time channels
    obtain ⟨ms, course⟩ := effect.course
    have sound' := sound.course course
    rcases Nat.eq_zero_or_pos (newEvents id s (.step ⟨now, .generate time channels⟩)) with
      zero | positive
    · exact .inl zero
    · obtain ⟨e, he, rfl, fresh⟩ := newEvents_pos positive
      have due := added e he fresh
      have atMostOne := newEvents_le_one sound' e.dueAt fun e' he' chore fresh' =>
        (chore ▸ added e' he' fresh').unique due k sound
      refine .inr ⟨by omega, ?_, e.dueAt, grown.dueAt.2 due, e, he, rfl, rfl⟩
      -- An event that was there for the present due time would have the key of the new one.
      rintro ⟨known, due', old, member, chore, at'⟩
      obtain rfl := due'.unique due k sound
      have same : old = e :=
        Ledger.eq_of_key sound'.eventKeys (grown.events.subset member) he (by rw [chore, at'])
      exact fresh (same ▸ member)

/-! ### Runs -/

/-- The induction over a run: nothing is created for a chore that is gone, and while the event of the
present due time is there, every new one is paid for by a change. -/
theorem tally_newEvents_le (episodes : List Episode) (k : Kept s.ledger) (sound : Sound s.ledger)
    (byTicks : s.CreatesByTicks episodes) (id : String) :
    (ChoreGone s.ledger id → s.tally (newEvents id) episodes = 0) ∧
    (Current s.ledger id → s.tally (newEvents id) episodes ≤
      s.tally (newCompletions id) episodes + s.tally (reschedulings id) episodes) ∧
    s.tally (newEvents id) episodes ≤
      1 + s.tally (newCompletions id) episodes + s.tally (reschedulings id) episodes := by
  induction episodes generalizing s with
  | nil => exact ⟨fun _ => rfl, fun _ => Nat.zero_le _, Nat.zero_le _⟩
  | cons t rest ih =>
    obtain ⟨ms, course⟩ := (s.episode_effect t).course
    have sound' := sound.course course
    obtain ⟨gone, current, total⟩ := ih (k.course course) sound' byTicks.2
    have step := newEvents_episode k sound id byTicks.1
    simp only [tally]
    refine ⟨fun g => ?_, fun h => ?_, ?_⟩
    · have g' := g.course course
      have none : newEvents id s t = 0 := List.countP_eq_zero.2 fun e he new =>
        g'.no_event sound' e he (of_decide_eq_true new).1
      rw [none, gone g']
    · have none : newEvents id s t = 0 := step.resolve_right fun new => new.2.1 h
      by_cases completions : newCompletions id s t = 0
      · by_cases schedule : reschedulings id s t = 0
        · rcases current_episode h k sound completions schedule with h' | g'
          · have := current h'
            omega
          · have := gone g'
            omega
        · omega
      · omega
    · rcases step with none | ⟨one, -, h'⟩
      · omega
      · have := current h'
        omega

/-- A chore has the same due time whenever it is evaluated. In a run in which ticks create the events, it is
given one event, and one more at most for each completion of it and each change of its schedule; if the
event of its present due time is there already, only those. -/
theorem events_bounded (before later : List Episode) (id : String)
    (byTicks : ((ofLedger .empty).run before).CreatesByTicks later) :
    let s := (ofLedger .empty).run before
    (∀ c ∈ s.ledger.candidates.1, ∀ now now' info info', c.due now = .due info →
      c.due now' = .due info' → info.nextDue = info'.nextDue) ∧
    s.tally (newEvents id) later ≤
      1 + s.tally (newCompletions id) later + s.tally (reschedulings id) later ∧
    ∀ c ∈ s.ledger.candidates.1, c.id = id → ∀ now info due, c.due now = .due info →
      info.nextDue = some due → s.ledger.HasEvent id due →
      s.tally (newEvents id) later ≤
        s.tally (newCompletions id) later + s.tally (reschedulings id) later := by
  intro s
  have k : Kept s.ledger := run_kept before
  obtain ⟨-, current, total⟩ := tally_newEvents_le later k (run_sound before) byTicks id
  refine ⟨fun c hc now now' info info' found found' => ?_, total, ?_⟩
  · obtain ⟨base, settled⟩ := k.candidates.2.2 c hc
    exact settled.nextDue_eq found found'
  · intro c hc own now info due found next event
    obtain ⟨base, settled⟩ := k.candidates.2.2 c hc
    exact current ⟨due, ⟨c, hc, own, base, settled, settled.falls_of_due found next⟩, event⟩

/-- Three ticks for a daily chore, an event that is asked for again, a completion that is lost and one that
is recorded, and a new schedule: the bound is met. -/
theorem events_bounded_daily :
    let day (n : Nat) (h : n < Calendar.dayLimit := by decide) : Instant :=
      ⟨n * Calendar.day, Nat.mul_lt_mul_of_pos_right h (by decide)⟩
    let id := rowId "c0000000" 1
    let tick (i : Instant) : Episode := .step ⟨i, .generate (.utc i) [some "telegram"]⟩
    let complete : Episode := .step ⟨day 4, .complete id none none⟩
    let episodes : List Episode := [
      .step ⟨day 1, .createChore "Plants" (.interval 1 none none) none none⟩, tick (day 3), tick (day 4),
      .step ⟨day 4, .upsert id (.utc (day 2)) "Plants" "Due" [some "console"]⟩,
      .outage ⟨.complete, [true], "down"⟩, complete, complete, tick (day 6),
      .step ⟨day 6, .updateSchedule id (.interval 1 (some 8) none)⟩, tick (day 7)]
    let s := ofLedger .empty
    s.tally (newEvents id) episodes = 3 ∧
    s.tally (newCompletions id) episodes = 1 ∧ s.tally (reschedulings id) episodes = 1 ∧
    s.tally (newEvents id) episodes ≤
      1 + s.tally (newCompletions id) episodes + s.tally (reschedulings id) episodes := by
  intro day id tick complete episodes s
  have byTicks : ((ofLedger .empty).run []).CreatesByTicks episodes := by
    refine ⟨?_, ?_, ?_, ?_, ?_, ?_, ?_, ?_, ?_, ?_, trivial⟩ <;> decide +kernel
  exact ⟨by decide +kernel, by decide +kernel, by decide +kernel,
    (events_bounded [] episodes id byTicks).2.1⟩

end Store

end ChoreReminder
