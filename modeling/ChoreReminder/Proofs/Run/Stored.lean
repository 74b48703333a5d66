import ChoreReminder.Proofs.Ledger.Candidates
import ChoreReminder.Proofs.Run.Effect

/-! What is read of a chore after any run. A row keeps the name, the description and the time of creation that
the chore was given, and its columns are always those of one schedule: of the last one that was given by a
call that went through. So nothing of an earlier schedule is ever read, whatever kind it had. -/

namespace ChoreReminder

structure ChoreOrigin where
  id : String
  name : String
  description : Option String
  created : Instant

structure Chore.Tells (c : Chore) (o : ChoreOrigin) (s : Schedule) : Prop where
  id : c.id = o.id
  name : c.name = o.name
  description : c.description = o.description
  createdAt : c.createdAt = .utc o.created
  schedule : c.schedule = s

namespace Ledger

variable {l l' : Ledger} {o : ChoreOrigin} {s : Schedule} {t : Episode}

structure RowOf (o : ChoreOrigin) (s : Schedule) (r : ChoreRow) : Prop where
  id : r.id = o.id
  name : r.name = o.name
  description : r.description = o.description
  holds : ∃ updated, r.Holds s o.created updated
  valid : ∃ now, s.validate (.utc now) = .ok ()

def Stores (l : Ledger) (o : ChoreOrigin) (s : Schedule) : Prop := ∃ r ∈ l.chores, RowOf o s r

theorem createChore_stores {now : Instant} {name : String} {description : Option String}
    {createdAt : Option Stamp} {chore : Chore}
    (done : l.createChore now name s description createdAt = .ok (chore, l')) :
    ∃ created, (createdAt.getD (.utc now)).instant? = some created ∧
      l'.Stores ⟨chore.id, name, description, created⟩ s := by
  obtain ⟨valid, created, meant, -, rfl⟩ := createChore_ok done
  refine ⟨created, meant, _, List.mem_append_right _ List.mem_cons_self, ?_⟩
  exact ⟨(createChore_id done).symm, rfl, rfl, ⟨_, rfl, rfl, rfl⟩, ⟨now, valid⟩⟩

theorem Stores.updateSchedule (h : l.Stores o s) {now : Instant} {new : Schedule} {found : Bool}
    (done : l.updateSchedule now o.id new = .ok (found, l')) : l'.Stores o new := by
  obtain ⟨valid, -, rfl⟩ := updateSchedule_ok done
  obtain ⟨r, hr, row⟩ := h
  obtain ⟨updated, holds⟩ := row.holds
  refine ⟨rescheduled now new r, List.mem_map.2 ⟨r, hr, if_pos row.id⟩, ?_⟩
  exact ⟨row.id, row.name, row.description, ⟨now, rfl, holds.created, rfl⟩, ⟨now, valid⟩⟩

theorem Effect.keeps_row (h : Effect l t l') {r : ChoreRow} (hr : r ∈ l.chores)
    (other : ∀ now new, t ≠ .step ⟨now, .updateSchedule r.id new⟩) :
    r ∈ l'.chores ∨ t.action? = some (.deleteChore r.id) ∧ l' = (l.deleteChore r.id).2 := by
  cases h with
  | none => exact .inl hr
  | createChore done =>
    obtain ⟨-, created, -, -, rfl⟩ := createChore_ok done
    exact .inl (List.mem_append_left _ hr)
  | updateSchedule done =>
    obtain ⟨-, -, rfl⟩ := updateSchedule_ok done
    exact .inl (List.mem_map.2 ⟨r, hr, if_neg fun own => other _ _ (by rw [own])⟩)
  | deleteChore now id =>
    by_cases own : r.id = id
    · exact .inr (own ▸ ⟨rfl, rfl⟩)
    · exact .inl (List.mem_filter.2 ⟨hr, by simpa using own⟩)
  | complete done =>
    obtain ⟨-, completed, -, rfl⟩ := complete_ok done
    exact .inl hr
  | ask asks grown => exact .inl (grown.chores ▸ hr)
  | mark s ms =>
    rw [foldl_mark_ledger]
    exact .inl hr

theorem Stores.read (h : l.Stores o s) (k : Kept l) (sound : Sound l) :
    ∃ c : Chore, c.Tells o s ∧ l.chore? o.id = .ok (some c) ∧
      l.candidates.1.filter (·.id = o.id) = [c] := by
  obtain ⟨r, hr, row⟩ := h
  obtain ⟨updated, holds⟩ := row.holds
  obtain ⟨now, valid⟩ := row.valid
  obtain ⟨latest, stored⟩ := k.latestCompletion o.id
  let c := r.chore s o.created updated latest
  have read : r.read (l.latestCompletion o.id) = .ok c := stored ▸ holds.read valid latest
  have member : c ∈ l.candidates.1 := mem_candidates.2 ⟨r, hr, row.id ▸ read⟩
  have ids : (l.candidates.1.map (·.id)).Nodup := k.candidates.2.1.nodup_iff.2 sound.choreIds
  exact ⟨c, ⟨row.id, row.name, row.description, rfl, rfl⟩, row.id ▸ k.chore?_candidate sound member,
    filter_key_eq ids member row.id⟩

end Ledger

open Ledger (ChoreGone Kept Sound)

namespace Store

variable {s : Store} {o : ChoreOrigin} {schedule : Schedule} {t : Episode}

def scheduled? (s : Store) (id : String) : Episode → Option Schedule
  | .step ⟨now, .updateSchedule choreId schedule⟩ =>
    if choreId = id then
      match (s.write .updateSchedule fun l => l.updateSchedule now choreId schedule).1 with
      | .ok _ => some schedule
      | .error _ => none
    else none
  | _ => none

def scheduled (s : Store) (id : String) : List Episode → List Schedule
  | [] => []
  | t :: rest => (s.scheduled? id t).toList ++ scheduled (s.after t) id rest

theorem scheduled?_eq_none {id : String} (other : ∀ now new, t ≠ .step ⟨now, .updateSchedule id new⟩) :
    s.scheduled? id t = none := by
  unfold scheduled?
  split
  · next now choreId new => exact if_neg fun own => other now new (by rw [own])
  · rfl

theorem scheduled_last (s : Store) (id : String) (t : Episode) (rest : List Episode) (schedule : Schedule) :
    (s.scheduled id (t :: rest)).getLastD schedule =
      ((s.after t).scheduled id rest).getLastD ((s.scheduled? id t).getD schedule) := by
  rw [scheduled]
  cases s.scheduled? id t with
  | none => rfl
  | some new => exact List.getLastD_cons

theorem after_stores (h : s.ledger.Stores o schedule) (t : Episode) :
    (s.after t).ledger.Stores o ((s.scheduled? o.id t).getD schedule) ∨
      t.action? = some (.deleteChore o.id) ∧ (s.after t).ledger = (s.ledger.deleteChore o.id).2 := by
  -- A call for this chore may fail and then gives no schedule; all other episodes give it none.
  by_cases own : ∃ now new, t = .step ⟨now, .updateSchedule o.id new⟩
  · obtain ⟨now, new, rfl⟩ := own
    refine .inl ?_
    simp only [scheduled?, if_true]
    rcases s.write_cases .updateSchedule fun l => l.updateSchedule now o.id new with
      ⟨⟨e, failed⟩, same⟩ | ⟨found, ok, done⟩
    · rw [failed]
      exact same ▸ h
    · rw [ok]
      exact h.updateSchedule done
  · simp only [not_exists] at own
    rw [scheduled?_eq_none own]
    obtain ⟨r, hr, row⟩ := h
    rcases (s.episode_effect t).keeps_row hr (row.id ▸ own) with stays | removed
    · exact .inl ⟨r, stays, row⟩
    · exact .inr (row.id ▸ removed)

theorem run_stores (h : s.ledger.Stores o schedule) (sound : Sound s.ledger) (later : List Episode) :
    (s.run later).ledger.Stores o ((s.scheduled o.id later).getLastD schedule) ∨
      (∃ t ∈ later, t.action? = some (.deleteChore o.id)) ∧ ChoreGone (s.run later).ledger o.id := by
  -- The schedule that is stored now is the one to fall back on if the rest of the run gives none.
  induction later generalizing s schedule with
  | nil => exact .inl h
  | cons t rest ih =>
    rcases after_stores h t with stored | ⟨removed, gone⟩
    · rw [scheduled_last]
      obtain ⟨ms, course⟩ := (s.episode_effect t).course
      rcases ih stored (sound.course course) with still | ⟨⟨t', ht', removed⟩, gone⟩
      · exact .inl still
      · exact .inr ⟨⟨t', List.mem_cons_of_mem _ ht', removed⟩, gone⟩
    · obtain ⟨r, hr, row⟩ := h
      have first : ChoreGone (s.after t).ledger o.id := gone ▸ sound.chore_gone ⟨r, hr, row.id⟩
      obtain ⟨ms, course⟩ := (s.after t).run_course rest
      exact .inr ⟨⟨t, List.mem_cons_self, removed⟩, first.course course⟩

/-- Whatever follows its creation and whichever calls fail, a chore is there until a call removes it, and as
long as it is there, it is read in both ways with its name, its description, the instant of its creation and
the last schedule that a call gave it. -/
theorem chore_survives (before later : List Episode) (now : Instant) (name : String) (schedule : Schedule)
    (description : Option String) (createdAt : Option Stamp) {chore : Chore} {s : Store}
    (created : ((ofLedger .empty).run before).write .createChore
      (fun l => l.createChore now name schedule description createdAt) = (.ok chore, s)) :
    let l := (s.run later).ledger
    ((∀ t ∈ later, t.action? ≠ some (.deleteChore chore.id)) → l.choreExists chore.id = true) ∧
    (l.choreExists chore.id = true → ∃ c i, (createdAt.getD (.utc now)).instant? = some i ∧
      c.Tells ⟨chore.id, name, description, i⟩ ((s.scheduled chore.id later).getLastD schedule) ∧
      l.chore? chore.id = .ok (some c) ∧ l.candidates.1.filter (·.id = chore.id) = [c]) := by
  intro l
  have done := write_eq_ok created
  have change := Ledger.Course.single (.createChore done)
  have sound : Sound s.ledger := (run_sound before).course change
  obtain ⟨ms, course⟩ := s.run_course later
  have k : Kept l := ((run_kept before).course change).course course
  obtain ⟨i, meant, stored⟩ := Ledger.createChore_stores done
  rcases run_stores stored sound later with still | ⟨removed, gone⟩
  · refine ⟨fun _ => ?_, fun _ => ?_⟩
    · obtain ⟨r, hr, row⟩ := still
      exact Ledger.choreExists_iff.2 ⟨r, hr, row.id⟩
    · obtain ⟨c, tells, read⟩ := still.read k (sound.course course)
      exact ⟨c, i, meant, tells, read⟩
  · refine ⟨fun kept => ?_, fun present => ?_⟩
    · obtain ⟨t, ht, action⟩ := removed
      exact absurd action (kept t ht)
    · obtain ⟨r, hr, own⟩ := Ledger.choreExists_iff.1 present
      exact absurd own (gone.gone r hr)

/-- The chore is given each kind of schedule; one is refused, and one call does not reach the store. -/
theorem chore_survives_kinds :
    let hour (n : Nat) (h : n * Calendar.hour < Calendar.limit := by decide) : Instant :=
      ⟨n * Calendar.hour, h⟩
    let id := rowId "c0000000" 2
    let update (schedule : Schedule) : Episode := .step ⟨hour 240, .updateSchedule id schedule⟩
    let before : List Episode := [.step ⟨hour 240, .createChore "Windows" .onceInAWhile none none⟩]
    let made := ((ofLedger .empty).run before).write .createChore fun l =>
      l.createChore (hour 240) "Plants" .onceInAWhile (some "Water")
        (some ⟨hour 102, some (2 * Calendar.hour)⟩)
    let later : List Episode := [
      update (.interval 3 (some 8) none), update (.interval 0 none none), update (.cron "0 9 * * *"),
      .step ⟨hour 240, .deleteChore (rowId "c0000000" 1)⟩, .outage ⟨.updateSchedule, [true], "locked"⟩,
      update .onceInAWhile]
    let l := (made.2.run later).ledger
    l.choreExists id = true ∧
    ∃ c : Chore, c.Tells ⟨id, "Plants", some "Water", hour 100⟩ (.cron "0 9 * * *") ∧
      l.chore? id = .ok (some c) ∧ l.candidates.1.filter (·.id = id) = [c] := by
  intro hour id update before made later l
  let createdAt : Stamp := ⟨hour 102, some (2 * Calendar.hour)⟩
  let chore : Chore := ⟨id, "Plants", some "Water", .onceInAWhile, createdAt, .utc (hour 240), none⟩
  have ok : made.1 = .ok chore := by decide +kernel
  have given : made.2.scheduled id later = [.interval 3 (some 8) none, .cron "0 9 * * *"] := by
    decide +kernel
  have created : made = (.ok chore, made.2) := by rw [← ok]
  obtain ⟨-, read⟩ := chore_survives before later (hour 240) "Plants" .onceInAWhile (some "Water")
    (some createdAt) created
  have there : l.choreExists id = true := by decide +kernel
  have moment : createdAt.instant? = some (hour 100) := by decide +kernel
  obtain ⟨c, i, meant, tells, found⟩ := read there
  obtain rfl := Option.some.inj (moment.symm.trans meant)
  rw [given] at tells
  exact ⟨there, c, tells, found⟩

end Store

end ChoreReminder
