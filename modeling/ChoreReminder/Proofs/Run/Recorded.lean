import ChoreReminder.Proofs.Ledger.Completions
import ChoreReminder.Proofs.Ledger.Part
import ChoreReminder.Proofs.Run.Completed

/-! The completions of a chore over whole runs. A call that completes a chore tells the instant by itself, in
whatever form it gives the time; what the store holds of the chore are the instants of those calls that went
through, and what it answers about the chore's completions is what those instants give. -/

namespace ChoreReminder

def Episode.completes? (id : String) : Episode → Option Instant
  | step ⟨now, .complete choreId completedAt _⟩ =>
    if choreId = id then (completedAt.getD (.utc now)).instant? else none
  | step ⟨now, .press _ query _⟩ => if Press.named? query = some id then some now else none
  | _ => none

open Ledger (RecordedAt AnswersBy AnswersAlike ChoreGone Sound Kept)

namespace Store

variable {s : Store} {l : Ledger} {t : Episode} {id : String} {times : List Instant}

/-- What the episode records of the chore: calls that fail or are refused leave the ledger as it is. -/
def records (s : Store) (id : String) (t : Episode) : List Instant :=
  if (s.after t).ledger = s.ledger then [] else (t.completes? id).toList

def recorded (s : Store) (id : String) : List Episode → List Instant
  | [] => []
  | t :: rest => s.records id t ++ (s.after t).recorded id rest

/-! ### What an episode adds -/

theorem records_of_same (same : (s.after t).ledger = s.ledger) : s.records id t = [] := if_pos same

theorem records_of_none (none : t.completes? id = none) : s.records id t = [] := by
  rw [records, none]
  exact ite_self _

theorem recordedAt_complete (r : RecordedAt s.ledger id times) {now i : Instant} {choreId : String}
    {completedAt : Option Stamp} {notes : Option String} {completion : Completion}
    (done : s.ledger.complete now choreId completedAt notes = .ok (completion, (s.after t).ledger))
    (meant : (completedAt.getD (.utc now)).instant? = some i)
    (asked : t.completes? id = if choreId = id then some i else none) :
    RecordedAt (s.after t).ledger id (times ++ s.records id t) := by
  by_cases own : choreId = id
  · obtain ⟨-, i', meant', added⟩ := Ledger.complete_ok done
    obtain rfl := Option.some.inj (meant.symm.trans meant')
    rw [records, if_neg (Ledger.complete_ne done), asked, if_pos own, RecordedAt, added]
    simp only [List.filter_append, List.map_append, Option.toList_some, List.map_cons, List.map_nil]
    rw [r, List.filter_cons_of_pos (by simp [Ledger.newCompletionRow, own])]
    rfl
  · rw [records_of_none (asked.trans (if_neg own)), List.append_nil, RecordedAt,
      Ledger.completions_congr (Ledger.part_complete own done), r]

theorem recordedAt_deleteChore (sound : Sound l) (r : RecordedAt l id times) (choreId : String) :
    ChoreGone (l.deleteChore choreId).2 id ∨ RecordedAt (l.deleteChore choreId).2 id times := by
  by_cases own : choreId = id
  · subst own
    cases present : l.choreExists choreId with
    | true => exact .inl (sound.chore_gone (Ledger.choreExists_iff.1 present))
    | false =>
      have none : ∀ c ∈ l.completions, (c.choreId != choreId) = true := by
        intro c hc
        rw [bne_iff_ne]
        intro mine
        obtain ⟨row, hr, chore⟩ := sound.completionChore c hc
        rw [Ledger.choreExists_iff.2 ⟨row, hr, chore.trans mine⟩] at present
        cases present
      refine .inr ?_
      rw [RecordedAt, Ledger.deleteChore, List.filter_eq_self.2 none, r]
  · exact .inr ((congrArg (List.map _) (Ledger.completions_congr (sound.part_deleteChore own))).trans r)

theorem after_recordedAt (sound : Sound s.ledger) (r : RecordedAt s.ledger id times) (t : Episode) :
    ChoreGone (s.after t).ledger id ∨ RecordedAt (s.after t).ledger id (times ++ s.records id t) := by
  have unchanged (same : (s.after t).ledger = s.ledger) :
      RecordedAt (s.after t).ledger id (times ++ s.records id t) := by
    rw [records_of_same same, List.append_nil, same]
    exact r
  have silent (none : t.completes? id = none)
      (same : (s.after t).ledger.completions = s.ledger.completions) :
      RecordedAt (s.after t).ledger id (times ++ s.records id t) := by
    rw [records_of_none none, List.append_nil, RecordedAt, same, r]
  rcases t with outage | ⟨now, action⟩
  · exact .inr (unchanged rfl)
  cases action with
  | createChore name schedule description createdAt =>
    refine .inr (silent rfl (write_keeps (·.completions) (fun _ l' done => ?_) _))
    obtain ⟨-, created, -, -, rfl⟩ := Ledger.createChore_ok done
    rfl
  | updateSchedule choreId schedule =>
    refine .inr (silent rfl (write_keeps (·.completions) (fun _ l' done => ?_) _))
    obtain ⟨-, -, rfl⟩ := Ledger.updateSchedule_ok done
    rfl
  | deleteChore choreId =>
    rcases s.write_cases .deleteChore fun l => .ok (l.deleteChore choreId) with ⟨-, same⟩ | ⟨found, -, done⟩
    · exact .inr (unchanged same)
    · have removed : (s.ledger.deleteChore choreId).2 = (s.after (.step ⟨now, .deleteChore choreId⟩)).ledger :=
        congrArg Prod.snd (Except.ok.inj done)
      rw [records_of_none rfl, List.append_nil, ← removed]
      exact recordedAt_deleteChore sound r choreId
  | complete choreId completedAt notes =>
    rcases s.write_cases .complete fun l => l.complete now choreId completedAt notes with
      ⟨-, same⟩ | ⟨completion, -, done⟩
    · exact .inr (unchanged same)
    · obtain ⟨-, i, meant, -⟩ := Ledger.complete_ok done
      refine .inr (recordedAt_complete r done meant ?_)
      rw [Episode.completes?, meant]
  | upsert choreId due title body channels =>
    exact .inr (silent rfl (write_keeps (·.completions)
      (fun _ l' done => (Ledger.upsert_grown done).1.completions) _))
  | markDelivered delivery =>
    refine .inr (silent rfl (write_keeps (·.completions) (fun _ l' done => ?_) _))
    exact congrArg (·.2.completions) (Except.ok.inj done).symm
  | markFailed delivery reason =>
    refine .inr (silent rfl (write_keeps (·.completions) (fun _ l' done => ?_) _))
    exact congrArg (·.2.completions) (Except.ok.inj done).symm
  | generate time channels =>
    exact .inr (silent rfl (Generator.tick_grown now channels s time).1.completions)
  | dispatch crew batchSize maxAttempts =>
    refine .inr (silent rfl ?_)
    obtain ⟨ms, marked⟩ :=
      Dispatcher.tick_ledger crew.send crew.registry now maxAttempts batchSize s crew.state
    rw [after, perform, marked, Ledger.foldl_mark_ledger]
  | press c query wire =>
    rcases Press.handle_ledger c now query ⟨s, wire, []⟩ with same | ⟨choreId, completion, named, done⟩
    · exact .inr (unchanged same)
    · refine .inr (recordedAt_complete r done (Stamp.instant?_utc now) ?_)
      rw [Episode.completes?, named]
      simp only [Option.some.injEq]

theorem run_recordedAt (sound : Sound s.ledger) (r : RecordedAt s.ledger id times) (episodes : List Episode) :
    ChoreGone (s.run episodes).ledger id ∨
      RecordedAt (s.run episodes).ledger id (times ++ s.recorded id episodes) := by
  induction episodes generalizing s times with
  | nil => exact .inr (by rwa [recorded, List.append_nil])
  | cons t rest ih =>
    obtain ⟨ms, course⟩ := (s.episode_effect t).course
    rcases after_recordedAt sound r t with gone | r'
    · obtain ⟨ms', later⟩ := (s.after t).run_course rest
      exact .inl (gone.course later)
    · have later := ih (sound.course course) r'
      rwa [List.append_assoc] at later

theorem run_recordedAt_of_present (sound : Sound s.ledger) (r : RecordedAt s.ledger id times)
    (episodes : List Episode) (present : (s.run episodes).ledger.choreExists id = true) :
    RecordedAt (s.run episodes).ledger id (times ++ s.recorded id episodes) := by
  rcases run_recordedAt sound r episodes with gone | r'
  · obtain ⟨row, hr, own⟩ := Ledger.choreExists_iff.1 present
    exact absurd own (gone.gone row hr)
  · exact r'

theorem run_answersBy (kept : Kept s.ledger) (sound : Sound s.ledger) (r : RecordedAt s.ledger id times)
    (episodes : List Episode) (present : (s.run episodes).ledger.choreExists id = true) :
    AnswersBy (s.run episodes).ledger id (times ++ s.recorded id episodes) := by
  obtain ⟨ms, course⟩ := s.run_course episodes
  exact (kept.course course).answersBy (sound.course course) present
    (run_recordedAt_of_present sound r episodes present)

end Store

/-! ### The order of the calls -/

structure Recording where
  now : Instant
  completedAt : Option Stamp
  notes : Option String

namespace Recording

def instant? (c : Recording) : Option Instant := (c.completedAt.getD (.utc c.now)).instant?

def episode (id : String) (c : Recording) : Episode := .step ⟨c.now, .complete id c.completedAt c.notes⟩

end Recording

namespace Store

variable {l : Ledger} {id : String} {times : List Instant}

theorem run_recordings (present : l.choreExists id = true) (calls : List Recording) :
    ((ofLedger l).run (calls.map (·.episode id))).ledger.choreExists id = true ∧
      (ofLedger l).recorded id (calls.map (·.episode id)) = calls.filterMap (·.instant?) := by
  induction calls generalizing l with
  | nil => exact ⟨present, rfl⟩
  | cons c rest ih =>
    rw [List.map_cons, run, recorded]
    cases meant : c.instant? with
    | none =>
      have failed : l.complete c.now id c.completedAt c.notes = .error (.overflow .date) := by
        unfold Recording.instant? at meant
        simp only [Ledger.complete, Ledger.storable, meant]
        rfl
      have same : (ofLedger l).after (c.episode id) = ofLedger l :=
        congrArg Prod.snd (write_ofLedger_error failed)
      rw [records_of_same (congrArg Store.ledger same), same, List.filterMap_cons_none meant]
      exact ih present
    | some i =>
      obtain ⟨completion, l', done, present', -⟩ := Ledger.complete_recorded present meant c.notes
      have next : (ofLedger l).after (c.episode id) = ofLedger l' :=
        congrArg Prod.snd (write_ofLedger_ok done)
      have new : (ofLedger l).records id (c.episode id) = [i] := by
        have changed : ((ofLedger l).after (c.episode id)).ledger ≠ (ofLedger l).ledger :=
          next ▸ Ledger.complete_ne done
        rw [records, if_neg changed, Recording.episode, Episode.completes?, if_pos rfl]
        exact congrArg Option.toList meant
      rw [new, next, List.filterMap_cons_some meant]
      exact ⟨(ih present').1, congrArg (i :: ·) (ih present').2⟩

/-- The queries about the completions of a chore answer by the instants at which it was completed, whatever
happened to the store on the way: the latest one, whether there is one since a time, and the latest ones up
to a limit of less than 64 bits. The order in which the completions came has no part in the first two, be it
that they came in different runs or by the same calls in another order. -/
theorem completions_by_instant (episodes : List Episode) {id : String}
    (present : ((ofLedger .empty).run episodes).ledger.choreExists id = true) :
    let l := ((ofLedger .empty).run episodes).ledger
    let times := (ofLedger .empty).recorded id episodes
    AnswersBy l id times ∧
    (∀ others : List Episode, ((ofLedger .empty).run others).ledger.choreExists id = true →
      times.Perm ((ofLedger .empty).recorded id others) →
      AnswersAlike l ((ofLedger .empty).run others).ledger id) ∧
    ∀ calls calls' : List Recording, calls.Perm calls' →
      AnswersAlike ((ofLedger l).run (calls.map (·.episode id))).ledger
        ((ofLedger l).run (calls'.map (·.episode id))).ledger id := by
  intro l times
  have none : RecordedAt (ofLedger .empty).ledger id [] := rfl
  have reached (others : List Episode)
      (present : ((ofLedger .empty).run others).ledger.choreExists id = true) :
      AnswersBy ((ofLedger .empty).run others).ledger id ((ofLedger .empty).recorded id others) :=
    run_answersBy Ledger.kept_empty Ledger.sound_empty none others present
  refine ⟨reached episodes present, ?_, ?_⟩
  · intro others present' same
    exact (reached episodes present).alike (reached others present') same
  · intro calls calls' same
    have r : RecordedAt l id times := run_recordedAt_of_present Ledger.sound_empty none episodes present
    have follows (calls : List Recording) :
        AnswersBy ((ofLedger l).run (calls.map (·.episode id))).ledger id
          (times ++ calls.filterMap (·.instant?)) := by
      obtain ⟨present', new⟩ := run_recordings present calls
      rw [← new]
      exact run_answersBy (s := ofLedger l) (run_kept episodes) (run_sound episodes) r _ present'
    exact (follows calls).alike (follows calls') ((same.filterMap _).append_left times)

/-- A completion by a clock two hours ahead, one that fails, and one without an offset. -/
theorem completions_by_instant_offsets :
    let hour (n : Nat) (h : n * Calendar.hour < Calendar.limit := by decide) : Instant :=
      ⟨n * Calendar.hour, h⟩
    let id := rowId "c0000000" 1
    let complete (time : Stamp) : Episode := .step ⟨hour 400, .complete id (some time) none⟩
    let ahead : Stamp := ⟨hour 292, some (2 * Calendar.hour)⟩
    let naive : Stamp := ⟨hour 250, none⟩
    let episodes := [.step ⟨hour 240, .createChore "Plants" .onceInAWhile none none⟩, complete ahead,
      .outage ⟨.complete, [true], "down"⟩, complete (.utc (hour 300)), complete naive]
    let l := ((ofLedger .empty).run episodes).ledger
    let first : Recording := ⟨hour 400, some ahead, none⟩
    let second : Recording := ⟨hour 400, some naive, none⟩
    l.choreExists id = true ∧ AnswersBy l id [hour 290, hour 250] ∧
    AnswersAlike ((ofLedger l).run ([first, second].map (·.episode id))).ledger
      ((ofLedger l).run ([second, first].map (·.episode id))).ledger id := by
  intro hour id complete ahead naive episodes l first second
  have present : l.choreExists id = true := by decide +kernel
  have times : (ofLedger .empty).recorded id episodes = [hour 290, hour 250] := by decide +kernel
  obtain ⟨answers, -, reordered⟩ := completions_by_instant episodes present
  rw [times] at answers
  exact ⟨present, answers, reordered [first, second] [second, first] (.swap _ _ _)⟩

/-- A limit of 64 bits is not taken, although the chore has a completion. -/
theorem completions_beyond_word :
    let hour (n : Nat) (h : n * Calendar.hour < Calendar.limit := by decide) : Instant :=
      ⟨n * Calendar.hour, h⟩
    let id := rowId "c0000000" 1
    let episodes : List Episode := [.step ⟨hour 240, .createChore "Plants" .onceInAWhile none none⟩,
      .step ⟨hour 241, .complete id none none⟩]
    let l := ((ofLedger .empty).run episodes).ledger
    l.choreExists id = true ∧ (ofLedger .empty).recorded id episodes = [hour 241] ∧
      ∀ cs, l.completionsOf id (2 ^ 63) ≠ .ok cs := by
  refine ⟨by decide +kernel, by decide +kernel, nofun⟩

end Store

end ChoreReminder
