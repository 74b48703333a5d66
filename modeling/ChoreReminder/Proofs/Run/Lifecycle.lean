import ChoreReminder.Proofs.Ledger.History
import ChoreReminder.Proofs.Ledger.Sound
import ChoreReminder.Proofs.Run.Basic

/-! The life of a delivery over whole runs. Every ledger that a run leaves behind obeys the rules between
the tables. A delivery is created by one step, under an id that no row had before; whatever steps
follow, it shows what the marks since then say, until it is removed for good. -/

namespace ChoreReminder.Ledger

theorem sound_run (steps : List Step) : Sound (empty.run steps) :=
  Sound.course (run_course empty steps) sound_empty

theorem perform_marks (l : Ledger) (s : Step) :
    (l.perform s).marks = [] ∨
      (l.perform s).ledger = (l.perform s).marks.foldl (fun l m => (l.mark m).2) l := by
  obtain ⟨now, action⟩ := s
  cases action with
  | markDelivered id => exact .inr rfl
  | markFailed id reason => exact .inr rfl
  | dispatch crew batchSize maxAttempts =>
    have tick := Dispatcher.tick_marks crew.send crew.registry now maxAttempts batchSize l crew.state
    refine .inr ?_
    simp only [perform]
    rw [tick.2]
    rfl
  | _ => exact .inl rfl

theorem perform_creates {l : Ledger} {s : Step} {d : Delivery}
    (hd : d ∈ (l.perform s).ledger.deliveries) (fresh : ∀ old ∈ l.deliveries, old.id ≠ d.id) :
    d.Reflects [] := by
  rcases l.perform_marks s with none | only
  · have course := l.perform_course s
    rw [none] at course
    rcases course.delivery hd with ⟨old, member, rfl⟩ | ⟨-, since, suffix, reflects⟩
    · exact absurd rfl (fresh d member)
    · rwa [List.suffix_nil.1 suffix] at reflects
  · rw [only, foldl_mark_deliveries] at hd
    obtain ⟨old, member, rfl⟩ := List.mem_map.1 hd
    exact absurd (foldl_marked_id _ old).symm (fresh old member)

/-- A delivery shows the marks that were meant for it since it was created, as long as it exists. Each
mark is noted exactly if its delivery exists and was not delivered before, and else changes nothing. -/
theorem delivery_lifecycle (before later : List Step) (s : Step) (id : String)
    (absent : ∀ d ∈ (empty.run before).deliveries, d.id ≠ id)
    (created : ∃ d ∈ (empty.run (before ++ [s])).deliveries, d.id = id) :
    (∀ d ∈ (empty.run (before ++ s :: later)).deliveries, d.id = id →
      d.Reflects (((empty.run (before ++ [s])).marks later).filter (·.deliveryId = id))) ∧
    (∀ (l : Ledger) (now : Instant) (id reason : String),
      ((l.markDelivered now id).1 = true ↔
        ∃ d ∈ l.deliveries, d.id = id ∧ d.status ≠ .delivered) ∧
      ((l.markFailed now id reason).1 = true ↔
        ∃ d ∈ l.deliveries, d.id = id ∧ d.status ≠ .delivered) ∧
      ((l.markDelivered now id).1 = false → (l.markDelivered now id).2 = l) ∧
      ((l.markFailed now id reason).1 = false → (l.markFailed now id reason).2 = l)) := by
  constructor
  · intro d hd same
    have step : empty.run (before ++ [s]) = ((empty.run before).perform s).ledger :=
      run_append empty before [s]
    have whole : empty.run (before ++ s :: later) = (empty.run (before ++ [s])).run later := by
      rw [← run_append, List.append_assoc, List.singleton_append]
    rw [whole] at hd
    rcases (run_course _ later).delivery hd with ⟨old, member, rfl⟩ | ⟨fresh, -⟩
    · rw [foldl_marked_id] at same
      have start : old.Reflects [] := by
        rw [step] at member
        exact perform_creates member fun older h => same ▸ absent older h
      exact same ▸ start.foldl_marked _
    · obtain ⟨first, member, rfl⟩ := created
      have issued := (sound_run (before ++ [s])).deliveriesIssued first member
      exact absurd (same ▸ issued) fresh
  · intro l now id reason
    exact ⟨mark_noted l ⟨id, now, none⟩, mark_noted l ⟨id, now, some reason⟩,
      mark_refused (m := ⟨id, now, none⟩), mark_refused (m := ⟨id, now, some reason⟩)⟩

/-- A delivery that fails, goes through, is marked as failed once more and is asked for again. -/
theorem delivery_lifecycle_settled :
    let create : Step := ⟨⟨1, by decide⟩, .createChore "Plants" .onceInAWhile none none⟩
    let upsert (now : Instant) : Step :=
      ⟨now, .upsert (rowId "c0000000" 1) (.utc ⟨0, by decide⟩) "Plants" "Due" [some "telegram"]⟩
    let id := rowId "f0000000" 1
    let later : List Step := [
      ⟨⟨3, by decide⟩, .markFailed id "timeout"⟩, ⟨⟨4, by decide⟩, .markDelivered id⟩,
      ⟨⟨5, by decide⟩, .markFailed id "late"⟩, upsert ⟨6, by decide⟩]
    ∃ d ∈ (empty.run ([create] ++ upsert ⟨2, by decide⟩ :: later)).deliveries,
      d.id = id ∧ d.attemptCount = 1 ∧
      d.Reflects [⟨id, ⟨3, by decide⟩, some "timeout"⟩, ⟨id, ⟨4, by decide⟩, none⟩,
        ⟨id, ⟨5, by decide⟩, some "late"⟩] := by
  intro create upsert id later
  have shown := (delivery_lifecycle [create] later (upsert ⟨2, by decide⟩) id (by decide)
    (by decide)).1
  have present : ∃ d ∈ (empty.run ([create] ++ upsert ⟨2, by decide⟩ :: later)).deliveries,
      d.id = id ∧ d.attemptCount = 1 := by decide
  obtain ⟨d, member, same, count⟩ := present
  exact ⟨d, member, same, count, shown d member same⟩

end ChoreReminder.Ledger
