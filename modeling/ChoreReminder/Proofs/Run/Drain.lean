import Mathlib.Data.List.Perm.Subperm
import ChoreReminder.Proofs.Ledger.Backlog
import ChoreReminder.Proofs.Run.Dispatch

/-! How ticks of the dispatcher drain the queue. Each attempt of a tick that can be noted uses up one of the
attempts that are left; so a run of ticks that note something whenever they attempt something comes to an end
of its work, and from then on a tick finds nothing and does nothing. A failure that cannot be stored uses up
nothing: a tick that meets no other outcome leaves everything as it was, and so does the next. -/

namespace ChoreReminder

def dispatches (batchSize maxAttempts : Int) (ticks : List (Instant × Crew)) : List Step :=
  ticks.map fun t => ⟨t.1, .dispatch t.2 batchSize maxAttempts⟩

namespace Crew

def Storable (c : Crew) : Prop :=
  ∀ sender p state f, (c.send sender p state).1 = .error f → f.text.isWhole = true

variable {crew : Crew}

theorem Storable.attemptsAt (storable : crew.Storable) (ps : List PendingDelivery) (state : crew.State) :
    ∀ a ∈ (Dispatcher.attemptsAt crew.send crew.registry ps state).1, a.isNotable = true := by
  induction ps generalizing state with
  | nil => exact fun a ha => absurd ha List.not_mem_nil
  | cons p rest ih =>
    refine List.forall_mem_cons.2 ⟨?_, ih _⟩
    simp only [Dispatcher.outcomeOf, Attempt.isNotable]
    cases crew.registry.get? p.channel with
    | none => rfl
    | some sender =>
      dsimp only
      rcases said : crew.send sender p state with ⟨f | _, after⟩
      · exact f.reason_isWhole.trans (storable sender p state f (congrArg Prod.fst said))
      · rfl

theorem Storable.perform (storable : crew.Storable) (l : Ledger) (now : Instant) (batchSize maxAttempts : Int) :
    ∀ a ∈ (l.perform ⟨now, .dispatch crew batchSize maxAttempts⟩).attempts, a.isNotable = true := by
  cases pending : l.pending batchSize maxAttempts with
  | error f => simp [Ledger.perform, Dispatcher.tick, Store.read_ofLedger, pending]
  | ok ps =>
    have made := (Dispatcher.tick_ofLedger now crew.send crew.registry crew.state pending).1
    simp only [Ledger.perform, made]
    exact storable.attemptsAt ps crew.state

theorem storable_attempts {ticks : List (Instant × Crew)} (storable : ∀ t ∈ ticks, t.2.Storable) (l : Ledger)
    (batchSize maxAttempts : Int) :
    ∀ tried ∈ l.attempts (dispatches batchSize maxAttempts ticks), ∀ a ∈ tried, a.isNotable = true := by
  induction ticks generalizing l with
  | nil => exact fun tried none => absurd none List.not_mem_nil
  | cons t rest ih =>
    obtain ⟨first, later⟩ := List.forall_mem_cons.1 storable
    exact List.forall_mem_cons.2 ⟨first.perform l t.1 batchSize maxAttempts, ih later _⟩

end Crew

namespace Ledger

variable {l : Ledger} {batchSize maxAttempts : Int} {ps : List PendingDelivery} {as : List Attempt}

theorem countP_notable_le (now : Instant) (sound : Sound l) (pending : l.pending batchSize maxAttempts = .ok ps)
    (tried : as.map (·.delivery) = ps) :
    as.countP (·.isNotable) ≤ l.deliveries.countP fun d =>
      isEligible maxAttempts d ∧ d.id ∈ (as.filterMap (·.mark? now)).map (·.deliveryId) := by
  have ids : (as.filterMap (·.mark? now)).map (·.deliveryId) =
      (as.filter (·.isNotable)).map (·.delivery.deliveryId) :=
    Attempt.map_marks (fun _ _ => Attempt.mark?_deliveryId) as
  have once := Attempt.marks_nodup (Dispatcher.attempts_once sound pending tried) now
  rw [ids] at once ⊢
  have listed : (as.filter (·.isNotable)).map (·.delivery.deliveryId) ⊆
      (l.deliveries.filter fun d => isEligible maxAttempts d ∧
        d.id ∈ (as.filter (·.isNotable)).map (·.delivery.deliveryId)).map (·.id) := by
    intro id hid
    obtain ⟨a, ha, rfl⟩ := List.mem_map.1 hid
    have hp : a.delivery ∈ ps := tried ▸ List.mem_map_of_mem (List.mem_filter.1 ha).1
    obtain ⟨d, hd, joined, eligible⟩ := (pending_ok pending).1 _ hp
    obtain ⟨-, e, -, same, -⟩ := joined?_eq_some joined
    exact List.mem_map.2 ⟨d, List.mem_filter.2 ⟨hd, decide_eq_true ⟨eligible, same ▸ hid⟩⟩, same.symm⟩
  have short := (List.subperm_of_subset once listed).length_le
  rwa [List.length_map, List.length_map, ← List.countP_eq_length_filter, ← List.countP_eq_length_filter] at short

/-- A tick makes an attempt for each delivery of its batch, lowers the backlog by one at least for each of them
that can be noted, and leaves the ledger as it is if none can. -/
theorem Sound.backlog_dispatch (sound : Sound l) (batch : 1 ≤ batchSize ∧ batchSize < 2 ^ 63)
    (attempts : 1 ≤ maxAttempts ∧ maxAttempts < 2 ^ 63) (now : Instant) (crew : Crew) :
    let tick := l.perform ⟨now, .dispatch crew batchSize maxAttempts⟩
    tick.attempts.length = min batchSize.toNat (l.deliveries.countP (isEligible maxAttempts)) ∧
    tick.ledger.backlog maxAttempts + tick.attempts.countP (·.isNotable) ≤ l.backlog maxAttempts ∧
    (tick.attempts.countP (·.isNotable) = 0 → tick.ledger = l) := by
  obtain ⟨ps, pending, length⟩ := sound.pending_length batch attempts
  obtain ⟨tried, store⟩ :=
    Dispatcher.tick_marks crew.send crew.registry now maxAttempts batchSize l crew.state
  rw [pending] at tried
  simp only [perform, store]
  refine ⟨?_, ?_, fun none' => ?_⟩
  · rw [← length, ← List.length_map (·.delivery), tried]
    rfl
  · exact (Nat.add_le_add_left (countP_notable_le now sound pending tried) _).trans (backlog_foldl_mark _)
  · have unmarked : (Dispatcher.tick crew.send crew.registry now batchSize maxAttempts (.ofLedger l)
        crew.state).attempts.filterMap (·.mark? now) = [] := by
      refine List.filterMap_eq_nil_iff.2 fun a ha => ?_
      rw [← Option.not_isSome_iff_eq_none, a.mark?_isSome now]
      exact List.countP_eq_zero.1 none' a ha
    rw [unmarked]
    rfl

theorem Sound.pending_nil (sound : Sound l) (batch : 1 ≤ batchSize ∧ batchSize < 2 ^ 63)
    (attempts : 1 ≤ maxAttempts ∧ maxAttempts < 2 ^ 63) (drained : l.backlog maxAttempts = 0) :
    l.pending batchSize maxAttempts = .ok [] := by
  obtain ⟨ps, pending, length⟩ := sound.pending_length batch attempts
  rw [backlog_eq_zero.1 drained, Nat.min_zero] at length
  rw [pending, List.eq_nil_of_length_eq_zero length]

theorem Sound.backlog_dispatches (sound : Sound l) (batch : 1 ≤ batchSize ∧ batchSize < 2 ^ 63)
    (attempts : 1 ≤ maxAttempts ∧ maxAttempts < 2 ^ 63) (ticks : List (Instant × Crew))
    (noting : ∀ tried ∈ l.attempts (dispatches batchSize maxAttempts ticks),
      tried ≠ [] → ∃ a ∈ tried, a.isNotable = true) :
    (l.run (dispatches batchSize maxAttempts ticks)).backlog maxAttempts ≤
      l.backlog maxAttempts - ticks.length := by
  induction ticks generalizing l with
  | nil => exact Nat.le_refl _
  | cons t rest ih =>
    obtain ⟨length, lowered, -⟩ := sound.backlog_dispatch batch attempts t.1 t.2
    obtain ⟨first, noting⟩ := List.forall_mem_cons.1 noting
    have later := ih (sound.course (l.perform_course ⟨t.1, .dispatch t.2 batchSize maxAttempts⟩)) noting
    simp only [dispatches, List.map_cons, run, List.length_cons] at later ⊢
    rcases Nat.eq_zero_or_pos (l.deliveries.countP (isEligible maxAttempts)) with none | positive
    · have drained := backlog_eq_zero.2 none
      omega
    · have tried : (l.perform ⟨t.1, .dispatch t.2 batchSize maxAttempts⟩).attempts ≠ [] := fun nothing => by
        rw [nothing, List.length_nil] at length
        omega
      have one : 0 < (l.perform ⟨t.1, .dispatch t.2 batchSize maxAttempts⟩).attempts.countP (·.isNotable) :=
        List.countP_pos_iff.2 (first tried)
      omega

/-- A tick makes an attempt for each delivery of its batch and lowers the backlog by one at least for each attempt
that can be noted; if there is none, it changes nothing. So ticks that note something whenever they attempt
something, as they do if all that senders say can be stored, drain the queue: after as many of them as the backlog
counts nothing is pending, and no further tick sends anything or changes anything. -/
theorem dispatch_drains (episodes : List Episode) (batch : 1 ≤ batchSize ∧ batchSize < 2 ^ 63)
    (attempts : 1 ≤ maxAttempts ∧ maxAttempts < 2 ^ 63) :
    let l := ((Store.ofLedger empty).run episodes).ledger
    (∀ now crew,
      let tick := l.perform ⟨now, .dispatch crew batchSize maxAttempts⟩
      tick.attempts.length = min batchSize.toNat (l.deliveries.countP (isEligible maxAttempts)) ∧
      tick.ledger.backlog maxAttempts + tick.attempts.countP (·.isNotable) ≤ l.backlog maxAttempts ∧
      (tick.attempts.countP (·.isNotable) = 0 → tick.ledger = l) ∧
      (crew.Storable → tick.attempts.countP (·.isNotable) = tick.attempts.length)) ∧
    ∀ ticks : List (Instant × Crew), l.backlog maxAttempts ≤ ticks.length →
      (∀ tried ∈ l.attempts (dispatches batchSize maxAttempts ticks),
        tried ≠ [] → ∃ a ∈ tried, a.isNotable = true) ∨ (∀ t ∈ ticks, t.2.Storable) →
      let drained := l.run (dispatches batchSize maxAttempts ticks)
      drained.pending batchSize maxAttempts = .ok [] ∧
      ∀ (now : Instant) (crew : Crew),
        Dispatcher.tick crew.send crew.registry now batchSize maxAttempts (.ofLedger drained)
          crew.state = ⟨[], .ofLedger drained, crew.state, []⟩ := by
  intro l
  have sound : Sound l := Store.run_sound episodes
  constructor
  · intro now crew tick
    obtain ⟨length, lowered, idle⟩ := sound.backlog_dispatch batch attempts now crew
    exact ⟨length, lowered, idle, fun storable =>
      List.countP_eq_length.2 (storable.perform l now batchSize maxAttempts)⟩
  · intro ticks enough noting drained
    have noting : ∀ tried ∈ l.attempts (dispatches batchSize maxAttempts ticks),
        tried ≠ [] → ∃ a ∈ tried, a.isNotable = true := by
      rcases noting with noting | storable
      · exact noting
      · intro tried member some'
        obtain ⟨a, ha⟩ := List.exists_mem_of_ne_nil tried some'
        exact ⟨a, ha, Crew.storable_attempts storable l batchSize maxAttempts tried member a ha⟩
    have lowered := sound.backlog_dispatches batch attempts ticks noting
    rw [Nat.sub_eq_zero_of_le enough] at lowered
    have nothing : drained.backlog maxAttempts = 0 := Nat.eq_zero_of_le_zero lowered
    have sound' : Sound drained := sound.course (run_course l _)
    have pending := sound'.pending_nil batch attempts nothing
    refine ⟨pending, fun now crew => ?_⟩
    simp only [Dispatcher.tick, Store.read_ofLedger, pending, List.foldl_nil]

/-- Two deliveries, one at a time and two attempts each: one is never answered, the other has no sender.
After four ticks neither is tried again. -/
theorem dispatch_drains_failing :
    let start : Instant := ⟨0, by decide⟩
    let crew : Crew := ⟨Unit, Unit, Registry.empty.register "telegram" (),
      fun _ _ s => (.error (.refused "timeout"), s), ()⟩
    let episodes : List Episode := [
      .step ⟨start, .createChore "Plants" .onceInAWhile none none⟩,
      .step ⟨start, .upsert (rowId "c0000000" 1) (.utc start) "Plants" "Due"
        [some "telegram", some "console"]⟩]
    let l := ((Store.ofLedger empty).run episodes).ledger
    let drained := l.run (dispatches 1 2 (List.replicate 4 (start, crew)))
    l.backlog 2 = 4 ∧ drained.pending 1 2 = .ok [] ∧
    Dispatcher.tick crew.send crew.registry start 1 2 (.ofLedger drained) crew.state =
      ⟨[], .ofLedger drained, crew.state, []⟩ := by
  intro start crew episodes l drained
  have backlog : l.backlog 2 = 4 := by decide +kernel
  have storable : crew.Storable := fun _ _ _ f failed => Except.error.inj failed ▸ rfl
  obtain ⟨-, drains⟩ := dispatch_drains episodes (show 1 ≤ (1 : Int) ∧ (1 : Int) < 2 ^ 63 by decide)
    (show 1 ≤ (2 : Int) ∧ (2 : Int) < 2 ^ 63 by decide)
  obtain ⟨pending, still⟩ := drains (List.replicate 4 (start, crew)) (Nat.le_of_eq backlog)
    (.inr fun t ht => List.eq_of_mem_replicate ht ▸ storable)
  exact ⟨backlog, pending, still start crew⟩

/-- A channel that fails with half of a surrogate pair. After as many ticks as the backlog counted at first the
delivery is as it was, and still pending. -/
theorem dispatch_drains_halved :
    let start : Instant := ⟨0, by decide⟩
    let crew : Crew := ⟨Unit, Unit, Registry.empty.register "telegram" (),
      fun _ _ s => (.error (.refused (.halved ⟨"", ⟨0⟩, []⟩)), s), ()⟩
    let episodes : List Episode := [
      .step ⟨start, .createChore "Plants" .onceInAWhile none none⟩,
      .step ⟨start, .upsert (rowId "c0000000" 1) (.utc start) "Plants" "Due" [some "telegram"]⟩]
    let l := ((Store.ofLedger empty).run episodes).ledger
    let drained := l.run (dispatches 50 5 (List.replicate 5 (start, crew)))
    l.backlog 5 = 5 ∧ min (50 : Int).toNat (l.deliveries.countP (isEligible 5)) = 1 ∧
      drained.backlog 5 = 5 ∧ (drained.pending 50 5).toOption.map (·.length) = some 1 := by
  decide +kernel

end Ledger

end ChoreReminder
