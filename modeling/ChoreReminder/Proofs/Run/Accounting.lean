import ChoreReminder.Proofs.Ledger.Pending
import ChoreReminder.Proofs.Run.Basic

/-! The account of attempts at deliveries over whole runs that set no mark by hand. The marks of such a
run are those of its attempts, as far as they can be noted; a delivery is attempted only while no attempt
succeeded, at most once in a tick, and noted only as often as the limit allows. The account is kept under
what a delivery is for, so that it outlives the delivery. -/

namespace ChoreReminder

/-- What a mark says of the attempt that it stems from. -/
def Mark.trace (m : Mark) : String × Bool := (m.deliveryId, m.failure.isNone)

namespace Attempt

def succeeded (a : Attempt) : Bool := a.outcome = .delivered

def isFor (key : String × Instant × String) (a : Attempt) : Bool := a.delivery.key = key

def trace (a : Attempt) : String × Bool := (a.delivery.deliveryId, a.succeeded)

theorem isNotable_of_succeeded {a : Attempt} (done : a.succeeded = true) : a.isNotable = true := by
  obtain ⟨p, outcome⟩ := a
  obtain rfl : outcome = .delivered := of_decide_eq_true done
  rfl

theorem trace_of_mark? {a : Attempt} {now : Instant} {m : Mark} (marked : a.mark? now = some m) :
    m.trace = a.trace := by
  obtain ⟨p, _ | fault | _⟩ := a
  · cases marked
    rfl
  · obtain ⟨reason, -, rfl⟩ := Option.map_eq_some_iff.1 marked
    rfl
  · cases marked
    rfl

theorem filter_marks (as : List Attempt) (now : Instant) (id : String) :
    (as.filterMap (·.mark? now)).filter (·.deliveryId = id) =
      (as.filter (·.delivery.deliveryId = id)).filterMap (·.mark? now) := by
  rw [List.filter_filterMap, List.filterMap_filter]
  refine List.filterMap_congr fun a _ => ?_
  cases marked : a.mark? now with
  | none => simp
  | some m => simp [Option.filter, mark?_deliveryId marked]

end Attempt

namespace Ledger

variable {l : Ledger} {log : List (List Attempt)} {ms : List Mark}

theorem perform_attempts (s : Step) (auto : s.action.marksByHand = false) :
    (l.perform s).marks = (l.perform s).attempts.filterMap (·.mark? s.now) ∧
    ((l.deliveries.map (·.id)).Nodup →
      ((l.perform s).attempts.map (·.delivery.deliveryId)).Nodup) ∧
    ∀ a ∈ (l.perform s).attempts, ∃ maxAttempts, s.action.limit? = some maxAttempts ∧
      ∃ d ∈ l.deliveries, l.joined? d = some a.delivery ∧ isEligible maxAttempts d = true := by
  obtain ⟨now, action⟩ := s
  cases action with
  | markDelivered id => exact absurd auto (by simp [Action.marksByHand])
  | markFailed id reason => exact absurd auto (by simp [Action.marksByHand])
  | dispatch crew batchSize maxAttempts =>
    have tick := (Dispatcher.tick_marks crew.send crew.registry now maxAttempts batchSize l
      crew.state).1
    simp only [perform]
    refine ⟨trivial, ?_⟩
    cases h : l.pending batchSize maxAttempts with
    | error f =>
      rw [h] at tick
      simp [List.map_eq_nil_iff.1 tick]
    | ok ps =>
      obtain ⟨rows, distinct⟩ := pending_ok h
      rw [h] at tick
      refine ⟨fun ids => ?_, fun a ha => ⟨maxAttempts, rfl, ?_⟩⟩
      · rw [← Function.comp_def (·.deliveryId) Attempt.delivery, ← List.map_map, tick]
        exact distinct ids
      · have listed : a.delivery ∈ ps := by
          have member := List.mem_map_of_mem (f := (·.delivery)) ha
          rwa [tick] at member
        exact rows _ listed
  | _ => exact ⟨rfl, fun _ => List.nodup_nil, fun a ha => absurd ha List.not_mem_nil⟩

def past (ms : List Mark) (id : String) : List Mark := ms.filter (·.deliveryId = id)

theorem past_append (ms ms' : List Mark) (id : String) :
    past (ms ++ ms') id = past ms id ++ past ms' id := List.filter_append ..

/-- A past in which nothing follows a success. -/
def Orderly (history : List Mark) : Prop :=
  ∃ failures rest, history = failures ++ rest ∧ (∀ m ∈ failures, m.failure.isSome = true) ∧
    rest.length ≤ 1

/-- The books after a run: the ledger, the attempts tick by tick, and the marks agree. -/
structure Accounts (l : Ledger) (log : List (List Attempt)) (ms : List Mark) : Prop where
  sound : Sound l
  trace : ms.map Mark.trace = (log.flatten.filter (·.isNotable)).map Attempt.trace
  reflects : ∀ d ∈ l.deliveries, d.Reflects (past ms d.id)
  known : ∀ a ∈ log.flatten, l.Known a.delivery
  keys : ∀ a ∈ log.flatten, ∀ b ∈ log.flatten,
    (a.delivery.key = b.delivery.key ↔ a.delivery.deliveryId = b.delivery.deliveryId)
  distinct : ∀ tick ∈ log, (tick.map (·.delivery.deliveryId)).Nodup
  orderly : ∀ id, Orderly (past ms id)

theorem accounts_empty : Accounts empty [] [] where
  sound := sound_empty
  trace := rfl
  reflects := by simp [empty]
  known := by simp
  keys := by simp
  distinct := by simp
  orderly := fun id => ⟨[], [], rfl, by simp, by simp⟩

namespace Accounts

theorem attempted_holds {s : Step} (auto : s.action.marksByHand = false) :
    ∀ a ∈ (l.perform s).attempts, l.Holds a.delivery := by
  intro a ha
  obtain ⟨-, -, d, member, joined, -⟩ := (perform_attempts s auto).2.2 a ha
  exact joined_holds member joined

theorem marks_issued (h : Accounts l log ms) :
    ∀ m ∈ ms, IsIssued "f0000000" l.ids.deliveries m.deliveryId := by
  intro m hm
  have traced : m.trace ∈ (log.flatten.filter (·.isNotable)).map Attempt.trace :=
    h.trace ▸ List.mem_map_of_mem hm
  obtain ⟨a, ha, same⟩ := List.mem_map.1 traced
  have id : a.delivery.deliveryId = m.deliveryId := congrArg Prod.fst same
  exact id ▸ h.sound.known_issued (h.known a (List.mem_filter.1 ha).1)

/-- A step adds to the past of a delivery only if nothing but failures were noted of it, fewer than
the limit, and it adds one mark. -/
theorem attempted (h : Accounts l log ms) {s : Step} (auto : s.action.marksByHand = false)
    (id : String) :
    past (l.perform s).marks id = [] ∨
    ∃ m maxAttempts, past (l.perform s).marks id = [m] ∧ s.action.limit? = some maxAttempts ∧
      (∀ n ∈ past ms id, n.failure.isSome = true) ∧ ((past ms id).length : Int) < maxAttempts := by
  obtain ⟨marks, distinct, eligible⟩ := perform_attempts (l := l) s auto
  let chosen := (l.perform s).attempts.filter (·.delivery.deliveryId = id)
  have added : past (l.perform s).marks id = chosen.filterMap (·.mark? s.now) := by
    rw [past, marks, Attempt.filter_marks]
  have few : chosen.length ≤ 1 := filter_key_length (distinct h.sound.deliveryIds) id
  match hc : chosen, few with
  | [], _ => exact .inl added
  | [a], _ =>
    have taken : a ∈ chosen := by rw [hc]; exact List.mem_singleton_self a
    obtain ⟨member, meant⟩ := List.mem_filter.1 taken
    obtain ⟨maxAttempts, limit, d, row, joined, open'⟩ := eligible a member
    obtain ⟨-, e, -, same, -⟩ := joined?_eq_some joined
    have key : d.id = id := same.symm.trans (by simpa using meant)
    have reflects := h.reflects d row
    rw [key] at reflects
    simp only [isEligible, Bool.and_eq_true, bne_iff_ne, decide_eq_true_eq] at open'
    have failures := reflects.all_failures open'.1
    have count := reflects.attemptCount
    rw [List.takeWhile_eq_self_iff.2 failures] at count
    cases marked : a.mark? s.now with
    | none => exact .inl (added.trans (List.filterMap_cons_none marked))
    | some m =>
      refine .inr ⟨m, maxAttempts, added.trans (List.filterMap_cons_some marked), limit, failures, ?_⟩
      rw [← count]
      exact open'.2

theorem perform (h : Accounts l log ms) {s : Step} (auto : s.action.marksByHand = false) :
    Accounts (l.perform s).ledger (log ++ [(l.perform s).attempts]) (ms ++ (l.perform s).marks) := by
  have course := l.perform_course s
  obtain ⟨marks, distinct, -⟩ := perform_attempts (l := l) s auto
  have holds := attempted_holds (l := l) auto
  have flat : (log ++ [(l.perform s).attempts]).flatten = log.flatten ++ (l.perform s).attempts := by
    rw [List.flatten_append, List.flatten_singleton]
  constructor
  case sound => exact Sound.course course h.sound
  case trace =>
    rw [flat, List.filter_append, List.map_append, List.map_append, h.trace, marks,
      Attempt.map_marks fun _ _ => Attempt.trace_of_mark?]
  case reflects =>
    intro d hd
    rcases course.delivery hd with ⟨old, member, rfl⟩ | ⟨fresh, since, suffix, reflects⟩
    · rw [foldl_marked_id, past_append]
      exact (h.reflects old member).foldl_marked _
    · have issued : ∀ m ∈ ms ++ (l.perform s).marks,
          IsIssued "f0000000" l.ids.deliveries m.deliveryId := by
        intro m hm
        rcases List.mem_append.1 hm with hm | hm
        · exact h.marks_issued m hm
        · rw [marks] at hm
          obtain ⟨a, ha, marked⟩ := List.mem_filterMap.1 hm
          rw [Attempt.mark?_deliveryId marked]
          exact h.sound.holds_issued (holds a ha)
      have not_meant : ∀ m ∈ ms ++ (l.perform s).marks, ¬ m.deliveryId = d.id := by
        intro m hm same
        exact fresh (same ▸ issued m hm)
      have all : past (ms ++ (l.perform s).marks) d.id = [] := by
        simpa only [past, List.filter_eq_nil_iff, decide_eq_true_eq] using not_meant
      have some' : since.filter (·.deliveryId = d.id) = [] := by
        simp only [List.filter_eq_nil_iff, decide_eq_true_eq]
        exact fun m hm => not_meant m (List.mem_append_right _ (suffix.subset hm))
      rw [all]
      rwa [some'] at reflects
  case known =>
    intro a ha
    rw [flat] at ha
    refine Sound.known_course course h.sound ?_
    rcases List.mem_append.1 ha with ha | ha
    · exact h.known a ha
    · exact .inl (holds a ha)
  case keys =>
    intro a ha b hb
    rw [flat] at ha hb
    rcases List.mem_append.1 ha with ha | ha <;> rcases List.mem_append.1 hb with hb | hb
    · exact h.keys a ha b hb
    · rw [eq_comm, h.sound.key_eq_iff_of_known (holds b hb) (h.known a ha), eq_comm]
    · exact h.sound.key_eq_iff_of_known (holds a ha) (h.known b hb)
    · exact h.sound.key_eq_iff (holds a ha) (holds b hb)
  case distinct =>
    intro tick ht
    rcases List.mem_append.1 ht with ht | ht
    · exact h.distinct tick ht
    · exact List.mem_singleton.1 ht ▸ distinct h.sound.deliveryIds
  case orderly =>
    intro id
    rw [past_append]
    rcases h.attempted auto id with none | ⟨m, -, one, -, failures, -⟩
    · rw [none, List.append_nil]
      exact h.orderly id
    · rw [one]
      exact ⟨past ms id, [m], rfl, failures, Nat.le_refl 1⟩

end Accounts

theorem accounts_run (steps : List Step) (auto : ∀ s ∈ steps, s.action.marksByHand = false)
    (h : Accounts l log ms) :
    Accounts (l.run steps) (log ++ l.attempts steps) (ms ++ l.marks steps) := by
  induction steps generalizing l log ms with
  | nil => simpa [run, attempts, marks] using h
  | cons s rest ih =>
    have first := h.perform (auto s List.mem_cons_self)
    have whole := ih (fun s hs => auto s (List.mem_cons_of_mem _ hs)) first
    simpa [run, attempts, marks] using whole

theorem past_limited {m : Int} (steps : List Step)
    (auto : ∀ s ∈ steps, s.action.marksByHand = false)
    (limit : ∀ s ∈ steps, ∀ n, s.action.limit? = some n → n = m) (h : Accounts l log ms)
    (id : String) (before : ((past ms id).length : Int) ≤ m) :
    ((past (ms ++ l.marks steps) id).length : Int) ≤ m := by
  induction steps generalizing l log ms with
  | nil => simpa [marks] using before
  | cons s rest ih =>
    have auto_s := auto s List.mem_cons_self
    have step : ((past (ms ++ (l.perform s).marks) id).length : Int) ≤ m := by
      rw [past_append, List.length_append]
      rcases h.attempted auto_s id with none | ⟨mark, n, one, hn, -, less⟩
      · rw [none, List.length_nil]
        exact before
      · rw [limit s List.mem_cons_self n hn] at less
        rw [one, List.length_singleton]
        omega
    have rest' := ih (fun s hs => auto s (List.mem_cons_of_mem _ hs))
      (fun s hs => limit s (List.mem_cons_of_mem _ hs)) (h.perform auto_s) step
    rwa [List.append_assoc] at rest'

/-! ### The account of one delivery -/

namespace Orderly

variable {history : List Mark}

theorem successes (h : Orderly history) : history.countP (·.failure.isNone) ≤ 1 := by
  obtain ⟨failures, rest, rfl, fail, few⟩ := h
  have none : failures.countP (·.failure.isNone) = 0 := by
    rw [List.countP_eq_zero]
    intro m hm
    simpa using Option.isSome_iff_ne_none.1 (fail m hm)
  rw [List.countP_append, none, Nat.zero_add]
  exact Nat.le_trans List.countP_le_length few

theorem failures (h : Orderly history) :
    (history.takeWhile (·.failure.isSome)).length = history.countP (·.failure.isSome) := by
  obtain ⟨failures, rest, rfl, fail, few⟩ := h
  have all : failures.takeWhile (·.failure.isSome) = failures :=
    List.takeWhile_eq_self_iff.2 fail
  have counted : failures.countP (·.failure.isSome) = failures.length :=
    List.countP_eq_length.2 fail
  rw [List.takeWhile_append, all, if_pos rfl, List.length_append, List.countP_append, counted]
  match rest, few with
  | [], _ => rfl
  | [m], _ => cases h : m.failure.isSome <;> simp [h]

end Orderly

theorem countP_any {α : Type} {p : α → Bool} {xss : List (List α)}
    (h : ∀ xs ∈ xss, xs.countP p ≤ 1) : xss.countP (·.any p) = xss.flatten.countP p := by
  induction xss with
  | nil => rfl
  | cons xs rest ih =>
    have first : (if xs.any p = true then 1 else 0) = xs.countP p := by
      have few := h xs List.mem_cons_self
      cases hit : xs.any p with
      | false =>
        have zero : xs.countP p = 0 := by
          rw [List.countP_eq_zero]
          exact List.any_eq_false.1 hit
        simp [zero]
      | true =>
        have positive := List.countP_pos_iff.2 (List.any_eq_true.1 hit)
        simp
        omega
    rw [List.countP_cons, ih fun xs hxs => h xs (List.mem_cons_of_mem _ hxs), List.flatten_cons,
      List.countP_append, ← first, Nat.add_comm]

namespace Accounts

theorem countP_past (h : Accounts l log ms) (id : String) (p : Bool → Bool) :
    (log.flatten.countP fun a => a.delivery.deliveryId == id && p a.succeeded && a.isNotable) =
      (past ms id).countP fun m => p m.failure.isNone := by
  have traced := congrArg (List.countP fun t => t.1 == id && p t.2) h.trace
  rw [List.countP_map, List.countP_map, List.countP_filter] at traced
  refine traced.symm.trans ?_
  rw [past, List.countP_filter]
  exact List.countP_congr fun m _ => by simp [Mark.trace, and_comm]

theorem countP_key (h : Accounts l log ms) {key : String × Instant × String} {id : String}
    (same : ∀ a ∈ log.flatten, key = a.delivery.key ↔ id = a.delivery.deliveryId)
    (p : Bool → Bool) :
    (log.flatten.countP fun a => a.isFor key && p a.succeeded && a.isNotable) =
      (past ms id).countP fun m => p m.failure.isNone := by
  rw [← h.countP_past id p]
  apply List.countP_congr
  intro a ha
  have told := same a ha
  rw [eq_comm, @eq_comm _ id] at told
  simp [Attempt.isFor, told]

theorem countP_succeeded (h : Accounts l log ms) {key : String × Instant × String} {id : String}
    (same : ∀ a ∈ log.flatten, key = a.delivery.key ↔ id = a.delivery.deliveryId) :
    (log.flatten.countP fun a => a.isFor key && a.succeeded) = (past ms id).countP (·.failure.isNone) := by
  rw [← h.countP_key same fun b => b]
  refine List.countP_congr fun a _ => ?_
  simp only [Bool.and_eq_true, and_assoc]
  constructor
  · rintro ⟨meant, done⟩
    exact ⟨meant, done, Attempt.isNotable_of_succeeded done⟩
  · rintro ⟨meant, done, -⟩
    exact ⟨meant, done⟩

theorem key_id (h : Accounts l log ms) (key : String × Instant × String) :
    (∀ a ∈ log.flatten, a.isFor key = false) ∨
    ∃ id, ∀ a ∈ log.flatten, key = a.delivery.key ↔ id = a.delivery.deliveryId := by
  by_cases tried : ∃ a ∈ log.flatten, a.delivery.key = key
  · obtain ⟨a, ha, rfl⟩ := tried
    exact .inr ⟨a.delivery.deliveryId, fun b hb => h.keys a ha b hb⟩
  · simp only [not_exists, not_and] at tried
    exact .inl fun a ha => decide_eq_false (tried a ha)

theorem delivered_once (h : Accounts l log ms) (key : String × Instant × String) :
    (log.flatten.countP fun a => a.isFor key && a.succeeded) ≤ 1 := by
  rcases h.key_id key with never | ⟨id, same⟩
  · have zero : (log.flatten.countP fun a => a.isFor key && a.succeeded) = 0 := by
      rw [List.countP_eq_zero]
      intro a ha
      simp [never a ha]
    omega
  · rw [h.countP_succeeded same]
    exact (h.orderly id).successes

theorem attempts_limited (h : Accounts l log ms) {m : Int} (positive : 1 ≤ m)
    (limited : ∀ id, ((past ms id).length : Int) ≤ m) (key : String × Instant × String) :
    (log.flatten.countP (fun a => a.isFor key && a.isNotable) : Int) ≤ m := by
  rcases h.key_id key with never | ⟨id, same⟩
  · have zero : log.flatten.countP (fun a => a.isFor key && a.isNotable) = 0 := by
      rw [List.countP_eq_zero]
      intro a ha
      simp [never a ha]
    omega
  · have all := h.countP_key same fun _ => true
    simp only [Bool.and_true, List.countP_true] at all
    rw [all]
    exact limited id

theorem tick_once (h : Accounts l log ms) {tick : List Attempt} (member : tick ∈ log) {id : String}
    {key : String × Instant × String}
    (same : ∀ a ∈ log.flatten, key = a.delivery.key ↔ id = a.delivery.deliveryId)
    (p : Attempt → Bool) : (tick.countP fun a => a.isFor key && p a) ≤ 1 := by
  have few := filter_key_length (h.distinct tick member) id
  rw [← List.countP_eq_length_filter] at few
  refine Nat.le_trans (List.countP_mono_left fun a ha hit => ?_) few
  have told := same a (List.mem_flatten.2 ⟨tick, member, ha⟩)
  simp only [Attempt.isFor, Bool.and_eq_true, decide_eq_true_eq] at hit
  exact decide_eq_true (told.1 hit.1.symm).symm

theorem row (h : Accounts l log ms) {d : Delivery} (hd : d ∈ l.deliveries) :
    ∃ e ∈ l.events, e.id = d.eventId ∧
      (d.status = .delivered ↔
        (log.flatten.countP fun a => a.isFor (e.choreId, e.dueAt, d.channel) && a.succeeded) = 1) ∧
      d.attemptCount = log.countP
        (·.any fun a => a.isFor (e.choreId, e.dueAt, d.channel) && (!a.succeeded && a.isNotable)) := by
  obtain ⟨e, he, event⟩ := h.sound.deliveryEvent d hd
  let p : PendingDelivery :=
    { deliveryId := d.id, eventId := d.eventId, channel := d.channel, attemptCount := d.attemptCount
      choreId := e.choreId, dueAt := e.dueAt, title := e.title, body := e.body }
  have holds : l.Holds p := ⟨d, hd, e, he, rfl, event, rfl⟩
  have same : ∀ a ∈ log.flatten,
      (e.choreId, e.dueAt, d.channel) = a.delivery.key ↔ d.id = a.delivery.deliveryId :=
    fun a ha => h.sound.key_eq_iff_of_known holds (h.known a ha)
  have reflects := h.reflects d hd
  refine ⟨e, he, event, ?_, ?_⟩
  · have few := (h.orderly d.id).successes
    rw [h.countP_succeeded same, reflects.status_eq_delivered]
    constructor
    · rintro ⟨m, hm, none⟩
      have positive : 0 < (past ms d.id).countP (·.failure.isNone) :=
        List.countP_pos_iff.2 ⟨m, hm, Option.isNone_iff_eq_none.2 none⟩
      omega
    · intro one
      obtain ⟨m, hm, none⟩ := List.countP_pos_iff.1 (Nat.lt_of_lt_of_eq Nat.zero_lt_one one.symm)
      exact ⟨m, hm, Option.isNone_iff_eq_none.1 none⟩
  · have counted := h.countP_key same fun b => !b
    simp only [Bool.and_assoc, Option.not_isNone] at counted
    rw [countP_any fun tick ht => h.tick_once ht same fun a => !a.succeeded && a.isNotable, counted,
      reflects.attemptCount, (h.orderly d.id).failures]

end Accounts

/-- For each chore, due instant and channel, one attempt succeeds at most. A delivery is delivered
exactly if one did, and counts the ticks in which one did not; and if all ticks have one limit, there
are no more attempts than that. An attempt whose failure cannot be stored is not counted. -/
theorem deliveries_accounted (steps : List Step)
    (auto : ∀ s ∈ steps, s.action.marksByHand = false) :
    let attempts := empty.attempts steps
    let noted := attempts.map (·.filter (·.isNotable))
    (∀ key, (attempts.flatten.countP fun a => a.isFor key && a.succeeded) ≤ 1) ∧
    (∀ d ∈ (empty.run steps).deliveries, ∃ e ∈ (empty.run steps).events, e.id = d.eventId ∧
      (d.status = .delivered ↔
        (attempts.flatten.countP fun a => a.isFor (e.choreId, e.dueAt, d.channel) && a.succeeded) = 1) ∧
      d.attemptCount =
        noted.countP (·.any fun a => a.isFor (e.choreId, e.dueAt, d.channel) && !a.succeeded)) ∧
    (∀ m : Int, 1 ≤ m → (∀ s ∈ steps, ∀ n, s.action.limit? = some n → n = m) →
      ∀ key, (noted.flatten.countP (·.isFor key) : Int) ≤ m) ∧
    ((∀ tick ∈ attempts, ∀ a ∈ tick, a.isNotable = true) → noted = attempts) := by
  intro attempts noted
  have accounts := accounts_run steps auto accounts_empty
  rw [List.nil_append, List.nil_append] at accounts
  refine ⟨accounts.delivered_once, fun d hd => ?_, fun m positive limit key => ?_, fun all => ?_⟩
  · obtain ⟨e, he, event, status, count⟩ := accounts.row hd
    refine ⟨e, he, event, status, count.trans ?_⟩
    simp only [noted, List.countP_map, Function.comp_def, List.any_filter]
    simp only [attempts, ← Bool.and_assoc, Bool.and_comm]
  · have limited := accounts.attempts_limited positive (fun id => ?_) key
    · rw [← List.filter_flatten, List.countP_filter]
      exact limited
    · have few := past_limited steps auto limit accounts_empty id (by simp [past]; omega)
      rwa [List.nil_append] at few
  · exact (List.map_congr_left fun tick member => List.filter_eq_self.2 (all tick member)).trans attempts.map_id'

/-- A delivery that fails once and then goes through. -/
theorem deliveries_accounted_retried :
    let start : Instant := ⟨0, by decide⟩
    let tick (answer : Except SendFault Unit) : Step :=
      ⟨start, .dispatch ⟨Unit, Unit, Registry.empty.register "telegram" (), fun _ _ s => (answer, s), ()⟩
        10 3⟩
    let steps : List Step := [
      ⟨start, .createChore "Plants" .onceInAWhile none none⟩,
      ⟨start, .upsert (rowId "c0000000" 1) (.utc start) "Plants" "Due" [some "telegram"]⟩,
      tick (.error (.refused "timeout")), tick (.ok ()), tick (.ok ())]
    let key := (rowId "c0000000" 1, start, "telegram")
    ((empty.attempts steps).flatten.countP fun a => a.isFor key && a.succeeded) = 1 ∧
    (empty.run steps).deliveries.map (fun d => (d.status, d.attemptCount)) = [(.delivered, 1)] ∧
    ((empty.attempts steps).flatten.countP (·.isFor key) : Int) ≤ 3 := by
  intro start tick steps key
  have auto : ∀ s ∈ steps, s.action.marksByHand = false := by decide
  have limit : ∀ s ∈ steps, ∀ n, s.action.limit? = some n → n = 3 := by
    simp [steps, tick, Action.limit?]
  have all : ∀ tick ∈ empty.attempts steps, ∀ a ∈ tick, a.isNotable = true := by decide +kernel
  obtain ⟨-, -, bounded, same⟩ := deliveries_accounted steps auto
  have few := bounded 3 (by decide) limit key
  rw [same all] at few
  exact ⟨by decide +kernel, by decide +kernel, few⟩

end Ledger

end ChoreReminder
