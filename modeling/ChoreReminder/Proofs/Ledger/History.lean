import Mathlib.Data.List.TakeWhile
import ChoreReminder.Proofs.Ledger.Change
import ChoreReminder.Proofs.Ledger.RowId

/-! What a delivery tells of its past. The status, the count of attempts, the last error and the times of
a delivery are determined by the marks that were meant for it since it was created, in their order.
One mark keeps this up, and so does every course of changes; deliveries that were created on the way
start with an empty past. -/

namespace ChoreReminder

/-- A delivery as it is after the marks that were meant for it. -/
structure Delivery.Reflects (d : Delivery) (history : List Mark) : Prop where
  attemptCount : d.attemptCount = (history.takeWhile (·.failure.isSome)).length
  status : d.status =
    if history = [] then .pending
    else if ∃ m ∈ history, m.failure = none then .delivered
    else .failed
  pending : d.status = .pending →
    d.attemptCount = 0 ∧ d.lastError = none ∧ d.lastAttemptedAt = none ∧ d.deliveredAt = none
  failed : d.status = .failed → 1 ≤ d.attemptCount ∧ d.deliveredAt = none ∧
    ∃ m reason, history.getLast? = some m ∧ m.failure = some reason ∧
      d.lastError = some reason ∧ d.lastAttemptedAt = some m.time ∧ d.updatedAt = m.time
  delivered : d.status = .delivered → d.lastError = none ∧
    ∃ m, history.find? (·.failure = none) = some m ∧
      d.deliveredAt = some m.time ∧ d.lastAttemptedAt = some m.time ∧ d.updatedAt = m.time

namespace Delivery.Reflects

variable {d : Delivery} {history : List Mark}

theorem status_eq_delivered (r : d.Reflects history) :
    d.status = .delivered ↔ ∃ m ∈ history, m.failure = none := by
  rw [r.status]
  by_cases success : ∃ m ∈ history, m.failure = none
  · have nonempty : history ≠ [] := by
      obtain ⟨m, hm, -⟩ := success
      exact List.ne_nil_of_mem hm
    simp [success, nonempty]
  · split <;> simp [success]

theorem all_failures (r : d.Reflects history) (open' : d.status ≠ .delivered) :
    ∀ m ∈ history, m.failure.isSome = true := by
  intro m hm
  rw [Ne, r.status_eq_delivered] at open'
  exact Option.isSome_iff_ne_none.2 fun none => open' ⟨m, hm, none⟩

theorem settled (r : d.Reflects history) (done : d.status = .delivered) (m : Mark) :
    d.Reflects (history ++ [m]) := by
  obtain ⟨success, member, ok⟩ := r.status_eq_delivered.1 done
  have stops : history.takeWhile (·.failure.isSome) ≠ history := by
    intro all
    have fails := List.takeWhile_eq_self_iff.1 all success member
    simp [ok] at fails
  have first : (history ++ [m]).find? (·.failure = none) = history.find? (·.failure = none) := by
    obtain ⟨-, f, found, -⟩ := r.delivered done
    rw [List.find?_append, found, Option.some_or]
  constructor
  case attemptCount =>
    have shorter : (history.takeWhile (·.failure.isSome)).length ≠ history.length := fun h =>
      stops ((List.takeWhile_prefix _).eq_of_length h)
    rw [List.takeWhile_append, if_neg shorter, r.attemptCount]
  case status =>
    have again : ∃ n ∈ history ++ [m], n.failure = none :=
      ⟨success, List.mem_append_left _ member, ok⟩
    rw [done, if_neg (by simp), if_pos again]
  case pending => simp [done]
  case failed => simp [done]
  case delivered => exact fun _ => first ▸ r.delivered done

theorem marked (r : d.Reflects history) {m : Mark} (meant : d.id = m.deliveryId) :
    (d.marked m).Reflects (history ++ [m]) := by
  by_cases done : d.status = .delivered
  · rw [Delivery.marked_of_delivered done]
    exact r.settled done m
  have failures := r.all_failures done
  have all : history.takeWhile (·.failure.isSome) = history :=
    List.takeWhile_eq_self_iff.2 failures
  have count : d.attemptCount = history.length := by rw [r.attemptCount, all]
  have none_before : ∀ n ∈ history, n.failure ≠ none := fun n hn =>
    Option.isSome_iff_ne_none.1 (failures n hn)
  have nothing_yet : d.deliveredAt = none := by
    cases h : d.status with
    | pending => exact (r.pending h).2.2.2
    | failed => exact (r.failed h).2.1
    | delivered => exact absurd h done
  have taken : ((history ++ [m]).takeWhile (·.failure.isSome)).length =
      history.length + ([m].takeWhile (·.failure.isSome)).length := by
    rw [List.takeWhile_append, all, if_pos rfl, List.length_append]
  cases hf : m.failure with
  | none =>
    have success : ∃ n ∈ history ++ [m], n.failure = none := ⟨m, by simp, hf⟩
    have first : (history ++ [m]).find? (·.failure = none) = some m := by
      have missed : history.find? (·.failure = none) = none := by
        simpa using none_before
      simp [List.find?_append, missed, hf]
    constructor
    case attemptCount => simp [Delivery.marked, meant, done, hf, taken, count]
    case status => simp [Delivery.marked, meant, done, hf]
    case pending => simp [Delivery.marked, meant, done, hf]
    case failed => simp [Delivery.marked, meant, done, hf]
    case delivered => simp [Delivery.marked, meant, done, hf, first]
  | some reason =>
    constructor
    case attemptCount => simp [Delivery.marked, meant, done, hf, taken, count]
    case status => simpa [Delivery.marked, meant, done, hf] using none_before
    case pending => simp [Delivery.marked, meant, done, hf]
    case failed => simp [Delivery.marked, meant, done, hf, nothing_yet]
    case delivered => simp [Delivery.marked, meant, done, hf]

theorem foldl_marked (r : d.Reflects history) (ms : List Mark) :
    (ms.foldl (fun d m => d.marked m) d).Reflects
      (history ++ ms.filter (·.deliveryId = d.id)) := by
  induction ms generalizing d history with
  | nil => simpa using r
  | cons m ms ih =>
    rw [List.foldl_cons]
    by_cases meant : d.id = m.deliveryId
    · have next := ih (r.marked meant)
      rw [Delivery.marked_id] at next
      simpa [List.filter_cons, meant.symm] using next
    · rw [Delivery.marked_of_ne meant]
      simpa [List.filter_cons, Ne.symm meant] using ih r

end Delivery.Reflects

namespace Ledger

theorem newDelivery_reflects (l : Ledger) (now : Instant) (eventId channel : String) :
    (l.newDelivery now eventId channel).Reflects [] := by
  constructor <;> simp [newDelivery]

theorem foldl_marked_id (ms : List Mark) (d : Delivery) :
    (ms.foldl (fun d m => d.marked m) d).id = d.id := by
  induction ms generalizing d with
  | nil => rfl
  | cons m ms ih => rw [List.foldl_cons, ih, Delivery.marked_id]

theorem foldl_marked_target (ms : List Mark) (d : Delivery) :
    (ms.foldl (fun d m => d.marked m) d).eventId = d.eventId ∧
      (ms.foldl (fun d m => d.marked m) d).channel = d.channel := by
  induction ms generalizing d with
  | nil => exact ⟨rfl, rfl⟩
  | cons m ms ih =>
    rw [List.foldl_cons, (ih _).1, (ih _).2]
    exact ⟨d.marked_eventId m, d.marked_channel m⟩

theorem foldl_marked_of_absent {ms : List Mark} {d : Delivery} (absent : ∀ m ∈ ms, m.deliveryId ≠ d.id) :
    ms.foldl (fun d m => d.marked m) d = d := by
  induction ms with
  | nil => rfl
  | cons m ms ih =>
    rw [List.foldl_cons, Delivery.marked_of_ne (absent m List.mem_cons_self).symm]
    exact ih fun m' hm' => absent m' (List.mem_cons_of_mem _ hm')

theorem foldl_marked_of_mem {ms : List Mark} {d : Delivery} (once : (ms.map (·.deliveryId)).Nodup) {m : Mark}
    (hm : m ∈ ms) (meant : m.deliveryId = d.id) : ms.foldl (fun d m => d.marked m) d = d.marked m := by
  induction ms with
  | nil => cases hm
  | cons first rest ih =>
    obtain ⟨fresh, once⟩ := List.nodup_cons.1 once
    rw [List.foldl_cons]
    rcases List.mem_cons.1 hm with rfl | hm
    · refine foldl_marked_of_absent fun m' hm' same => fresh (List.mem_map.2 ⟨m', hm', ?_⟩)
      exact (same.trans (Delivery.marked_id m d)).trans meant.symm
    · have other : d.id ≠ first.deliveryId := fun same =>
        fresh (List.mem_map.2 ⟨m, hm, meant.trans same⟩)
      rw [Delivery.marked_of_ne other]
      exact ih once hm

theorem foldl_mark_ledger (ms : List Mark) (l : Ledger) :
    ms.foldl (fun l m => (l.mark m).2) l =
      { l with deliveries := l.deliveries.map fun d => ms.foldl (fun d m => d.marked m) d } := by
  induction ms generalizing l with
  | nil => simp
  | cons m ms ih =>
    rw [List.foldl_cons, ih, mark_ledger]
    simp only [List.map_map, Function.comp_def, List.foldl_cons]

theorem foldl_mark_deliveries (ms : List Mark) (l : Ledger) :
    (ms.foldl (fun l m => (l.mark m).2) l).deliveries =
      l.deliveries.map fun d => ms.foldl (fun d m => d.marked m) d := by
  rw [foldl_mark_ledger]

theorem Change.delivery {l l' : Ledger} (h : Change l l') :
    l.ids.deliveries ≤ l'.ids.deliveries ∧ ∀ d ∈ l'.deliveries, d ∈ l.deliveries ∨
      ∃ now eventId channel, d = l.newDelivery now eventId channel := by
  cases h with
  | createChore done =>
    obtain ⟨-, created, -, -, rfl⟩ := createChore_ok done
    exact ⟨Nat.le_refl _, fun d hd => .inl hd⟩
  | updateSchedule done =>
    obtain ⟨-, -, rfl⟩ := updateSchedule_ok done
    exact ⟨Nat.le_refl _, fun d hd => .inl hd⟩
  | deleteChore id => exact ⟨Nat.le_refl _, fun d hd => .inl (List.mem_filter.1 hd).1⟩
  | complete done =>
    obtain ⟨-, completed, -, rfl⟩ := complete_ok done
    exact ⟨Nat.le_refl _, fun d hd => .inl hd⟩
  | addEvent => exact ⟨Nat.le_refl _, fun d hd => .inl hd⟩
  | addDelivery event fresh =>
    refine ⟨Nat.le_succ _, fun d hd => ?_⟩
    rcases List.mem_append.1 hd with hd | hd
    · exact .inl hd
    · exact .inr ⟨_, _, _, List.mem_singleton.1 hd⟩

/-- Each delivery after a course is one from before with the marks of the course, or it was created on
the way, under an id that was not given out before, and reflects the marks since then. -/
theorem Course.delivery {l l' : Ledger} {ms : List Mark} (h : Course l ms l') {d : Delivery}
    (hd : d ∈ l'.deliveries) :
    (∃ old ∈ l.deliveries, d = ms.foldl (fun d m => d.marked m) old) ∨
    (¬ IsIssued "f0000000" l.ids.deliveries d.id ∧
      ∃ since, since <:+ ms ∧ d.Reflects (since.filter (·.deliveryId = d.id))) := by
  induction h with
  | refl => exact .inl ⟨d, hd, rfl⟩
  | @change l l₁ l' ms first rest ih =>
    obtain ⟨le, rows⟩ := first.delivery
    rcases ih hd with ⟨old, member, rfl⟩ | ⟨fresh, since⟩
    · rcases rows old member with before | ⟨now, eventId, channel, rfl⟩
      · exact .inl ⟨old, before, rfl⟩
      · refine .inr ⟨?_, ms, List.suffix_refl _, ?_⟩
        · rw [foldl_marked_id]
          exact not_isIssued_next _ _
        · rw [foldl_marked_id]
          exact (l.newDelivery_reflects now eventId channel).foldl_marked ms
    · exact .inr ⟨fun issued => fresh (issued.mono le), since⟩
  | @mark l l' m ms rest ih =>
    rcases ih hd with ⟨old, member, rfl⟩ | ⟨fresh, since, suffix, reflects⟩
    · rw [mark_ledger] at member
      obtain ⟨older, before, rfl⟩ := List.mem_map.1 member
      exact .inl ⟨older, before, rfl⟩
    · rw [mark_ledger] at fresh
      exact .inr ⟨fresh, since, suffix.trans (List.suffix_cons _ _), reflects⟩

end Ledger

end ChoreReminder
