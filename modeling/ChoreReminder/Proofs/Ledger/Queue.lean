import ChoreReminder.Proofs.Ledger.Part
import ChoreReminder.Proofs.Sorting

/-! The pending deliveries of one chore. Sorting is stable, so among all that are listed for the next
attempts those of one chore stand in an order of their own, which the others have no say in: they are the first
ones of a queue that depends on the part of the chore only. -/

namespace ChoreReminder

namespace Ledger

variable {l l' : Ledger} {id : String} {limit maxAttempts : Int} {ps : List PendingDelivery}

theorem attemptedBefore_trans (a b c : PendingDelivery × Instant)
    (h : attemptedBefore a b = true) (h' : attemptedBefore b c = true) : attemptedBefore a c = true := by
  simp only [attemptedBefore, Bool.or_eq_true, Bool.and_eq_true, decide_eq_true_eq, beq_iff_eq] at *
  omega

theorem attemptedBefore_total (a b : PendingDelivery × Instant) :
    (attemptedBefore a b || attemptedBefore b a) = true := by
  simp only [attemptedBefore, Bool.or_eq_true, Bool.and_eq_true, decide_eq_true_eq, beq_iff_eq]
  omega

theorem limited_front {α : Type} (limit : Int) (rows : List α) : limited limit rows <+: rows := by
  unfold limited
  split
  · exact List.prefix_rfl
  · exact List.take_prefix _ _

/-! ### The queue of a chore -/

def joinedRow (d : Delivery) (e : Event) : PendingDelivery × Instant :=
  ({ deliveryId := d.id, eventId := d.eventId, channel := d.channel, attemptCount := d.attemptCount,
     choreId := e.choreId, dueAt := e.dueAt, title := e.title, body := e.body }, d.createdAt)

end Ledger

open Ledger

def Part.queue (p : Part) (maxAttempts : Int) : List PendingDelivery :=
  (((p.deliveries.filter (isEligible maxAttempts)).filterMap fun d =>
    (p.events.find? (·.id = d.eventId)).map (joinedRow d)).mergeSort attemptedBefore).map (·.1)

namespace Ledger

variable {l l' : Ledger} {id : String} {limit maxAttempts : Int} {ps : List PendingDelivery}

theorem Sound.find?_part (s : Sound l) (id event : String) :
    (l.part id).events.find? (·.id = event) = (l.event? event).filter (·.choreId = id) := by
  rw [part, event?, ← List.head?_filter, ← List.head?_filter, List.filter_comm]
  have once := filter_key_length s.eventIds event
  generalize l.events.filter (·.id = event) = rows at once
  rcases rows with _ | ⟨e, _ | ⟨e', rest⟩⟩
  · rfl
  · by_cases own : e.choreId = id
    · simp [Option.filter, own]
    · simp [Option.filter, own]
  · simp at once

theorem Sound.rows_part (s : Sound l) (id : String) (maxAttempts : Int) :
    ((l.deliveries.filter (isEligible maxAttempts)).filterMap fun d =>
        (l.joined? d).map (·, d.createdAt)).filter (·.1.choreId = id) =
      ((l.part id).deliveries.filter (isEligible maxAttempts)).filterMap fun d =>
        ((l.part id).events.find? (·.id = d.eventId)).map (joinedRow d) := by
  have rows : (l.part id).deliveries.filter (isEligible maxAttempts) =
      (l.deliveries.filter (isEligible maxAttempts)).filter (l.owns id) := List.filter_comm ..
  rw [rows]
  generalize l.deliveries.filter (isEligible maxAttempts) = eligible
  rw [List.filter_filterMap, List.filterMap_filter]
  refine List.filterMap_congr fun d _ => ?_
  rw [s.find?_part id d.eventId, joined?]
  -- A delivery that the chore does not own has an event of another chore, if any.
  cases found : l.event? d.eventId with
  | none => simp
  | some e =>
    have owner : l.owns e.choreId d = true :=
      owns_iff.2 ⟨e, List.mem_of_find?_eq_some found, by simpa using List.find?_some found, rfl⟩
    by_cases own : e.choreId = id
    · simp [Option.filter, own, own ▸ owner, joinedRow]
    · have other : l.owns id d = false := by
        rw [← Bool.not_eq_true]
        exact fun mine => own (s.owner_unique owner mine)
      simp [Option.filter, own, other]

theorem Sound.pending_part (s : Sound l) (found : l.pending limit maxAttempts = .ok ps) (id : String) :
    ps.filter (·.choreId = id) <+: (l.part id).queue maxAttempts ∧
      (limit < 0 → ps.filter (·.choreId = id) = (l.part id).queue maxAttempts) := by
  simp only [pending, bind_eq_ok, pure_eq_ok] at found
  obtain ⟨-, -, -, -, rfl⟩ := found
  rw [Part.queue, ← s.rows_part id maxAttempts,
    ← filter_mergeSort attemptedBefore_trans attemptedBefore_total, List.filter_map]
  constructor
  · exact ((limited_front limit _).filter _).map _
  · intro all
    rw [limited, if_pos all]
    rfl

end Ledger

end ChoreReminder
