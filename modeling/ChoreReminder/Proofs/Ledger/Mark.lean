import ChoreReminder.Ledger.Deliveries

/-! Marks: what is noted of an attempt at a delivery. A mark acts on one delivery at most, and not on
one that was delivered before; so the two operations that note an outcome are one operation that
marks every delivery alike. -/

namespace ChoreReminder

/-- The outcome of an attempt at a delivery and its time; a failure comes with its reason. -/
structure Mark where
  deliveryId : String
  time : Instant
  failure : Option String
  deriving DecidableEq

/-- The delivery after a mark, which may be meant for another one. -/
def Delivery.marked (m : Mark) (d : Delivery) : Delivery :=
  if d.id = m.deliveryId ∧ d.status ≠ .delivered then
    match m.failure with
    | none =>
      { d with
        status := .delivered, lastError := none, lastAttemptedAt := some m.time,
        deliveredAt := some m.time, updatedAt := m.time }
    | some reason =>
      { d with
        status := .failed, attemptCount := d.attemptCount + 1, lastError := some reason,
        lastAttemptedAt := some m.time, updatedAt := m.time }
  else d

namespace Delivery

variable (m : Mark) (d : Delivery)

@[simp] theorem marked_id : (d.marked m).id = d.id := by
  unfold marked
  split
  · split <;> rfl
  · rfl

@[simp] theorem marked_eventId : (d.marked m).eventId = d.eventId := by
  unfold marked
  split
  · split <;> rfl
  · rfl

@[simp] theorem marked_channel : (d.marked m).channel = d.channel := by
  unfold marked
  split
  · split <;> rfl
  · rfl

theorem marked_of_ne {m : Mark} {d : Delivery} (h : d.id ≠ m.deliveryId) : d.marked m = d :=
  if_neg fun hd => h hd.1

theorem marked_of_delivered {m : Mark} {d : Delivery} (h : d.status = .delivered) :
    d.marked m = d :=
  if_neg fun hd => hd.2 h

end Delivery

namespace Ledger

def mark (l : Ledger) (m : Mark) : Bool × Ledger :=
  match m.failure with
  | none => l.markDelivered m.time m.deliveryId
  | some reason => l.markFailed m.time m.deliveryId reason

theorem mark_ledger (l : Ledger) (m : Mark) :
    (l.mark m).2 = { l with deliveries := l.deliveries.map (Delivery.marked m) } := by
  obtain ⟨id, time, failure⟩ := m
  cases failure <;>
    simp [mark, markDelivered, markFailed, changeDelivery, Delivery.marked]

theorem mark_noted (l : Ledger) (m : Mark) :
    (l.mark m).1 = true ↔ ∃ d ∈ l.deliveries, d.id = m.deliveryId ∧ d.status ≠ .delivered := by
  obtain ⟨id, time, failure⟩ := m
  cases failure <;> simp [mark, markDelivered, markFailed, changeDelivery]

theorem mark_refused {l : Ledger} {m : Mark} (h : (l.mark m).1 = false) : (l.mark m).2 = l := by
  have none_applies : ∀ d ∈ l.deliveries, ¬ (d.id = m.deliveryId ∧ d.status ≠ .delivered) := by
    intro d hd applies
    have noted := (l.mark_noted m).2 ⟨d, hd, applies⟩
    simp [noted] at h
  have same : l.deliveries.map (Delivery.marked m) = l.deliveries :=
    (List.map_congr_left fun d hd => if_neg (none_applies d hd)).trans (List.map_id' _)
  rw [mark_ledger, same]

end Ledger

end ChoreReminder
