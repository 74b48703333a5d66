import ChoreReminder.Proofs.Ledger.History
import ChoreReminder.Proofs.Ledger.Sound

/-! The deliveries that a tick is to attempt. Each comes from one row that may be attempted, joined with
the event of the row; no row is listed twice. What an item of the list says stays true of the ledger
until the chore is removed, and then the chore and the delivery are gone for good. -/

namespace ChoreReminder

def PendingDelivery.key (p : PendingDelivery) : String × Instant × String :=
  (p.choreId, p.dueAt, p.channel)

namespace Ledger

variable {l l' : Ledger} {p q : PendingDelivery}

def Tells (p : PendingDelivery) (d : Delivery) (e : Event) : Prop :=
  p.deliveryId = d.id ∧ e.id = d.eventId ∧ p.key = (e.choreId, e.dueAt, d.channel)

def Holds (l : Ledger) (p : PendingDelivery) : Prop :=
  ∃ d ∈ l.deliveries, ∃ e ∈ l.events, Tells p d e

/-- The item is about a delivery that existed once and is gone, as its chore is. -/
structure Retired (l : Ledger) (p : PendingDelivery) : Prop where
  choreIssued : IsIssued "c0000000" l.ids.chores p.choreId
  choreGone : ∀ r ∈ l.chores, r.id ≠ p.choreId
  deliveryIssued : IsIssued "f0000000" l.ids.deliveries p.deliveryId
  deliveryGone : ∀ d ∈ l.deliveries, d.id ≠ p.deliveryId

def Known (l : Ledger) (p : PendingDelivery) : Prop := l.Holds p ∨ l.Retired p

theorem joined?_eq_some {d : Delivery} (h : l.joined? d = some p) :
    p.attemptCount = d.attemptCount ∧ ∃ e ∈ l.events, Tells p d e := by
  unfold joined? at h
  obtain ⟨e, found, rfl⟩ := Option.map_eq_some_iff.1 h
  have same : e.id = d.eventId := by simpa using List.find?_some found
  exact ⟨rfl, e, List.mem_of_find?_eq_some found, rfl, same, rfl⟩

theorem joined_holds {d : Delivery} (member : d ∈ l.deliveries) (joined : l.joined? d = some p) :
    l.Holds p := by
  obtain ⟨-, e, he, tells⟩ := joined?_eq_some joined
  exact ⟨d, member, e, he, tells⟩

theorem limited_sublist {α : Type} (limit : Int) (rows : List α) :
    (limited limit rows).Sublist rows := by
  unfold limited
  split
  · exact .refl rows
  · exact List.take_sublist _ _

theorem map_filterMap_sublist {α β γ : Type} {f : α → Option β} {g : β → γ} {h : α → γ}
    (agree : ∀ a b, f a = some b → g b = h a) (xs : List α) :
    ((xs.filterMap f).map g).Sublist (xs.map h) := by
  induction xs with
  | nil => exact .refl []
  | cons x xs ih =>
    cases hf : f x with
    | none => simpa [List.filterMap_cons, hf] using ih.cons (h x)
    | some b => simpa [List.filterMap_cons, hf, agree x b hf] using ih.cons_cons (h x)

theorem pending_ok {limit maxAttempts : Int} {ps : List PendingDelivery}
    (h : l.pending limit maxAttempts = .ok ps) :
    (∀ p ∈ ps, ∃ d ∈ l.deliveries, l.joined? d = some p ∧ isEligible maxAttempts d = true) ∧
    ((l.deliveries.map (·.id)).Nodup → (ps.map (·.deliveryId)).Nodup) := by
  simp only [pending, bind_eq_ok, pure_eq_ok] at h
  obtain ⟨-, -, -, -, rfl⟩ := h
  let eligible := l.deliveries.filter (isEligible maxAttempts)
  let rows := eligible.filterMap fun d => (l.joined? d).map (·, d.createdAt)
  have listed : (limited limit (rows.mergeSort attemptedBefore)).Sublist
      (rows.mergeSort attemptedBefore) := limited_sublist limit _
  have reordered : (rows.mergeSort attemptedBefore).Perm rows := List.mergeSort_perm _ _
  constructor
  · intro p hp
    obtain ⟨row, member, rfl⟩ := List.mem_map.1 hp
    obtain ⟨d, hd, found⟩ := List.mem_filterMap.1 (reordered.subset (listed.subset member))
    obtain ⟨p, joined, rfl⟩ := Option.map_eq_some_iff.1 found
    obtain ⟨member, open'⟩ := List.mem_filter.1 hd
    exact ⟨d, member, joined, open'⟩
  · intro ids
    have agree : ∀ d (row : PendingDelivery × Instant),
        (l.joined? d).map (·, d.createdAt) = some row → row.1.deliveryId = d.id := by
      intro d row found
      obtain ⟨p, joined, rfl⟩ := Option.map_eq_some_iff.1 found
      obtain ⟨-, e, -, same, -⟩ := joined?_eq_some joined
      exact same
    have distinct : (rows.map (·.1.deliveryId)).Nodup :=
      (nodup_map_filter (isEligible maxAttempts) ids).sublist (map_filterMap_sublist agree eligible)
    rw [List.map_map]
    exact ((reordered.map _).nodup_iff.2 distinct).sublist (listed.map _)

theorem pending_holds {limit maxAttempts : Int} {ps : List PendingDelivery}
    (h : l.pending limit maxAttempts = .ok ps) (hp : p ∈ ps) : l.Holds p := by
  obtain ⟨d, hd, joined, -⟩ := (pending_ok h).1 p hp
  exact joined_holds hd joined

namespace Sound

theorem key_eq_iff (s : Sound l) (hp : l.Holds p) (hq : l.Holds q) :
    p.key = q.key ↔ p.deliveryId = q.deliveryId := by
  obtain ⟨d, hd, e, he, pd, pe, pk⟩ := hp
  obtain ⟨d', hd', e', he', qd, qe, qk⟩ := hq
  constructor
  · intro same
    rw [pk, qk, Prod.mk.injEq, Prod.mk.injEq] at same
    have event : e = e' := eq_of_key s.eventKeys he he' (by rw [same.1, same.2.1])
    have delivery : d = d' :=
      eq_of_key s.deliveryKeys hd hd' (by rw [← pe, ← qe, event, same.2.2])
    rw [pd, qd, delivery]
  · intro same
    have delivery : d = d' := eq_of_key s.deliveryIds hd hd' (by rw [← pd, ← qd, same])
    have event : e = e' := eq_of_key s.eventIds he he' (by rw [pe, qe, delivery])
    rw [pk, qk, delivery, event]

theorem holds_issued (s : Sound l) (hp : l.Holds p) :
    IsIssued "f0000000" l.ids.deliveries p.deliveryId := by
  obtain ⟨d, hd, -, -, pd, -⟩ := hp
  exact pd ▸ s.deliveriesIssued d hd

theorem holds_chore (s : Sound l) (hp : l.Holds p) : ∃ r ∈ l.chores, r.id = p.choreId := by
  obtain ⟨d, hd, e, he, pd, pe, pk⟩ := hp
  have chore : p.choreId = e.choreId := congrArg Prod.fst pk
  exact chore ▸ s.eventChore e he

theorem key_eq_iff_of_known (s : Sound l) (hp : l.Holds p) (hq : l.Known q) :
    p.key = q.key ↔ p.deliveryId = q.deliveryId := by
  rcases hq with hq | gone
  · exact s.key_eq_iff hp hq
  · constructor
    · intro same
      obtain ⟨r, hr, chore⟩ := s.holds_chore hp
      exact absurd (chore.trans (congrArg Prod.fst same)) (gone.choreGone r hr)
    · intro same
      obtain ⟨d, hd, -, -, pd, -⟩ := hp
      exact absurd (pd.symm.trans same) (gone.deliveryGone d hd)

theorem known_issued (s : Sound l) (hp : l.Known p) :
    IsIssued "f0000000" l.ids.deliveries p.deliveryId :=
  hp.elim s.holds_issued (·.deliveryIssued)

end Sound

theorem Change.chore_next (h : Change l l') :
    l.ids.chores ≤ l'.ids.chores ∧ ∀ r ∈ l'.chores, (∃ old ∈ l.chores, old.id = r.id) ∨
      r.id = l.nextChoreId := by
  cases h with
  | createChore done =>
    obtain ⟨-, created, -, -, rfl⟩ := createChore_ok done
    refine ⟨Nat.le_succ _, fun r hr => ?_⟩
    rcases List.mem_append.1 hr with hr | hr
    · exact .inl ⟨r, hr, rfl⟩
    · rw [List.mem_singleton.1 hr]
      exact .inr rfl
  | updateSchedule done =>
    obtain ⟨-, -, rfl⟩ := updateSchedule_ok done
    refine ⟨Nat.le_refl _, fun r hr => ?_⟩
    obtain ⟨old, member, rfl⟩ := List.mem_map.1 hr
    exact .inl ⟨old, member, by split <;> rfl⟩
  | deleteChore id =>
    exact ⟨Nat.le_refl _, fun r hr => .inl ⟨r, (List.mem_filter.1 hr).1, rfl⟩⟩
  | complete done =>
    obtain ⟨-, completed, -, rfl⟩ := complete_ok done
    exact ⟨Nat.le_refl _, fun r hr => .inl ⟨r, hr, rfl⟩⟩
  | addEvent => exact ⟨Nat.le_refl _, fun r hr => .inl ⟨r, hr, rfl⟩⟩
  | addDelivery => exact ⟨Nat.le_refl _, fun r hr => .inl ⟨r, hr, rfl⟩⟩

theorem Change.chore (h : Change l l') :
    l.ids.chores ≤ l'.ids.chores ∧ ∀ r ∈ l'.chores, (∃ old ∈ l.chores, old.id = r.id) ∨
      ¬ IsIssued "c0000000" l.ids.chores r.id := by
  obtain ⟨count, rows⟩ := h.chore_next
  refine ⟨count, fun r hr => (rows r hr).imp_right fun next => ?_⟩
  rw [next]
  exact not_isIssued_next _ _

theorem Sound.known_deleteChore (s : Sound l) (id : String) (hp : l.Holds p) :
    (l.deleteChore id).2.Known p := by
  have issued := s.holds_issued hp
  obtain ⟨r, hr, chore⟩ := s.holds_chore hp
  obtain ⟨d, hd, e, he, pd, pe, pk⟩ := hp
  have owner : e.choreId = p.choreId := (congrArg Prod.fst pk).symm
  by_cases removed : p.choreId = id
  · refine .inr ⟨chore ▸ s.choresIssued r hr, ?_, issued, ?_⟩
    · intro r' hr' same
      have stays := (List.mem_filter.1 hr').2
      simp [same, removed] at stays
    · intro d' hd' same
      obtain ⟨member, stays⟩ := List.mem_filter.1 hd'
      obtain rfl := eq_of_key s.deliveryIds member hd (same.trans pd)
      simp only [Bool.not_eq_true', List.any_eq_false, decide_eq_true_eq, not_and] at stays
      exact stays e he pe (owner.trans removed)
  · refine .inl ⟨d, List.mem_filter.2 ⟨hd, ?_⟩, e, List.mem_filter.2 ⟨he, ?_⟩, pd, pe, pk⟩
    · simp only [Bool.not_eq_true', List.any_eq_false, decide_eq_true_eq, not_and]
      intro e' he' same
      obtain rfl := eq_of_key s.eventIds he' he (same.trans pe.symm)
      exact owner ▸ removed
    · simpa [owner] using removed

theorem Sound.known_change (s : Sound l) (h : Change l l') (hp : l.Known p) : l'.Known p := by
  rcases hp with hp | gone
  · have appended (events : l.events ⊆ l'.events) (deliveries : l.deliveries ⊆ l'.deliveries) :
        l'.Holds p := by
      obtain ⟨d, hd, e, he, tells⟩ := hp
      exact ⟨d, deliveries hd, e, events he, tells⟩
    cases h with
    | createChore done =>
      obtain ⟨-, created, -, -, rfl⟩ := createChore_ok done
      exact .inl (appended (List.Subset.refl _) (List.Subset.refl _))
    | updateSchedule done =>
      obtain ⟨-, -, rfl⟩ := updateSchedule_ok done
      exact .inl (appended (List.Subset.refl _) (List.Subset.refl _))
    | deleteChore id => exact s.known_deleteChore id hp
    | complete done =>
      obtain ⟨-, completed, -, rfl⟩ := complete_ok done
      exact .inl (appended (List.Subset.refl _) (List.Subset.refl _))
    | addEvent => exact .inl (appended (List.subset_append_left _ _) (List.Subset.refl _))
    | addDelivery => exact .inl (appended (List.Subset.refl _) (List.subset_append_left _ _))
  · obtain ⟨choreCount, chores⟩ := h.chore
    obtain ⟨deliveryCount, deliveries⟩ := h.delivery
    refine .inr ⟨gone.choreIssued.mono choreCount, ?_, gone.deliveryIssued.mono deliveryCount, ?_⟩
    · intro r hr same
      rcases chores r hr with ⟨old, member, before⟩ | fresh
      · exact gone.choreGone old member (before.trans same)
      · exact fresh (same ▸ gone.choreIssued)
    · intro d hd same
      rcases deliveries d hd with before | ⟨now, eventId, channel, rfl⟩
      · exact gone.deliveryGone d before same
      · exact not_isIssued_next _ _ (same.symm ▸ gone.deliveryIssued)

theorem known_mark (m : Mark) (hp : l.Known p) : (l.mark m).2.Known p := by
  rw [mark_ledger]
  rcases hp with ⟨d, hd, e, he, pd, pe, pk⟩ | gone
  · refine .inl ⟨d.marked m, List.mem_map_of_mem hd, e, he, ?_⟩
    rw [Tells, Delivery.marked_id, Delivery.marked_eventId, Delivery.marked_channel]
    exact ⟨pd, pe, pk⟩
  · refine .inr ⟨gone.choreIssued, gone.choreGone, gone.deliveryIssued, ?_⟩
    intro d hd
    obtain ⟨old, member, rfl⟩ := List.mem_map.1 hd
    rw [Delivery.marked_id]
    exact gone.deliveryGone old member

theorem Sound.known_course {ms : List Mark} (h : Course l ms l') (s : Sound l) (hp : l.Known p) :
    l'.Known p :=
  (h.preserves (P := fun l => Sound l ∧ l.Known p)
    (fun change now => ⟨now.1.change change, now.1.known_change change now.2⟩)
    (fun m now => ⟨now.1.mark m, known_mark m now.2⟩) ⟨s, hp⟩).2

end Ledger

end ChoreReminder
