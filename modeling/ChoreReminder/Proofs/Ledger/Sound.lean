import Mathlib.Data.List.Count
import Mathlib.Data.List.Nodup
import ChoreReminder.Proofs.Ledger.Change
import ChoreReminder.Proofs.Ledger.RowId

/-! The rules that hold between the tables. Ids are unique in each table and were all given out before;
rows refer to rows that exist; a chore has one event for a due instant, and an event one delivery for
a channel. Every change of a ledger keeps these rules. -/

namespace ChoreReminder.Ledger

theorem nodup_map_concat {α β : Type} {f : α → β} {xs : List α} {x : α} :
    ((xs ++ [x]).map f).Nodup ↔ (xs.map f).Nodup ∧ ∀ y ∈ xs, f y ≠ f x := by
  simp [List.nodup_append]

theorem nodup_map_filter {α β : Type} {f : α → β} {xs : List α} (p : α → Bool)
    (h : (xs.map f).Nodup) : ((xs.filter p).map f).Nodup :=
  h.sublist (List.filter_sublist.map f)

theorem eq_of_key {α β : Type} {f : α → β} {xs : List α} (h : (xs.map f).Nodup) {x y : α}
    (hx : x ∈ xs) (hy : y ∈ xs) (key : f x = f y) : x = y :=
  List.inj_on_of_nodup_map h hx hy key

theorem filter_key_length {α β : Type} [DecidableEq β] {f : α → β} {xs : List α}
    (h : (xs.map f).Nodup) (k : β) : (xs.filter fun x => f x = k).length ≤ 1 := by
  have once := List.nodup_iff_count_le_one.1 h k
  rw [List.count_eq_countP, List.countP_map, List.countP_eq_length_filter] at once
  simp only [beq_eq_decide, Function.comp_def] at once
  exact once

theorem filter_key_eq {α β : Type} [DecidableEq β] {f : α → β} {xs : List α} (h : (xs.map f).Nodup)
    {x : α} (hx : x ∈ xs) {k : β} (key : f x = k) : xs.filter (f · = k) = [x] := by
  have member : x ∈ xs.filter (f · = k) := List.mem_filter.2 ⟨hx, decide_eq_true key⟩
  have once := filter_key_length h k
  obtain ⟨y, only⟩ := List.length_eq_one_iff.1 (Nat.le_antisymm once (List.length_pos_of_mem member))
  rw [only] at member ⊢
  rw [List.mem_singleton.1 member]

theorem choreExists_iff {l : Ledger} {id : String} :
    l.choreExists id = true ↔ ∃ r ∈ l.chores, r.id = id := by
  simp [choreExists]

structure Sound (l : Ledger) : Prop where
  choreIds : (l.chores.map (·.id)).Nodup
  completionIds : (l.completions.map (·.id)).Nodup
  eventIds : (l.events.map (·.id)).Nodup
  deliveryIds : (l.deliveries.map (·.id)).Nodup
  choresIssued : ∀ r ∈ l.chores, IsIssued "c0000000" l.ids.chores r.id
  completionsIssued : ∀ c ∈ l.completions, IsIssued "d0000000" l.ids.completions c.id
  eventsIssued : ∀ e ∈ l.events, IsIssued "e0000000" l.ids.events e.id
  deliveriesIssued : ∀ d ∈ l.deliveries, IsIssued "f0000000" l.ids.deliveries d.id
  completionChore : ∀ c ∈ l.completions, ∃ r ∈ l.chores, r.id = c.choreId
  eventChore : ∀ e ∈ l.events, ∃ r ∈ l.chores, r.id = e.choreId
  deliveryEvent : ∀ d ∈ l.deliveries, ∃ e ∈ l.events, e.id = d.eventId
  eventKeys : (l.events.map fun e => (e.choreId, e.dueAt)).Nodup
  deliveryKeys : (l.deliveries.map fun d => (d.eventId, d.channel)).Nodup

theorem sound_empty : Sound empty := by
  constructor <;> simp [empty]

namespace Sound

variable {l l' : Ledger}

theorem createChore (s : Sound l) {now created : Instant} {name : String} {schedule : Schedule}
    {description : Option String} :
    Sound { l with
      chores := l.chores ++ [l.newChoreRow now name schedule description created]
      ids := { l.ids with chores := l.ids.chores + 1 } } := by
  have grown : ∀ id, (∃ r ∈ l.chores, r.id = id) →
      ∃ r ∈ l.chores ++ [l.newChoreRow now name schedule description created], r.id = id := by
    rintro id ⟨r, hr, rfl⟩
    exact ⟨r, List.mem_append_left _ hr, rfl⟩
  refine { s with
    choreIds := nodup_map_concat.2 ⟨s.choreIds, ?_⟩, choresIssued := ?_
    completionChore := fun c hc => grown _ (s.completionChore c hc)
    eventChore := fun e he => grown _ (s.eventChore e he) }
  · intro r hr same
    apply not_isIssued_next "c0000000" l.ids.chores
    have issued := s.choresIssued r hr
    rwa [same] at issued
  · intro r hr
    rcases List.mem_append.1 hr with hr | hr
    · exact (s.choresIssued r hr).mono (Nat.le_succ _)
    · obtain rfl := List.mem_singleton.1 hr
      exact isIssued_next _ _

theorem mapChores (s : Sound l) {change : ChoreRow → ChoreRow} (id : ∀ r, (change r).id = r.id) :
    Sound { l with chores := l.chores.map change } := by
  have ids : (l.chores.map change).map (·.id) = l.chores.map (·.id) := by
    simp only [List.map_map, Function.comp_def, id]
  have kept : ∀ {i : String}, (∃ r ∈ l.chores, r.id = i) →
      ∃ r ∈ l.chores.map change, r.id = i := by
    rintro i ⟨r, hr, rfl⟩
    exact ⟨change r, List.mem_map_of_mem hr, id r⟩
  refine { s with
    choreIds := ids ▸ s.choreIds, choresIssued := ?_
    completionChore := fun c hc => kept (s.completionChore c hc)
    eventChore := fun e he => kept (s.eventChore e he) }
  intro r hr
  obtain ⟨old, member, rfl⟩ := List.mem_map.1 hr
  rw [id]
  exact s.choresIssued old member

theorem deleteChore (s : Sound l) (id : String) : Sound (l.deleteChore id).2 := by
  have kept : ∀ i, i ≠ id → (∃ r ∈ l.chores, r.id = i) →
      ∃ r ∈ l.chores.filter (·.id != id), r.id = i := by
    rintro i hi ⟨r, hr, rfl⟩
    exact ⟨r, List.mem_filter.2 ⟨hr, by simpa using hi⟩, rfl⟩
  constructor
  case choreIds => exact nodup_map_filter _ s.choreIds
  case completionIds => exact nodup_map_filter _ s.completionIds
  case eventIds => exact nodup_map_filter _ s.eventIds
  case deliveryIds => exact nodup_map_filter _ s.deliveryIds
  case choresIssued => exact fun r hr => s.choresIssued r (List.mem_filter.1 hr).1
  case completionsIssued => exact fun c hc => s.completionsIssued c (List.mem_filter.1 hc).1
  case eventsIssued => exact fun e he => s.eventsIssued e (List.mem_filter.1 he).1
  case deliveriesIssued => exact fun d hd => s.deliveriesIssued d (List.mem_filter.1 hd).1
  case completionChore =>
    intro c hc
    obtain ⟨hc, other⟩ := List.mem_filter.1 hc
    exact kept _ (by simpa using other) (s.completionChore c hc)
  case eventChore =>
    intro e he
    obtain ⟨he, other⟩ := List.mem_filter.1 he
    exact kept _ (by simpa using other) (s.eventChore e he)
  case deliveryEvent =>
    intro d hd
    obtain ⟨hd, stays⟩ := List.mem_filter.1 hd
    obtain ⟨e, he, same⟩ := s.deliveryEvent d hd
    refine ⟨e, List.mem_filter.2 ⟨he, ?_⟩, same⟩
    simp only [Bool.not_eq_true', List.any_eq_false, decide_eq_true_eq, not_and] at stays
    simpa using stays e he same
  case eventKeys => exact nodup_map_filter _ s.eventKeys
  case deliveryKeys => exact nodup_map_filter _ s.deliveryKeys

theorem complete (s : Sound l) {now completed : Instant} {choreId : String} {notes : Option String}
    (chore : ∃ r ∈ l.chores, r.id = choreId) :
    Sound { l with
      completions := l.completions ++ [l.newCompletionRow now choreId completed notes]
      ids := { l.ids with completions := l.ids.completions + 1 } } := by
  refine { s with
    completionIds := nodup_map_concat.2 ⟨s.completionIds, ?_⟩, completionsIssued := ?_
    completionChore := ?_ }
  · intro c hc same
    apply not_isIssued_next "d0000000" l.ids.completions
    have issued := s.completionsIssued c hc
    rwa [same] at issued
  · intro c hc
    rcases List.mem_append.1 hc with hc | hc
    · exact (s.completionsIssued c hc).mono (Nat.le_succ _)
    · obtain rfl := List.mem_singleton.1 hc
      exact isIssued_next _ _
  · intro c hc
    rcases List.mem_append.1 hc with hc | hc
    · exact s.completionChore c hc
    · obtain rfl := List.mem_singleton.1 hc
      exact chore

theorem addEvent (s : Sound l) {now due : Instant} {choreId title body : String}
    (fresh : l.eventFor? choreId due = none) (chore : ∃ r ∈ l.chores, r.id = choreId) :
    Sound (l.addEvent (l.newEvent now choreId due title body)) := by
  refine { s with
    eventIds := nodup_map_concat.2 ⟨s.eventIds, ?_⟩, eventsIssued := ?_, eventChore := ?_
    deliveryEvent := ?_, eventKeys := nodup_map_concat.2 ⟨s.eventKeys, ?_⟩ }
  · intro e he same
    apply not_isIssued_next "e0000000" l.ids.events
    have issued := s.eventsIssued e he
    rwa [same] at issued
  · intro e he
    rcases List.mem_append.1 he with he | he
    · exact (s.eventsIssued e he).mono (Nat.le_succ _)
    · obtain rfl := List.mem_singleton.1 he
      exact isIssued_next _ _
  · intro e he
    rcases List.mem_append.1 he with he | he
    · exact s.eventChore e he
    · obtain rfl := List.mem_singleton.1 he
      exact chore
  · intro d hd
    obtain ⟨e, he, same⟩ := s.deliveryEvent d hd
    exact ⟨e, List.mem_append_left _ he, same⟩
  · intro e he same
    have missed := List.find?_eq_none.1 fresh e he
    simp only [Prod.mk.injEq] at same
    simp [same.1, same.2, newEvent] at missed

theorem addDelivery (s : Sound l) {now : Instant} {eventId channel : String}
    (event : ∃ e ∈ l.events, e.id = eventId) (fresh : l.deliveryFor? eventId channel = none) :
    Sound (l.addDelivery (l.newDelivery now eventId channel)) := by
  refine { s with
    deliveryIds := nodup_map_concat.2 ⟨s.deliveryIds, ?_⟩, deliveriesIssued := ?_
    deliveryEvent := ?_, deliveryKeys := nodup_map_concat.2 ⟨s.deliveryKeys, ?_⟩ }
  · intro d hd same
    apply not_isIssued_next "f0000000" l.ids.deliveries
    have issued := s.deliveriesIssued d hd
    rwa [same] at issued
  · intro d hd
    rcases List.mem_append.1 hd with hd | hd
    · exact (s.deliveriesIssued d hd).mono (Nat.le_succ _)
    · obtain rfl := List.mem_singleton.1 hd
      exact isIssued_next _ _
  · intro d hd
    rcases List.mem_append.1 hd with hd | hd
    · exact s.deliveryEvent d hd
    · obtain rfl := List.mem_singleton.1 hd
      exact event
  · intro d hd same
    have missed := List.find?_eq_none.1 fresh d hd
    simp only [Prod.mk.injEq] at same
    simp [same.1, same.2, newDelivery] at missed

theorem mark (s : Sound l) (m : Mark) : Sound (l.mark m).2 := by
  rw [mark_ledger]
  have keep {β : Type} (f : Delivery → β) (same : ∀ d, f (d.marked m) = f d) :
      (l.deliveries.map (Delivery.marked m)).map f = l.deliveries.map f := by
    simp only [List.map_map, Function.comp_def, same]
  refine { s with
    deliveryIds := ?_, deliveriesIssued := ?_, deliveryEvent := ?_, deliveryKeys := ?_ }
  · rw [keep _ fun d => d.marked_id m]
    exact s.deliveryIds
  · intro d hd
    obtain ⟨old, member, rfl⟩ := List.mem_map.1 hd
    rw [Delivery.marked_id]
    exact s.deliveriesIssued old member
  · intro d hd
    obtain ⟨old, member, rfl⟩ := List.mem_map.1 hd
    rw [Delivery.marked_eventId]
    exact s.deliveryEvent old member
  · rw [keep _ fun d => by rw [Delivery.marked_eventId, Delivery.marked_channel]]
    exact s.deliveryKeys

theorem change (h : Change l l') (s : Sound l) : Sound l' := by
  cases h with
  | createChore done =>
    obtain ⟨-, created, -, -, rfl⟩ := createChore_ok done
    exact s.createChore
  | updateSchedule done =>
    obtain ⟨-, -, rfl⟩ := updateSchedule_ok done
    exact s.mapChores fun r => by split <;> rfl
  | deleteChore id => exact s.deleteChore id
  | complete done =>
    obtain ⟨chore, completed, -, rfl⟩ := complete_ok done
    exact s.complete (choreExists_iff.1 chore)
  | addEvent fresh chore => exact s.addEvent fresh (choreExists_iff.1 chore)
  | addDelivery event fresh => exact s.addDelivery event fresh

theorem course {ms : List Mark} (h : Course l ms l') (s : Sound l) : Sound l' :=
  h.preserves change (fun m s => s.mark m) s

end Sound

end ChoreReminder.Ledger
