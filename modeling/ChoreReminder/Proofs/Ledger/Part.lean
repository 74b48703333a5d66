import ChoreReminder.Proofs.Ledger.Sound

/-! What belongs to one chore: its row, its completions, its events and the deliveries of those. What the
ledger tells of a chore depends on this part of it only, and an operation that is meant for one chore leaves
the parts of all others as they are. -/

namespace ChoreReminder

/-- Rows that belong to one chore, those of each table in the order in which they were written. -/
structure Part where
  chores : List ChoreRow
  completions : List CompletionRow
  events : List Event
  deliveries : List Delivery

namespace Ledger

variable {l l' : Ledger} {a b id : String} {now : Instant}

def owns (l : Ledger) (id : String) (d : Delivery) : Bool :=
  l.events.any fun e => e.id = d.eventId ∧ e.choreId = id

def part (l : Ledger) (id : String) : Part where
  chores := l.chores.filter (·.id = id)
  completions := l.completions.filter (·.choreId = id)
  events := l.events.filter (·.choreId = id)
  deliveries := l.deliveries.filter (l.owns id)

theorem owns_iff {d : Delivery} :
    l.owns id d = true ↔ ∃ e ∈ l.events, e.id = d.eventId ∧ e.choreId = id := by
  simp [owns]

theorem Sound.owner_unique (s : Sound l) {d : Delivery} (own : l.owns a d = true)
    (own' : l.owns b d = true) : a = b := by
  obtain ⟨e, he, event, rfl⟩ := owns_iff.1 own
  obtain ⟨e', he', event', rfl⟩ := owns_iff.1 own'
  rw [eq_of_key s.eventIds he he' (event.trans event'.symm)]

/-! ### What is told of a chore -/

section

variable (same : l'.part id = l.part id)
include same

theorem completions_congr :
    l'.completions.filter (·.choreId = id) = l.completions.filter (·.choreId = id) :=
  congrArg Part.completions same

theorem chore?_congr : l'.chore? id = l.chore? id := by
  have chores := congrArg Part.chores same
  have latest : l'.latestCompletion id = l.latestCompletion id := by
    rw [latestCompletion, latestCompletion, completions_congr same]
  simp only [part] at chores
  rw [chore?, chore?, ← List.head?_filter, ← List.head?_filter, chores, latest]

theorem completionsOf_congr (limit : Int) : l'.completionsOf id limit = l.completionsOf id limit := by
  rw [completionsOf, completionsOf, completions_congr same]

theorem completionExists_congr (since : Option Stamp) :
    l'.completionExists id since = l.completionExists id since := by
  unfold completionExists
  rw [completions_congr same]

theorem eventsOf_congr (named : id ≠ "") : l'.eventsOf (some id) = l.eventsOf (some id) := by
  have events := congrArg Part.events same
  simp only [part] at events
  simp only [eventsOf, named, false_or, events]

theorem deliveries_congr {e : Event} (he : e ∈ l.events) (own : e.choreId = id) :
    l'.deliveries.filter (·.eventId = e.id) = l.deliveries.filter (·.eventId = e.id) := by
  have events : e ∈ (l.part id).events := List.mem_filter.2 ⟨he, decide_eq_true own⟩
  have events' : e ∈ (l'.part id).events := same ▸ events
  have among {m : Ledger} (member : e ∈ (m.part id).events) :
      m.deliveries.filter (·.eventId = e.id) = (m.part id).deliveries.filter (·.eventId = e.id) := by
    rw [part, List.filter_filter]
    refine List.filter_congr fun d _ => ?_
    by_cases event : d.eventId = e.id
    · have owned := owns_iff.2 ⟨e, (List.mem_filter.1 member).1, event.symm, own⟩
      simp [event, owned]
    · simp [event]
  rw [among events, among events', same]

theorem deliveriesOf_congr {e : Event} (he : e ∈ l.events) (own : e.choreId = id) (given : e.id ≠ "")
    (limit : Int) : l'.deliveriesOf (some e.id) limit = l.deliveriesOf (some e.id) limit := by
  simp only [deliveriesOf, deliveriesOfEvent, given, if_false, deliveries_congr same he own]

end

/-! ### What is meant for another chore -/

theorem filter_map_of_idle {α : Type} {p : α → Bool} {f : α → α} {rows : List α}
    (same : ∀ x, p (f x) = p x) (idle : ∀ x ∈ rows, p x = true → f x = x) :
    (rows.map f).filter p = rows.filter p := by
  have owned : p ∘ f = p := funext same
  rw [List.filter_map, owned]
  refine (List.map_congr_left fun x hx => ?_).trans (List.map_id' _)
  obtain ⟨member, own⟩ := List.mem_filter.1 hx
  exact idle x member own

theorem part_updateSchedule (apart : a ≠ b) {schedule : Schedule} {found : Bool}
    (done : l.updateSchedule now a schedule = .ok (found, l')) : l'.part b = l.part b := by
  obtain ⟨-, -, rfl⟩ := updateSchedule_ok done
  have rows : (l.chores.map fun r => if r.id = a then rescheduled now schedule r else r).filter
      (·.id = b) = l.chores.filter (·.id = b) := by
    refine filter_map_of_idle (fun r => ?_) fun r _ own => if_neg fun other => ?_
    · split <;> rfl
    · exact apart (other.symm.trans (of_decide_eq_true own))
  exact congrArg (Part.mk · _ _ _) rows

theorem filter_other {α : Type} {key : α → String} (apart : a ≠ b) (rows : List α) :
    (rows.filter (key · != a)).filter (key · = b) = rows.filter (key · = b) := by
  rw [List.filter_filter]
  refine List.filter_congr fun x _ => ?_
  by_cases own : key x = b
  · simp [own, apart.symm]
  · simp [own]

theorem Sound.part_deleteChore (s : Sound l) (apart : a ≠ b) : (l.deleteChore a).2.part b = l.part b := by
  have owned (d : Delivery) : (l.deleteChore a).2.owns b d = l.owns b d := by
    rw [Bool.eq_iff_iff, owns_iff, owns_iff]
    constructor
    · rintro ⟨e, he, own⟩
      exact ⟨e, (List.mem_filter.1 he).1, own⟩
    · rintro ⟨e, he, event, rfl⟩
      exact ⟨e, List.mem_filter.2 ⟨he, by simpa using apart.symm⟩, event, rfl⟩
  have stays : (l.deleteChore a).2.deliveries.filter (l.owns b) = l.deliveries.filter (l.owns b) := by
    change (l.deliveries.filter (!l.owns a ·)).filter (l.owns b) = _
    rw [List.filter_filter]
    refine List.filter_congr fun d _ => ?_
    cases own : l.owns b d with
    | false => rfl
    | true =>
      have other : l.owns a d = false := by
        rw [← Bool.not_eq_true]
        exact fun mine => apart (s.owner_unique mine own)
      rw [other]
      rfl
  have chores : (l.deleteChore a).2.chores.filter (·.id = b) = l.chores.filter (·.id = b) :=
    filter_other apart _
  have completions : (l.deleteChore a).2.completions.filter (·.choreId = b) =
      l.completions.filter (·.choreId = b) := filter_other apart _
  have events : (l.deleteChore a).2.events.filter (·.choreId = b) = l.events.filter (·.choreId = b) :=
    filter_other apart _
  rw [part, part, funext owned, stays, chores, completions, events]

theorem part_complete (apart : a ≠ b) {completedAt : Option Stamp} {notes : Option String}
    {completion : Completion} (done : l.complete now a completedAt notes = .ok (completion, l')) :
    l'.part b = l.part b := by
  obtain ⟨-, completed, -, rfl⟩ := complete_ok done
  have rows : (l.completions ++ [l.newCompletionRow now a completed notes]).filter (·.choreId = b) =
      l.completions.filter (·.choreId = b) := by
    simp [newCompletionRow, apart]
  exact congrArg (Part.mk _ · _ _) rows

theorem part_addEvent (apart : a ≠ b) {e : Event} (own : e.choreId = a) :
    (l.addEvent e).part b = l.part b := by
  have owned (d : Delivery) : (l.addEvent e).owns b d = l.owns b d := by
    simp [owns, addEvent, own, apart]
  have rows : (l.events ++ [e]).filter (·.choreId = b) = l.events.filter (·.choreId = b) := by
    simp [own, apart]
  rw [part, part, funext owned]
  exact congrArg (Part.mk _ _ · _) rows

theorem Sound.part_addDelivery (s : Sound l) (apart : a ≠ b) {d : Delivery} (own : l.owns a d = true) :
    (l.addDelivery d).part b = l.part b := by
  have other : l.owns b d = false := by
    rw [← Bool.not_eq_true]
    exact fun mine => apart (s.owner_unique own mine)
  have rows : (l.deliveries ++ [d]).filter (l.owns b) = l.deliveries.filter (l.owns b) := by
    simp [other]
  exact congrArg (Part.mk _ _ _) rows

theorem Sound.part_mark (s : Sound l) (apart : a ≠ b) {m : Mark} {d : Delivery} (hd : d ∈ l.deliveries)
    (meant : d.id = m.deliveryId) (own : l.owns a d = true) : (l.mark m).2.part b = l.part b := by
  rw [mark_ledger]
  have rows : (l.deliveries.map (Delivery.marked m)).filter (l.owns b) = l.deliveries.filter (l.owns b) := by
    refine filter_map_of_idle (fun d' => ?_) fun d' member mine => Delivery.marked_of_ne fun same => ?_
    · simp only [owns, Delivery.marked_eventId]
    · obtain rfl := eq_of_key s.deliveryIds hd member (meant.trans same.symm)
      exact apart (s.owner_unique own mine)
  exact congrArg (Part.mk _ _ _) rows

theorem Sound.part_ensureDeliveries (s : Sound l) (apart : a ≠ b) {e : Event} (he : e ∈ l.events)
    (own : e.choreId = a) {channels : List (Option String)}
    (done : channels.foldlM (ensureDelivery now e.id) l = .ok l') : l'.part b = l.part b := by
  induction channels generalizing l with
  | nil =>
    rw [List.foldlM_nil, pure_eq_ok] at done
    rw [done]
  | cons channel rest ih =>
    rw [List.foldlM_cons, bind_eq_ok] at done
    obtain ⟨l₁, first, later⟩ := done
    obtain ⟨course, events⟩ := ensureDelivery_course first ⟨e, he, rfl⟩
    have one : l₁.part b = l.part b := by
      obtain ⟨name, -, ⟨d, -, rfl⟩ | ⟨-, rfl⟩⟩ := ensureDelivery_ok first
      · rfl
      · exact s.part_addDelivery apart (owns_iff.2 ⟨e, he, rfl, own⟩)
    rw [ih (s.course course) (events ▸ he) later, one]

theorem Sound.part_upsert (s : Sound l) (apart : a ≠ b) {due : Stamp} {title body event : String}
    {channels : List (Option String)}
    (done : l.upsert now a due title body channels = .ok (event, l')) : l'.part b = l.part b := by
  obtain ⟨dueInstant, l₁, -, first, later⟩ := upsert_ok done
  have sound := s.course (ensureEvent_course first).1
  rcases ensureEvent_ok first with ⟨e, found, rfl, rfl⟩ | ⟨-, -, rfl, rfl⟩
  · have own : e.choreId = a := (by simpa using List.find?_some found : _ ∧ _).1
    exact s.part_ensureDeliveries apart (List.mem_of_find?_eq_some found) own later
  · rw [← part_addEvent apart (l := l) (e := l.newEvent now a dueInstant title body) rfl]
    exact sound.part_ensureDeliveries apart (List.mem_append_right _ List.mem_cons_self) rfl later

end Ledger

end ChoreReminder
