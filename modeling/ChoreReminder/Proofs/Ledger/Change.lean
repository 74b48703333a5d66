import ChoreReminder.Proofs.Ledger.Mark
import ChoreReminder.Proofs.Ledger.Operations

/-! How ledgers come about. A ledger changes only through a few operations on single rows, the removal of
a chore, and marks; whatever the program does amounts to a course of such changes. What each change
preserves holds therefore after every course. -/

namespace ChoreReminder.Ledger

/-- One operation that went through, marks apart. -/
inductive Change : Ledger → Ledger → Prop where
  | createChore {l l' : Ledger} {now : Instant} {name : String} {schedule : Schedule}
      {description : Option String} {createdAt : Option Stamp} {chore : Chore}
      (done : l.createChore now name schedule description createdAt = .ok (chore, l')) :
      Change l l'
  | updateSchedule {l l' : Ledger} {now : Instant} {id : String} {schedule : Schedule} {found : Bool}
      (done : l.updateSchedule now id schedule = .ok (found, l')) : Change l l'
  | deleteChore (l : Ledger) (id : String) : Change l (l.deleteChore id).2
  | complete {l l' : Ledger} {now : Instant} {choreId : String} {completedAt : Option Stamp}
      {notes : Option String} {completion : Completion}
      (done : l.complete now choreId completedAt notes = .ok (completion, l')) : Change l l'
  | addEvent {l : Ledger} {now : Instant} {choreId : String} {due : Instant} {title body : String}
      (fresh : l.eventFor? choreId due = none) (chore : l.choreExists choreId = true) :
      Change l (l.addEvent (l.newEvent now choreId due title body))
  | addDelivery {l : Ledger} {now : Instant} {eventId channel : String}
      (event : ∃ e ∈ l.events, e.id = eventId) (fresh : l.deliveryFor? eventId channel = none) :
      Change l (l.addDelivery (l.newDelivery now eventId channel))

/-- A course of changes, with the marks on the way. -/
inductive Course : Ledger → List Mark → Ledger → Prop where
  | refl (l : Ledger) : Course l [] l
  | change {l l₁ l' : Ledger} {ms : List Mark} (first : Change l l₁) (rest : Course l₁ ms l') :
      Course l ms l'
  | mark {l l' : Ledger} {m : Mark} {ms : List Mark} (rest : Course (l.mark m).2 ms l') :
      Course l (m :: ms) l'

namespace Course

variable {l l₁ l' : Ledger} {ms ms' : List Mark}

theorem single (h : Change l l') : Course l [] l' := .change h (.refl l')

theorem append (h : Course l ms l₁) (h' : Course l₁ ms' l') : Course l (ms ++ ms') l' := by
  induction h with
  | refl => exact h'
  | change first rest ih => exact .change first (ih h')
  | mark rest ih => exact .mark (ih h')

theorem preserves {P : Ledger → Prop} (change : ∀ {l l' : Ledger}, Change l l' → P l → P l')
    (mark : ∀ {l : Ledger} (m : Mark), P l → P (l.mark m).2) (h : Course l ms l') (hl : P l) :
    P l' := by
  induction h with
  | refl => exact hl
  | change first rest ih => exact ih (change first hl)
  | mark rest ih => exact ih (mark _ hl)

theorem marks (l : Ledger) (ms : List Mark) :
    Course l ms (ms.foldl (fun l m => (l.mark m).2) l) := by
  induction ms generalizing l with
  | nil => exact .refl l
  | cons m ms ih => exact .mark (ih _)

end Course

theorem ensureEvent_course {l l' : Ledger} {now : Instant} {choreId : String} {due : Instant}
    {title body id : String} (h : l.ensureEvent now choreId due title body = .ok (id, l')) :
    Course l [] l' ∧ ∃ e ∈ l'.events, e.id = id := by
  rcases ensureEvent_ok h with ⟨e, he, rfl, rfl⟩ | ⟨fresh, chore, rfl, rfl⟩
  · exact ⟨.refl _, e, List.mem_of_find?_eq_some he, rfl⟩
  · refine ⟨.single (.addEvent fresh chore), _, List.mem_append_right _ List.mem_cons_self, rfl⟩

theorem ensureDelivery_course {l l' : Ledger} {now : Instant} {eventId : String}
    {channel : Option String} (h : ensureDelivery now eventId l channel = .ok l')
    (event : ∃ e ∈ l.events, e.id = eventId) : Course l [] l' ∧ l'.events = l.events := by
  obtain ⟨name, -, ⟨d, -, rfl⟩ | ⟨fresh, rfl⟩⟩ := ensureDelivery_ok h
  · exact ⟨.refl _, rfl⟩
  · exact ⟨.single (.addDelivery event fresh), rfl⟩

theorem ensureDeliveries_course {now : Instant} {eventId : String} {channels : List (Option String)}
    {l l' : Ledger} (h : channels.foldlM (ensureDelivery now eventId) l = .ok l')
    (event : ∃ e ∈ l.events, e.id = eventId) : Course l [] l' := by
  induction channels generalizing l with
  | nil =>
    simp only [List.foldlM_nil, pure_eq_ok] at h
    exact h ▸ .refl l
  | cons channel rest ih =>
    simp only [List.foldlM_cons, bind_eq_ok] at h
    obtain ⟨l₁, first, h⟩ := h
    obtain ⟨course, events⟩ := ensureDelivery_course first event
    exact course.append (ih h (events ▸ event))

theorem upsert_course {l l' : Ledger} {now : Instant} {choreId : String} {due : Stamp}
    {title body id : String} {channels : List (Option String)}
    (h : l.upsert now choreId due title body channels = .ok (id, l')) : Course l [] l' := by
  obtain ⟨dueInstant, l₁, -, he, hd⟩ := upsert_ok h
  obtain ⟨course, event⟩ := ensureEvent_course he
  exact course.append (ensureDeliveries_course hd event)

end ChoreReminder.Ledger
