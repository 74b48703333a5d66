import ChoreReminder.Notify.Generator
import ChoreReminder.Proofs.Calendar.Stamp
import ChoreReminder.Proofs.Ledger.Change
import ChoreReminder.Proofs.Ledger.Growth
import ChoreReminder.Proofs.Ledger.Sound
import ChoreReminder.Proofs.Ledger.Store
import ChoreReminder.Proofs.Schedule.Agenda

/-! What a tick of the generator creates. Asking for the event of a chore that exists never fails as long
as the channels have names; it leaves chores and earlier events as they are. So once the agenda is
known, there is an event for each chore on it that has a due time, and a tick adds no other events. -/

namespace ChoreReminder

namespace Ledger

variable {l : Ledger}

def HasEvent (l : Ledger) (choreId : String) (due : Instant) : Prop :=
  ∃ e ∈ l.events, e.choreId = choreId ∧ e.dueAt = due

theorem ensureEvent_adds (now : Instant) {choreId : String}
    (exists' : l.choreExists choreId = true) (due : Instant) (title body : String) :
    ∃ id l', l.ensureEvent now choreId due title body = .ok (id, l') ∧ l'.chores = l.chores ∧
      l.events ⊆ l'.events ∧ l'.HasEvent choreId due := by
  unfold ensureEvent
  cases found : l.eventFor? choreId due with
  | some e =>
    have key : e.choreId = choreId ∧ e.dueAt = due := by simpa using List.find?_some found
    exact ⟨e.id, l, rfl, rfl, List.Subset.refl _, e, List.mem_of_find?_eq_some found, key⟩
  | none =>
    simp only [exists', if_true]
    exact ⟨_, _, rfl, rfl, List.subset_append_left _ _, _,
      List.mem_append_right _ List.mem_cons_self, rfl, rfl⟩

theorem ensureDelivery_adds (l : Ledger) (now : Instant) (eventId channel : String) :
    ∃ l', ensureDelivery now eventId l (some channel) = .ok l' ∧ l'.chores = l.chores ∧
      l'.events = l.events := by
  cases found : l.deliveryFor? eventId channel with
  | some d => exact ⟨l, by simp only [ensureDelivery, found], rfl, rfl⟩
  | none =>
    exact ⟨l.addDelivery (l.newDelivery now eventId channel),
      by simp only [ensureDelivery, found]; rfl, rfl, rfl⟩

theorem ensureDeliveries_adds (l : Ledger) (now : Instant) (eventId : String)
    (channels : List String) :
    ∃ l', (channels.map some).foldlM (ensureDelivery now eventId) l = .ok l' ∧
      l'.chores = l.chores ∧ l'.events = l.events := by
  induction channels generalizing l with
  | nil => exact ⟨l, rfl, rfl, rfl⟩
  | cons channel rest ih =>
    obtain ⟨l₁, first, chores, events⟩ := ensureDelivery_adds l now eventId channel
    obtain ⟨l', others, chores', events'⟩ := ih l₁
    refine ⟨l', ?_, chores'.trans chores, events'.trans events⟩
    rw [List.map_cons, List.foldlM_cons, first]
    exact others

theorem upsert_adds (now : Instant) {choreId : String} (exists' : l.choreExists choreId = true)
    (due : Instant) (title body : String) (channels : List String) :
    ∃ id l', l.upsert now choreId (.utc due) title body (channels.map some) = .ok (id, l') ∧
      l'.chores = l.chores ∧ l.events ⊆ l'.events ∧ l'.HasEvent choreId due := by
  obtain ⟨id, l₁, first, chores, kept, event⟩ :=
    ensureEvent_adds now exists' due title body
  obtain ⟨l', others, chores', events⟩ :=
    ensureDeliveries_adds l₁ now id channels
  refine ⟨id, l', ?_, chores'.trans chores, events ▸ kept, ?_⟩
  · simp only [upsert, bind_eq_ok, pure_eq_ok, storable_eq_ok]
    exact ⟨due, Stamp.instant?_utc due, (id, l₁), first, l', others, rfl⟩
  · obtain ⟨e, he, key⟩ := event
    exact ⟨e, events ▸ he, key⟩

end Ledger

namespace Generator

theorem generateOne_write (now : Instant) (channels : List (Option String)) (g : Generated)
    (info : DueInfo) :
    info.nextDue = none ∧ (generateOne now channels g info).store = g.store ∨
    ∃ due title body, info.nextDue = some due ∧ (generateOne now channels g info).store =
      (g.store.write .upsert fun l => l.upsert now info.chore.id (.utc due) title body channels).2 := by
  unfold generateOne
  cases info.nextDue with
  | none => exact .inl ⟨rfl, rfl⟩
  | some due =>
    let message := DueMessage.of info.chore.name due
    refine .inr ⟨due, message.title, message.body, rfl, ?_⟩
    dsimp only
    split <;> next written => exact (congrArg Prod.snd written).symm

section

variable (now : Instant) (channels : List String)

theorem generateOne_adds {l : Ledger} {g : Generated} (h : g.store = .ofLedger l) (info : DueInfo)
    (exists' : l.choreExists info.chore.id = true) :
    ∃ l', (generateOne now (channels.map some) g info).store = .ofLedger l' ∧
      l'.chores = l.chores ∧ l.events ⊆ l'.events ∧
      ∀ due, info.nextDue = some due → l'.HasEvent info.chore.id due := by
  rcases generateOne_write now (channels.map some) g info with
    ⟨none, store⟩ | ⟨due, title, body, next, store⟩
  · refine ⟨l, store.trans h, rfl, List.Subset.refl _, fun due some => ?_⟩
    rw [none] at some
    cases some
  · obtain ⟨id, l', done, chores, events, event⟩ :=
      Ledger.upsert_adds now exists' due title body channels
    rw [h, Store.write_ofLedger_ok done] at store
    refine ⟨l', store, chores, events, fun due' next' => ?_⟩
    obtain rfl := Option.some.inj (next.symm.trans next')
    exact event

theorem generate_adds {infos : List DueInfo} {l : Ledger} {g : Generated}
    (h : g.store = .ofLedger l) (exist : ∀ info ∈ infos, l.choreExists info.chore.id = true) :
    ∃ l', (infos.foldl (generateOne now (channels.map some)) g).store = .ofLedger l' ∧
      l.events ⊆ l'.events ∧
      ∀ info ∈ infos, ∀ due, info.nextDue = some due → l'.HasEvent info.chore.id due := by
  induction infos generalizing l g with
  | nil => exact ⟨l, h, List.Subset.refl _, fun info none => absurd none List.not_mem_nil⟩
  | cons info rest ih =>
    obtain ⟨l₁, store, chores, events, event⟩ := generateOne_adds now channels h info
      (exist info List.mem_cons_self)
    have exist' : ∀ info ∈ rest, l₁.choreExists info.chore.id = true := by
      intro info hi
      rw [Ledger.choreExists, chores]
      exact exist info (List.mem_cons_of_mem _ hi)
    obtain ⟨l', store', events', each⟩ := ih store exist'
    refine ⟨l', store', List.Subset.trans events events', ?_⟩
    intro other member due found
    rcases List.mem_cons.1 member with rfl | member
    · obtain ⟨e, he, key⟩ := event due found
      exact ⟨e, events' he, key⟩
    · exact each other member due found

end

/-! ### Outages -/

theorem agenda_store (l : Ledger) (time : Stamp) (includeUpcoming : Bool) :
    ((Store.ofLedger l).agenda time includeUpcoming).2.1 = .ofLedger l := by
  simp [Store.agenda, Store.read_ofLedger]

theorem generate_outages (now : Instant) (channels : List (Option String)) (infos : List DueInfo)
    {g : Generated} (up : g.store.outages = []) :
    (infos.foldl (generateOne now channels) g).store.outages = [] := by
  induction infos generalizing g with
  | nil => exact up
  | cons info rest ih =>
    refine ih ?_
    rcases generateOne_write now channels g info with ⟨-, store⟩ | ⟨due, title, body, -, store⟩
    · rw [store, up]
    · rw [store, Store.write_outages up]

theorem tick_outages (l : Ledger) (now : Instant) (time : Stamp) (channels : List (Option String)) :
    (tick now time channels (.ofLedger l)).store.outages = [] := by
  have unchanged := agenda_store l time false
  unfold tick
  rcases h : (Store.ofLedger l).agenda time false with ⟨f | infos, s, notices⟩ <;>
    rw [h] at unchanged
  · exact congrArg Store.outages unchanged
  · exact generate_outages now channels infos (congrArg Store.outages unchanged)

/-! ### Nothing else -/

section Growth

variable (now : Instant) (channels : List (Option String))

theorem generateOne_grown (g : Generated) (info : DueInfo) :
    let l := g.store.ledger
    let l' := (generateOne now channels g info).store.ledger
    l.Grown l' ∧ l.Course [] l' ∧
      ∀ e ∈ l'.events, e ∈ l.events ∨ e.choreId = info.chore.id ∧ info.nextDue = some e.dueAt := by
  intro l l'
  have unchanged (same : l' = l) : l.Grown l' ∧ l.Course [] l' ∧
      ∀ e ∈ l'.events, e ∈ l.events ∨ e.choreId = info.chore.id ∧ info.nextDue = some e.dueAt := by
    rw [same]
    exact ⟨.refl l, .refl l, fun e he => .inl he⟩
  rcases generateOne_write now channels g info with ⟨-, store⟩ | ⟨due, title, body, next, store⟩
  · exact unchanged (congrArg Store.ledger store)
  · have call := g.store.write_cases .upsert fun l =>
      l.upsert now info.chore.id (.utc due) title body channels
    rw [← store] at call
    rcases call with ⟨-, same⟩ | ⟨id, -, done⟩
    · exact unchanged same
    · obtain ⟨grown, added⟩ := Ledger.upsert_grown done
      simp only [Stamp.instant?_utc, ← next] at added
      exact ⟨grown, Ledger.upsert_course done, added⟩

theorem generate_grown (infos : List DueInfo) (g : Generated) :
    let l := g.store.ledger
    let l' := (infos.foldl (generateOne now channels) g).store.ledger
    l.Grown l' ∧ l.Course [] l' ∧ ∀ e ∈ l'.events, e ∈ l.events ∨
      ∃ info ∈ infos, e.choreId = info.chore.id ∧ info.nextDue = some e.dueAt := by
  induction infos generalizing g with
  | nil => exact ⟨.refl _, .refl _, fun e he => .inl he⟩
  | cons info rest ih =>
    obtain ⟨grown, course, added⟩ := generateOne_grown now channels g info
    obtain ⟨grown', course', added'⟩ := ih (generateOne now channels g info)
    refine ⟨grown.trans grown', course.append course', fun e he => ?_⟩
    rcases added' e he with between | ⟨other, member, key⟩
    · rcases added e between with before | key
      · exact .inl before
      · exact .inr ⟨info, List.mem_cons_self, key⟩
    · exact .inr ⟨other, List.mem_cons_of_mem _ member, key⟩

theorem agenda_cases (s : Store) (time : Stamp) (includeUpcoming : Bool) :
    (s.agenda time includeUpcoming).2.1.ledger = s.ledger ∧
      ∀ infos, (s.agenda time includeUpcoming).1 = .ok infos →
        (Agenda.collect s.ledger.candidates.1 time includeUpcoming).1 = .ok infos := by
  obtain ⟨same, found⟩ := s.read_cases .candidates fun l => .ok l.candidates
  unfold Store.agenda
  rcases read : s.read .candidates fun l => .ok l.candidates with ⟨f | chores, s'⟩ <;>
    rw [read] at same found
  · exact ⟨same, nofun⟩
  · obtain rfl := Except.ok.inj (found.resolve_left nofun)
    refine ⟨same, fun infos agenda => ?_⟩
    exact mapError_eq_ok.1 agenda

theorem tick_grown (s : Store) (time : Stamp) :
    let l := s.ledger
    let l' := (tick now time channels s).store.ledger
    l.Grown l' ∧ l.Course [] l' ∧
      ∀ e ∈ l'.events, e ∈ l.events ∨ ∃ c ∈ l.candidates.1, ∃ info,
        Agenda.listed time false c = some info ∧ c.id = e.choreId ∧ info.nextDue = some e.dueAt := by
  obtain ⟨same, collected⟩ := agenda_cases s time false
  unfold tick
  rcases found : s.agenda time false with ⟨f | infos, s', notices⟩ <;> rw [found] at same collected
  · dsimp only at same ⊢
    rw [same]
    exact ⟨.refl _, .refl _, fun e he => .inl he⟩
  · obtain ⟨grown, course, added⟩ := generate_grown now channels infos ⟨0, s', notices⟩
    dsimp only at same grown course added ⊢
    rw [same] at grown course added
    refine ⟨grown, course, fun e he => ?_⟩
    rcases added e he with before | ⟨info, member, chore, due⟩
    · exact .inl before
    · obtain ⟨c, hc, given⟩ := Agenda.listed_of_mem_collect (collected infos rfl) member
      rw [Agenda.chore_of_listed given] at chore
      exact .inr ⟨c, hc, info, given, chore.symm, due⟩

end Growth

end Generator

end ChoreReminder
