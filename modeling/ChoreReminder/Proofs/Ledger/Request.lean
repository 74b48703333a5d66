import ChoreReminder.Proofs.Notify.Generator

/-! Requests for events. A request names a chore, a due time and channels; what is there for them already is
found again, and only what is missing is added. So the keys of the events after a request, and the
channels of each key, are the union of those before it and those that it names. -/

namespace ChoreReminder

structure Request where
  now : Instant
  choreId : String
  due : Stamp
  title : String
  body : String
  channels : List String

def Request.Names (r : Request) (choreId : String) (due : Instant) : Prop :=
  r.choreId = choreId ∧ r.due.instant? = some due

instance (r : Request) (choreId : String) (due : Instant) : Decidable (r.Names choreId due) :=
  inferInstanceAs (Decidable (_ ∧ _))

namespace Ledger

variable {l l' : Ledger} {r : Request} {due : Instant} {id : String}

def ask (l : Ledger) (r : Request) : Except LedgerFault (String × Ledger) :=
  l.upsert r.now r.choreId r.due r.title r.body (r.channels.map some)

def HasChannel (l : Ledger) (choreId : String) (due : Instant) (channel : String) : Prop :=
  ∃ e ∈ l.events, e.choreId = choreId ∧ e.dueAt = due ∧
    ∃ d ∈ l.deliveries, d.eventId = e.id ∧ d.channel = channel

theorem upsert_utc {due : Stamp} {i : Instant} (meant : due.instant? = some i) (l : Ledger)
    (now : Instant) (choreId title body : String) (channels : List (Option String)) :
    l.upsert now choreId due title body channels =
      l.upsert now choreId (.utc i) title body channels := by
  simp only [upsert, storable, meant, Stamp.instant?_utc]

theorem ask_error (past : r.due.instant? = none) (l : Ledger) :
    l.ask r = .error (.overflow .date) := by
  simp only [ask, upsert, storable, past]
  rfl

/-! ### What a request adds -/

theorem ensureDeliveries_ok {now : Instant} {eventId : String} {channels : List String}
    (h : (channels.map some).foldlM (ensureDelivery now eventId) l = .ok l') :
    (∀ d ∈ l'.deliveries, d ∈ l.deliveries ∨
      d.eventId = eventId ∧ d.channel ∈ channels ∧ d.status = .pending ∧ d.attemptCount = 0) ∧
    ∀ channel ∈ channels, ∃ d ∈ l'.deliveries, d.eventId = eventId ∧ d.channel = channel := by
  induction channels generalizing l with
  | nil =>
    rw [List.map_nil, List.foldlM_nil, pure_eq_ok] at h
    subst h
    simp
  | cons channel rest ih =>
    rw [List.map_cons, List.foldlM_cons, bind_eq_ok] at h
    obtain ⟨l₁, first, later⟩ := h
    obtain ⟨added, present⟩ := ih later
    have kept := (ensureDeliveries_grown later).1.deliveries.subset
    have step : (∀ d ∈ l₁.deliveries, d ∈ l.deliveries ∨ d.eventId = eventId ∧
        d.channel = channel ∧ d.status = .pending ∧ d.attemptCount = 0) ∧
        ∃ d ∈ l₁.deliveries, d.eventId = eventId ∧ d.channel = channel := by
      obtain ⟨name, same, ⟨d, found, rfl⟩ | ⟨-, rfl⟩⟩ := ensureDelivery_ok first
      · obtain rfl := Option.some.inj same
        exact ⟨fun d hd => .inl hd, d, List.mem_of_find?_eq_some found,
          by simpa using List.find?_some found⟩
      · obtain rfl := Option.some.inj same
        simp only [addDelivery, List.mem_append, List.mem_singleton]
        refine ⟨fun d hd => hd.imp_right ?_, _, .inr rfl, rfl, rfl⟩
        rintro rfl
        exact ⟨rfl, rfl, rfl, rfl⟩
    constructor
    · intro d hd
      rcases added d hd with between | ⟨event, named, untried⟩
      · rcases step.1 d between with before | ⟨event, rfl, untried⟩
        · exact .inl before
        · exact .inr ⟨event, List.mem_cons_self, untried⟩
      · exact .inr ⟨event, List.mem_cons_of_mem _ named, untried⟩
    · intro other member
      rcases List.mem_cons.1 member with rfl | member
      · obtain ⟨d, hd, key⟩ := step.2
        exact ⟨d, kept hd, key⟩
      · exact present other member

structure Granted (l : Ledger) (r : Request) (due : Instant) (id : String) (l' : Ledger) : Prop where
  grown : Grown l l'
  course : Course l [] l'
  event : ∃ e ∈ l'.events, e.id = id ∧ e.choreId = r.choreId ∧ e.dueAt = due
  events : ∀ e ∈ l'.events, e ∈ l.events ∨ (¬ l.HasEvent r.choreId due ∧
    e.choreId = r.choreId ∧ e.dueAt = due ∧ e.title = r.title ∧ e.body = r.body)
  deliveries : ∀ d ∈ l'.deliveries, d ∈ l.deliveries ∨
    d.eventId = id ∧ d.channel ∈ r.channels ∧ d.status = .pending ∧ d.attemptCount = 0
  channels : ∀ channel ∈ r.channels, ∃ d ∈ l'.deliveries, d.eventId = id ∧ d.channel = channel

theorem granted_of_ok (meant : r.due.instant? = some due) (h : l.ask r = .ok (id, l')) :
    Granted l r due id l' := by
  obtain ⟨dueInstant, l₁, meant', first, later⟩ := upsert_ok h
  obtain rfl := Option.some.inj (meant.symm.trans meant')
  obtain ⟨grown, sameEvents⟩ := ensureDeliveries_grown later
  obtain ⟨added, present⟩ := ensureDeliveries_ok later
  -- The deliveries that the loop adds to are those of before: the event alone brings none.
  have event : (∃ e ∈ l₁.events, e.id = id ∧ e.choreId = r.choreId ∧ e.dueAt = due) ∧
      l₁.deliveries = l.deliveries ∧ ∀ e ∈ l₁.events, e ∈ l.events ∨ (¬ l.HasEvent r.choreId due ∧
        e.choreId = r.choreId ∧ e.dueAt = due ∧ e.title = r.title ∧ e.body = r.body) := by
    rcases ensureEvent_ok first with ⟨e, found, rfl, rfl⟩ | ⟨fresh, -, rfl, rfl⟩
    · have key : e.choreId = r.choreId ∧ e.dueAt = due := by simpa using List.find?_some found
      exact ⟨⟨e, List.mem_of_find?_eq_some found, rfl, key⟩, rfl, fun e he => .inl he⟩
    · refine ⟨⟨_, List.mem_append_right _ List.mem_cons_self, rfl, rfl, rfl⟩, rfl, fun e he => ?_⟩
      refine (List.mem_append.1 he).imp_right fun new => ?_
      rw [List.mem_singleton.1 new]
      refine ⟨?_, rfl, rfl, rfl, rfl⟩
      rintro ⟨old, member, key⟩
      simpa [key] using List.find?_eq_none.1 fresh old member
  exact {
    grown := (upsert_grown h).1
    course := upsert_course h
    event := sameEvents ▸ event.1
    events := sameEvents ▸ event.2.2
    deliveries := event.2.1 ▸ added
    channels := present }

theorem ask_granted (present : l.choreExists r.choreId = true) (meant : r.due.instant? = some due) :
    ∃ id l', l.ask r = .ok (id, l') ∧ Granted l r due id l' := by
  obtain ⟨id, l', done, -⟩ := upsert_adds r.now present due r.title r.body r.channels
  have asked : l.ask r = .ok (id, l') := (upsert_utc meant ..).trans done
  exact ⟨id, l', asked, granted_of_ok meant asked⟩

/-! ### Keys and channels -/

namespace Granted

theorem hasEvent (g : Granted l r due id l') (meant : r.due.instant? = some due) {choreId : String}
    {t : Instant} : l'.HasEvent choreId t ↔ l.HasEvent choreId t ∨ r.Names choreId t := by
  constructor
  · rintro ⟨e, he, rfl, rfl⟩
    rcases g.events e he with before | ⟨-, chore, at', -⟩
    · exact .inl ⟨e, before, rfl, rfl⟩
    · exact .inr ⟨chore.symm, at' ▸ meant⟩
  · rintro (⟨e, he, key⟩ | ⟨rfl, at'⟩)
    · exact ⟨e, g.grown.events.subset he, key⟩
    · obtain ⟨e, he, -, chore, same⟩ := g.event
      exact ⟨e, he, chore, same.trans (Option.some.inj (meant.symm.trans at'))⟩

theorem hasChannel (g : Granted l r due id l') (meant : r.due.instant? = some due) (sound : Sound l)
    {choreId : String} {t : Instant} {channel : String} :
    l'.HasChannel choreId t channel ↔
      l.HasChannel choreId t channel ∨ r.Names choreId t ∧ channel ∈ r.channels := by
  have sound' := sound.course g.course
  obtain ⟨own, member, named, chore, at'⟩ := g.event
  constructor
  · rintro ⟨e, he, rfl, rfl, d, hd, event, rfl⟩
    rcases g.deliveries d hd with before | ⟨new, listed, -⟩
    · -- A delivery of before has its event among those of before, and ids tell events apart.
      obtain ⟨old, old_mem, same⟩ := sound.deliveryEvent d before
      obtain rfl : old = e :=
        eq_of_key sound'.eventIds (g.grown.events.subset old_mem) he (same.trans event)
      exact .inl ⟨old, old_mem, rfl, rfl, d, before, event, rfl⟩
    · obtain rfl : e = own :=
        eq_of_key sound'.eventIds he member (event.symm.trans (new.trans named.symm))
      exact .inr ⟨⟨chore.symm, at' ▸ meant⟩, listed⟩
  · rintro (⟨e, he, key, same, d, hd, event⟩ | ⟨⟨rfl, same⟩, listed⟩)
    · exact ⟨e, g.grown.events.subset he, key, same, d, g.grown.deliveries.subset hd, event⟩
    · obtain ⟨d, hd, event, rfl⟩ := g.channels channel listed
      exact ⟨own, member, chore, at'.trans (Option.some.inj (meant.symm.trans same)), d, hd,
        event.trans named.symm, rfl⟩

end Granted

/-! ### Requests that find everything there -/

theorem ensureDeliveries_idle {now : Instant} {eventId : String} {channels : List String}
    (there : ∀ channel ∈ channels, ∃ d ∈ l.deliveries, d.eventId = eventId ∧ d.channel = channel) :
    (channels.map some).foldlM (ensureDelivery now eventId) l = .ok l := by
  induction channels with
  | nil => rfl
  | cons channel rest ih =>
    obtain ⟨d, hd, key⟩ := there channel List.mem_cons_self
    have found : (l.deliveryFor? eventId channel).isSome = true :=
      List.find?_isSome.2 ⟨d, hd, decide_eq_true key⟩
    obtain ⟨d', same⟩ := Option.isSome_iff_exists.1 found
    have first : ensureDelivery now eventId l (some channel) = .ok l := by
      simp only [ensureDelivery, same]
    rw [List.map_cons, List.foldlM_cons, first]
    exact ih fun other member => there other (List.mem_cons_of_mem _ member)

theorem Sound.ask_idle (sound : Sound l) (meant : r.due.instant? = some due)
    (event : l.HasEvent r.choreId due)
    (channels : ∀ channel ∈ r.channels, l.HasChannel r.choreId due channel) :
    ∃ id, l.ask r = .ok (id, l) := by
  obtain ⟨e, he, key⟩ := event
  have found : (l.eventFor? r.choreId due).isSome = true :=
    List.find?_isSome.2 ⟨e, he, decide_eq_true key⟩
  obtain ⟨e', same⟩ := Option.isSome_iff_exists.1 found
  have key' : e'.choreId = r.choreId ∧ e'.dueAt = due := by simpa using List.find?_some same
  have first : l.ensureEvent r.now r.choreId due r.title r.body = .ok (e'.id, l) := by
    simp only [ensureEvent, same]
  have others : (r.channels.map some).foldlM (ensureDelivery r.now e'.id) l = .ok l := by
    refine ensureDeliveries_idle fun channel member => ?_
    obtain ⟨own, own_mem, chore, at', d, hd, event, named⟩ := channels channel member
    obtain rfl : own = e' := eq_of_key sound.eventKeys own_mem (List.mem_of_find?_eq_some same)
      (Prod.ext (chore.trans key'.1.symm) (at'.trans key'.2.symm))
    exact ⟨d, hd, event, named⟩
  refine ⟨e'.id, ?_⟩
  simp only [ask, upsert, bind_eq_ok, pure_eq_ok, storable_eq_ok]
  exact ⟨due, meant, (e'.id, l), first, l, others, rfl⟩

end Ledger

end ChoreReminder
