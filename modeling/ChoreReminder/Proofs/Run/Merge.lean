import ChoreReminder.Proofs.Ledger.Request
import ChoreReminder.Proofs.Run.Effect

/-! Requests one after another. What a series of requests leaves behind is the union of what was there
before and of what the requests name: one event for each chore and due instant, told in the words of the
request that created it, and one delivery for each of its channels. The order of the requests has a say in
those words only. A due time outside the calendar is refused and leaves nothing. -/

namespace ChoreReminder

def Request.step (r : Request) : Step :=
  ⟨r.now, .upsert r.choreId r.due r.title r.body (r.channels.map some)⟩

namespace Ledger

variable {l l₁ l' : Ledger} {r : Request} {rs rs' : List Request}

def asked (l : Ledger) (rs : List Request) : Ledger := l.run (rs.map Request.step)

def answers (l : Ledger) : List Request → List (Except LedgerFault String)
  | [] => []
  | r :: rest => ((Store.ofLedger l).write .upsert (·.ask r)).1 :: answers (l.asked [r]) rest

theorem asked_cons (l : Ledger) (r : Request) (rs : List Request) :
    l.asked (r :: rs) = (l.asked [r]).asked rs := rfl

theorem asked_of_ok {id : String} (h : l.ask r = .ok (id, l')) : l.asked [r] = l' := by
  change ((Store.ofLedger l).write .upsert (·.ask r)).2.ledger = l'
  rw [Store.write_ofLedger_ok h]
  rfl

theorem asked_of_error {f : LedgerFault} (h : l.ask r = .error f) : l.asked [r] = l := by
  change ((Store.ofLedger l).write .upsert (·.ask r)).2.ledger = l
  rw [Store.write_ofLedger_error h]
  rfl

theorem asked_grown (l : Ledger) (rs : List Request) : Grown l (l.asked rs) := by
  induction rs generalizing l with
  | nil => exact .refl l
  | cons r rest ih =>
    refine Grown.trans ?_ (ih (l.asked [r]))
    cases h : l.ask r with
    | error f =>
      rw [asked_of_error h]
      exact .refl l
    | ok p =>
      rw [asked_of_ok h]
      exact (upsert_grown h).1

theorem Grown.choreExists (grown : Grown l l') (id : String) :
    l'.choreExists id = l.choreExists id := by
  rw [Ledger.choreExists, grown.chores, Ledger.choreExists]

theorem Sound.asked_idle (sound : Sound l)
    (there : ∀ r ∈ rs, ∃ due, r.due.instant? = some due ∧ l.HasEvent r.choreId due ∧
      ∀ channel ∈ r.channels, l.HasChannel r.choreId due channel) : l.asked rs = l := by
  induction rs with
  | nil => rfl
  | cons r rest ih =>
    obtain ⟨due, meant, event, channels⟩ := there r List.mem_cons_self
    obtain ⟨id, done⟩ := sound.ask_idle meant event channels
    rw [asked_cons, asked_of_ok done]
    exact ih fun r' hr' => there r' (List.mem_cons_of_mem _ hr')

/-! ### What is left behind -/

/-- The ledger holds what was there before and what the requests name, and nothing else. -/
structure Merged (l : Ledger) (rs : List Request) (l' : Ledger) : Prop where
  grown : Grown l l'
  hasEvent : ∀ choreId due,
    l'.HasEvent choreId due ↔ l.HasEvent choreId due ∨ ∃ r ∈ rs, r.Names choreId due
  hasChannel : ∀ choreId due channel, l'.HasChannel choreId due channel ↔
    l.HasChannel choreId due channel ∨ ∃ r ∈ rs, r.Names choreId due ∧ channel ∈ r.channels
  /-- A new event has the words of the first request that names it. -/
  events : ∀ e ∈ l'.events, e ∈ l.events ∨ ¬ l.HasEvent e.choreId e.dueAt ∧
    ∃ r, rs.find? (fun r => r.Names e.choreId e.dueAt) = some r ∧ e.title = r.title ∧ e.body = r.body
  deliveries : ∀ d ∈ l'.deliveries, d ∈ l.deliveries ∨ d.status = .pending ∧ d.attemptCount = 0

namespace Merged

theorem refl (l : Ledger) : Merged l [] l where
  grown := .refl l
  hasEvent := by simp
  hasChannel := by simp
  events := fun e he => .inl he
  deliveries := fun d hd => .inl hd

theorem skipped (past : r.due.instant? = none) (l : Ledger) : Merged l [r] l where
  grown := .refl l
  hasEvent := by simp [Request.Names, past]
  hasChannel := by simp [Request.Names, past]
  events := fun e he => .inl he
  deliveries := fun d hd => .inl hd

theorem granted {due : Instant} {id : String} (meant : r.due.instant? = some due)
    (g : Granted l r due id l') (sound : Sound l) : Merged l [r] l' where
  grown := g.grown
  hasEvent := by simp [g.hasEvent meant]
  hasChannel := by simp [g.hasChannel meant sound]
  events := by
    intro e he
    refine (g.events e he).imp_right ?_
    rintro ⟨fresh, chore, at', words⟩
    have names : r.Names e.choreId e.dueAt := ⟨chore.symm, at' ▸ meant⟩
    exact ⟨by rwa [chore, at'], r, List.find?_cons_of_pos (decide_eq_true names), words⟩
  deliveries := fun d hd => (g.deliveries d hd).imp_right fun new => new.2.2

theorem append (h : Merged l rs l₁) (h' : Merged l₁ rs' l') : Merged l (rs ++ rs') l' where
  grown := h.grown.trans h'.grown
  hasEvent := by
    intro choreId due
    simp only [h'.hasEvent, h.hasEvent, List.mem_append, or_assoc, or_and_right, exists_or]
  hasChannel := by
    intro choreId due channel
    simp only [h'.hasChannel, h.hasChannel, List.mem_append, or_assoc, or_and_right, exists_or]
  events := by
    intro e he
    rcases h'.events e he with between | ⟨fresh, r, named, words⟩
    · refine (h.events e between).imp_right ?_
      rintro ⟨fresh, r, named, words⟩
      exact ⟨fresh, r, by rw [List.find?_append, named, Option.some_or], words⟩
    · -- No request of the first series names it, or it would have been there for the second.
      rw [h.hasEvent, not_or, not_exists] at fresh
      have unnamed : rs.find? (fun r => r.Names e.choreId e.dueAt) = none :=
        List.find?_eq_none.2 fun r hr names => fresh.2 r ⟨hr, of_decide_eq_true names⟩
      exact .inr ⟨fresh.1, r, by rw [List.find?_append, unnamed, Option.none_or, named], words⟩
  deliveries := by
    intro d hd
    rcases h'.deliveries d hd with between | untried
    · exact h.deliveries d between
    · exact .inr untried

end Merged

/-! ### What is answered -/

def Answered (l : Ledger) (r : Request) (answer : Except LedgerFault String) : Prop :=
  match r.due.instant? with
  | none => answer = .error (.overflow .date)
  | some due => ∃ e ∈ l.events, e.choreId = r.choreId ∧ e.dueAt = due ∧ answer = .ok e.id

theorem Answered.grown {answer : Except LedgerFault String} (h : l.Answered r answer)
    (grown : Grown l l') : l'.Answered r answer := by
  unfold Answered at h ⊢
  cases meant : r.due.instant? with
  | none =>
    rw [meant] at h
    exact h
  | some due =>
    rw [meant] at h
    obtain ⟨e, he, key⟩ := h
    exact ⟨e, grown.events.subset he, key⟩

theorem ask_merged (sound : Sound l) (present : l.choreExists r.choreId = true) :
    Sound (l.asked [r]) ∧ Merged l [r] (l.asked [r]) ∧
      (l.asked [r]).Answered r ((Store.ofLedger l).write .upsert (·.ask r)).1 := by
  cases meant : r.due.instant? with
  | none =>
    have refused := ask_error meant l
    rw [asked_of_error refused, Store.write_ofLedger_error refused]
    refine ⟨sound, .skipped meant l, ?_⟩
    simp only [Answered, meant]
  | some due =>
    obtain ⟨id, l', done, g⟩ := ask_granted present meant
    obtain ⟨e, he, named, chore, at'⟩ := g.event
    rw [asked_of_ok done, Store.write_ofLedger_ok done]
    refine ⟨sound.course g.course, .granted meant g sound, ?_⟩
    simp only [Answered, meant]
    exact ⟨e, he, chore, at', congrArg _ named.symm⟩

theorem asked_merged (rs : List Request) (sound : Sound l)
    (present : ∀ r ∈ rs, l.choreExists r.choreId = true) :
    Sound (l.asked rs) ∧ Merged l rs (l.asked rs) ∧
      List.Forall₂ (l.asked rs).Answered rs (l.answers rs) := by
  induction rs generalizing l with
  | nil => exact ⟨sound, .refl l, .nil⟩
  | cons r rest ih =>
    obtain ⟨sound₁, first, answered⟩ := ask_merged sound (present r List.mem_cons_self)
    have present₁ : ∀ r' ∈ rest, (l.asked [r]).choreExists r'.choreId = true := by
      intro r' hr'
      rw [first.grown.choreExists]
      exact present r' (List.mem_cons_of_mem _ hr')
    obtain ⟨sound', later, others⟩ := ih sound₁ present₁
    rw [asked_cons]
    exact ⟨sound', first.append later, .cons (answered.grown later.grown) others⟩

theorem Sound.event_unique (sound : Sound l) {choreId : String} {due : Instant}
    (event : l.HasEvent choreId due) :
    ∃! e, e ∈ l.events ∧ e.choreId = choreId ∧ e.dueAt = due := by
  obtain ⟨e, he, rfl, rfl⟩ := event
  refine ⟨e, ⟨he, rfl, rfl⟩, ?_⟩
  rintro e' ⟨he', chore, at'⟩
  exact eq_of_key sound.eventKeys he' he (Prod.ext chore at')

end Ledger

open Ledger (Answered Merged)

namespace Store

/-- A series of requests for chores that exist merges into the ledger, each event and each delivery once;
requests for one event are answered with one id; and in whatever order the requests come, the events and
their channels are the same. -/
theorem requests_merge (before : List Episode) (rs : List Request)
    (present : ∀ r ∈ rs, ((ofLedger .empty).run before).ledger.choreExists r.choreId = true) :
    let l := ((ofLedger .empty).run before).ledger
    let l' := l.asked rs
    Merged l rs l' ∧
    (∀ choreId due, (l.HasEvent choreId due ∨ ∃ r ∈ rs, r.Names choreId due) →
      ∃! e, e ∈ l'.events ∧ e.choreId = choreId ∧ e.dueAt = due) ∧
    (l'.deliveries.map fun d => (d.eventId, d.channel)).Nodup ∧
    List.Forall₂ l'.Answered rs (l.answers rs) ∧
    ∀ rs', rs.Perm rs' →
      (∀ choreId due, (l.asked rs').HasEvent choreId due ↔ l'.HasEvent choreId due) ∧
      ∀ choreId due channel,
        (l.asked rs').HasChannel choreId due channel ↔ l'.HasChannel choreId due channel := by
  intro l l'
  have sound : l.Sound := run_sound before
  obtain ⟨sound', merged, answered⟩ := Ledger.asked_merged rs sound present
  refine ⟨merged, ?_, sound'.deliveryKeys, answered, fun rs' perm => ?_⟩
  · intro choreId due named
    exact sound'.event_unique ((merged.hasEvent choreId due).2 named)
  · obtain ⟨-, merged', -⟩ :=
      Ledger.asked_merged rs' sound fun r hr => present r (perm.mem_iff.2 hr)
    constructor
    · intro choreId due
      simp only [merged'.hasEvent, l', merged.hasEvent, perm.mem_iff]
    · intro choreId due channel
      simp only [merged'.hasChannel, l', merged.hasChannel, perm.mem_iff]

/-- An event that is asked for again with an offset and then without one, in other words and for further
channels, and another one that is new. -/
theorem requests_merge_aliases :
    let hour (n : Nat) (h : n * Calendar.hour < Calendar.limit := by decide) : Instant :=
      ⟨n * Calendar.hour, h⟩
    let id := rowId "c0000000" 1
    let before : List Episode := [
      .step ⟨hour 1, .createChore "Plants" .onceInAWhile none none⟩,
      .step ⟨hour 2, .upsert id (.utc (hour 10)) "Plants" "Due" [some "console"]⟩]
    let rs : List Request := [
      ⟨hour 3, id, ⟨hour 12, some (2 * Calendar.hour)⟩, "Flowers", "Late", ["telegram", "telegram"]⟩,
      ⟨hour 4, id, ⟨hour 20, none⟩, "Trees", "Due", []⟩,
      ⟨hour 3, id, ⟨hour 10, none⟩, "Grass", "Later", ["console", "email"]⟩]
    let l := ((ofLedger .empty).run before).ledger
    (∀ r ∈ rs, l.choreExists r.choreId = true) ∧
    (∃! e, e ∈ (l.asked rs).events ∧ e.choreId = id ∧ e.dueAt = hour 10) ∧
    (l.asked rs).HasChannel id (hour 10) "email" ∧
    (l.asked rs.reverse).HasChannel id (hour 10) "email" ∧
    l.answers rs = [.ok (rowId "e0000000" 1), .ok (rowId "e0000000" 2), .ok (rowId "e0000000" 1)] := by
  intro hour id before rs l
  have present : ∀ r ∈ rs, l.choreExists r.choreId = true := by decide +kernel
  obtain ⟨merged, unique, -, -, order⟩ := requests_merge before rs present
  have named : ∃ r ∈ rs, r.Names id (hour 10) ∧ "email" ∈ r.channels := by decide +kernel
  obtain ⟨r, hr, names, listed⟩ := named
  have channel : (l.asked rs).HasChannel id (hour 10) "email" :=
    (merged.hasChannel ..).2 (.inr ⟨r, hr, names, listed⟩)
  exact ⟨present, unique id (hour 10) (.inr ⟨r, hr, names⟩), channel,
    ((order _ rs.reverse_perm.symm).2 ..).2 channel, by decide +kernel⟩

/-- An hour west of universal time, the last hour of the calendar has no event. -/
theorem unmet_request_last_hour :
    let id := rowId "c0000000" 1
    let now : Instant := ⟨9 * Calendar.hour, by decide⟩
    let due : Stamp := ⟨⟨Calendar.limit - 30 * Calendar.minute, by decide⟩, some (-Calendar.hour)⟩
    let r : Request := ⟨now, id, due, "Plants", "Due", ["telegram"]⟩
    let l := ((ofLedger .empty).run [.step ⟨now, .createChore "Plants" .onceInAWhile none none⟩]).ledger
    l.choreExists id = true ∧ l.answers [r] = [.error (.overflow .date)] ∧
      ¬ ∃ e ∈ (l.asked [r]).events, e.choreId = id := by
  decide +kernel

end Store

end ChoreReminder
