import ChoreReminder.Proofs.Run.Presses
import ChoreReminder.Proofs.Telegram.Keyboard

/-! The way of a button. What is posted about a delivery carries the id of its chore, and this id comes back
when the button is pressed: the press is for the chore of the delivery, and completes this chore once unless
a completion since the message is found. -/

namespace ChoreReminder

theorem Ledger.Sound.isUuid_chores {l : Ledger} (s : Sound l) (few : l.ids.chores < 10 ^ 12) :
    ∀ r ∈ l.chores, Text.IsUuid r.id :=
  fun r hr => (s.choresIssued r hr).isUuid few

open Ledger (Kept Sound CompletedBy)

namespace Press

variable {l : Ledger} {id : String} {c : TelegramChannel} {now : Instant} {query : Datum}

/-- No duplicate is detected: the moment of the message can be told if it has one, and no completion of the
chore at or after it is found. -/
def SeesNone (l : Ledger) (id : String) (query : Datum) : Prop :=
  ∃ sent, moment (orEmpty (query.get "message")) = .ok sent ∧
    ∀ t, sent = some t → l.completionExists id (some (.utc t)) = .ok false

theorem asked_counts (k : Kept l) {data : Datum} (given : member query "data" = .ok data)
    (asked : choreIdOf data = .ok (.ok id)) (present : l.choreExists id = true) (c : TelegramChannel)
    (now : Instant) (wire : Wire) (notices : List Notice) :
    (SeesNone l id query →
      CompletedBy l id [now] (handle c now query ⟨.ofLedger l, wire, notices⟩).2.store.ledger) ∧
    (¬ SeesNone l id query → (handle c now query ⟨.ofLedger l, wire, notices⟩).2.store.ledger = l) := by
  rw [handle_store, act_of_asked c now given asked]
  cases meant : moment (orEmpty (query.get "message")) with
  | error f =>
    constructor
    · rintro ⟨sent, told, -⟩
      cases meant.symm.trans told
    · intro _
      simp only [markDone, meant]
      rfl
  | ok sent =>
    rw [markDone_recorded c now meant]
    constructor
    · rintro ⟨sent', told, unseen⟩
      obtain rfl := Except.ok.inj (meant.symm.trans told)
      have clock : ((none : Option Stamp).getD (.utc now)).instant? = some now := Stamp.instant?_utc now
      obtain ⟨completion, l', done, -⟩ := Ledger.complete_recorded present clock (some notes)
      rw [record_unseen unseen done]
      exact .complete done
    · intro seen
      cases sent with
      | none => exact absurd ⟨none, meant, by simp⟩ seen
      | some t =>
        obtain ⟨found, looked, told⟩ := k.completionExists_since id t
        cases found with
        | true =>
          rw [record_again k (told.1 rfl)]
          rfl
        | false =>
          refine absurd ⟨some t, meant, fun t' same => ?_⟩ seen
          exact Option.some.inj same ▸ looked

end Press

open Press (SeesNone)
open TelegramChannel (buttonData)

namespace Store

/-- Each message that a tick posts is about a delivery that exists, and has one button. Whoever presses it names
the chore of the delivery; and as long as the chore exists, whatever happened since, the press completes this
chore once, and nothing else changes, if no duplicate is detected. The data of two buttons are the same
exactly if the chores are. -/
theorem button_leads_back {β σ : Type} (other : β → PendingDelivery → σ → Except SendFault Unit × σ)
    (registry : Registry (TelegramChannel ⊕ β)) (episodes : List Episode) (now : Instant)
    (batchSize maxAttempts : Int) (wire : Wire) (state : σ)
    (uuids : ∀ r ∈ ((ofLedger .empty).run episodes).ledger.chores, Text.IsUuid r.id) :
    let s := (ofLedger .empty).run episodes
    let d := Dispatcher.tick (Dispatcher.sendEither other) registry now batchSize maxAttempts s (wire, state)
    let posted := Dispatcher.posted registry (d.attempts.map (·.delivery))
    d.senders.1.requests = wire.requests ++ posted.map (fun (c, p) => c.sendRequest p) ∧
    (∀ c p, (c, p) ∈ posted → s.ledger.Holds p ∧ ∃ data, (c.sendRequest p).buttons = [data] ∧
      ∀ query, Press.member query "data" = .ok data → Press.named? query = some p.choreId ∧
        ∀ later : List Episode, (d.store.run later).ledger.choreExists p.choreId = true →
          ∀ (c' : TelegramChannel) (clock : Instant) (wire' : Wire) (notices : List Notice),
            let l := (d.store.run later).ledger
            let l' := (Press.handle c' clock query ⟨.ofLedger l, wire', notices⟩).2.store.ledger
            (SeesNone l p.choreId query → CompletedBy l p.choreId [clock] l') ∧
            (¬ SeesNone l p.choreId query → l' = l)) ∧
    ∀ (c c' : TelegramChannel) (p p' : PendingDelivery),
      (c.sendRequest p).buttons = (c'.sendRequest p').buttons ↔ p.choreId = p'.choreId := by
  intro s d posted
  refine ⟨Dispatcher.tick_requests other registry now maxAttempts batchSize s (wire, state), ?_, ?_⟩
  · intro c p member
    have holds : s.ledger.Holds p := by
      obtain ⟨a, ha, rfl⟩ := List.mem_map.1 (Dispatcher.mem_posted registry |>.1 member).1
      obtain ⟨ps, pending, listed⟩ := Dispatcher.tick_attempts _ registry now maxAttempts batchSize s _ a ha
      exact Ledger.pending_holds pending listed
    obtain ⟨r, hr, own⟩ := (run_sound episodes).holds_chore holds
    have uuid : Text.IsUuid p.choreId := own ▸ uuids r hr
    refine ⟨holds, .str (buttonData p.choreId), TelegramChannel.buttons_sendRequest c p, ?_⟩
    intro query given
    refine ⟨Press.named?_of_button uuid given, fun later present c' clock wire' notices => ?_⟩
    let tick : Episode := .step ⟨now, .dispatch ⟨_, _, registry, Dispatcher.sendEither other, (wire, state)⟩
      batchSize maxAttempts⟩
    obtain ⟨ms, course⟩ := s.run_course (tick :: later)
    have kept : Kept (d.store.run later).ledger := (run_kept episodes).course course
    exact Press.asked_counts kept given (Press.choreIdOf_buttonData uuid) present c' clock wire' notices
  · intro c c' p p'
    rw [TelegramChannel.buttons_sendRequest, TelegramChannel.buttons_sendRequest]
    simp [TelegramChannel.buttonData_inj]

/-- The message about a chore is posted, and its button is pressed. -/
theorem button_leads_back_pressed :
    let hour (n : Nat) (h : n * Calendar.hour < Calendar.limit := by decide) : Instant :=
      ⟨n * Calendar.hour, h⟩
    let id := rowId "c0000000" 1
    let c : TelegramChannel := ⟨"", 1, 1000⟩
    let registry : Registry (TelegramChannel ⊕ Empty) := ⟨[("telegram", .inl c)]⟩
    let other : Empty → PendingDelivery → Unit → Except SendFault Unit × Unit := nofun
    let episodes : List Episode := [.step ⟨hour 240, .createChore "Plants" .onceInAWhile none none⟩,
      .step ⟨hour 240, .upsert id (.utc (hour 239)) "Plants" "Due" [some "telegram"]⟩]
    let s := (ofLedger .empty).run episodes
    let d := Dispatcher.tick (Dispatcher.sendEither other) registry (hour 241) 10 3 s (.idle, ())
    let query := Datum.obj [("data", .str (buttonData id)), ("message", .obj [("date", .int 1704103200)])]
    let l := d.store.ledger
    let l' := (Press.handle c (hour 242) query ⟨.ofLedger l, .idle, []⟩).2.store.ledger
    (∀ r ∈ s.ledger.chores, Text.IsUuid r.id) ∧ d.senders.1.requests.length = 1 ∧
      Press.named? query = some id ∧ SeesNone l id query ∧ CompletedBy l id [hour 242] l' := by
  intro hour id c registry other episodes s d query l l'
  have uuids : ∀ r ∈ s.ledger.chores, Text.IsUuid r.id := (run_sound episodes).isUuid_chores (by decide +kernel)
  obtain ⟨-, follows, -⟩ := button_leads_back other registry episodes (hour 241) 10 3 .idle () uuids
  have one : (Dispatcher.posted registry (d.attempts.map (·.delivery))).map (fun (c, p) => (c, p.choreId)) =
      [(c, id)] := by decide +kernel
  have posted : d.senders.1.requests.length = 1 := by decide +kernel
  obtain ⟨⟨c', p⟩, member, same⟩ := List.mem_map.1 (one ▸ List.mem_singleton_self (c, id))
  obtain ⟨rfl, own⟩ := Prod.mk.inj same
  obtain ⟨-, data, buttons, pressed⟩ := follows c p member
  have given : Press.member query "data" = .ok data := by
    rw [TelegramChannel.buttons_sendRequest, List.singleton_inj] at buttons
    rw [← buttons, own]
    rfl
  obtain ⟨named, counts⟩ := pressed query given
  rw [own] at named counts
  have fresh : SeesNone l id query := by
    refine ⟨some (hour 17733250), by decide +kernel, fun t told => ?_⟩
    obtain rfl := Option.some.inj told
    decide +kernel
  have present : l.choreExists id = true := by decide +kernel
  exact ⟨uuids, posted, named, fresh, (counts [] present c (hour 242) .idle []).1 fresh⟩

end Store

end ChoreReminder
