import ChoreReminder.Proofs.Run.Integrity
import ChoreReminder.Proofs.Telegram.Breakdown

/-! The removal of a chore. It takes all rows with it that belong to the chore, and an id is given out once;
so nothing of the chore is ever seen again, whatever follows. What is asked for it later on is refused and
leaves the ledger alone, and a press of one of its old buttons is told so. -/

namespace ChoreReminder

namespace Ledger

variable {l l' : Ledger} {id : String} {now : Instant}

/-- No chore has the id, and none will be given it. -/
structure Absent (l : Ledger) (id : String) : Prop where
  gone : ∀ r ∈ l.chores, r.id ≠ id
  never : ∀ n, l.ids.chores < n → rowId "c0000000" n ≠ id

structure Without (l : Ledger) (id : String) : Prop where
  chore : ∀ r ∈ l.chores, r.id ≠ id
  completion : ∀ c ∈ l.completions, c.choreId ≠ id
  event : ∀ e ∈ l.events, e.choreId ≠ id
  delivery : ∀ d ∈ l.deliveries, ∃ e ∈ l.events, e.id = d.eventId ∧ e.choreId ≠ id

theorem ChoreGone.absent (g : ChoreGone l id) : Absent l id := by
  refine ⟨g.gone, fun n next same => ?_⟩
  obtain ⟨k, hk, rfl⟩ := g.issued
  have := rowId_inj.1 same
  omega

theorem Sound.absent_deleteChore (s : Sound l)
    (fresh : l.choreExists id = false → ∀ n, l.ids.chores < n → rowId "c0000000" n ≠ id) :
    Absent (l.deleteChore id).2 id := by
  cases present : l.choreExists id with
  | true => exact (s.chore_gone (choreExists_iff.1 present)).absent
  | false =>
    refine ⟨fun r hr same => ?_, fresh present⟩
    have stays := (List.mem_filter.1 hr).2
    simp [same] at stays

namespace Absent

theorem change (h : Change l l') (a : Absent l id) : Absent l' id := by
  obtain ⟨count, rows⟩ := h.chore_next
  refine ⟨fun r hr same => ?_, fun n next => a.never n (Nat.lt_of_le_of_lt count next)⟩
  rcases rows r hr with ⟨old, member, before⟩ | new
  · exact a.gone old member (before.trans same)
  · exact a.never _ (Nat.lt_succ_self _) (new.symm.trans same)

theorem course {ms : List Mark} (h : Course l ms l') (a : Absent l id) : Absent l' id :=
  h.preserves change (fun m a => by rw [mark_ledger]; exact ⟨a.gone, a.never⟩) a

theorem choreExists (a : Absent l id) : l.choreExists id = false := by
  rw [← Bool.not_eq_true, choreExists_iff]
  rintro ⟨r, hr, same⟩
  exact a.gone r hr same

theorem without (a : Absent l id) (s : Sound l) : Without l id := by
  have event : ∀ e ∈ l.events, e.choreId ≠ id := by
    intro e he own
    obtain ⟨r, hr, chore⟩ := s.eventChore e he
    exact a.gone r hr (chore.trans own)
  refine ⟨a.gone, fun c hc own => ?_, event, fun d hd => ?_⟩
  · obtain ⟨r, hr, chore⟩ := s.completionChore c hc
    exact a.gone r hr (chore.trans own)
  · obtain ⟨e, he, same⟩ := s.deliveryEvent d hd
    exact ⟨e, he, same, event e he⟩

/-! ### What is asked for the chore -/

theorem complete (a : Absent l id) (completedAt : Option Stamp) (notes : Option String) :
    ∃ f, l.complete now id completedAt notes = .error f := by
  cases done : l.complete now id completedAt notes with
  | error f => exact ⟨f, rfl⟩
  | ok r =>
    obtain ⟨present, -⟩ := complete_ok done
    rw [a.choreExists] at present
    cases present

theorem upsert (a : Absent l id) (s : Sound l) (due : Stamp) (title body : String)
    (channels : List (Option String)) : ∃ f, l.upsert now id due title body channels = .error f := by
  cases done : l.upsert now id due title body channels with
  | error f => exact ⟨f, rfl⟩
  | ok r =>
    obtain ⟨i, l₁, -, ensured, -⟩ := upsert_ok done
    rcases ensureEvent_ok ensured with ⟨e, found, -, -⟩ | ⟨-, present, -, -⟩
    · have own : e.choreId = id := (by simpa using List.find?_some found : _ ∧ _).1
      exact absurd own ((a.without s).event e (List.mem_of_find?_eq_some found))
    · rw [a.choreExists] at present
      cases present

theorem completionExists (a : Absent l id) (s : Sound l) (t : Instant) :
    l.completionExists id (some (.utc t)) = .ok false := by
  have none : l.completions.filter (·.choreId = id) = [] := by
    simpa using (a.without s).completion
  rw [Ledger.completionExists, storable_eq_ok.2 (Stamp.instant?_utc t), none]
  rfl

theorem pending (a : Absent l id) (s : Sound l) {limit maxAttempts : Int} {ps : List PendingDelivery}
    (found : l.pending limit maxAttempts = .ok ps) : ∀ p ∈ ps, p.choreId ≠ id := by
  intro p hp own
  obtain ⟨d, hd, joined, -⟩ := (pending_ok found).1 p hp
  obtain ⟨-, e, he, -, -, key⟩ := joined?_eq_some joined
  exact (a.without s).event e he ((congrArg Prod.fst key).symm.trans own)

end Absent

end Ledger

open Ledger (Absent Sound)

namespace Store

variable {s : Store} {id : String}

def Refused {α : Type} (s : Store) (r : Except LedgerFault α × Store) : Prop :=
  (∃ f, r.1 = .error f) ∧ r.2.ledger = s.ledger

theorem write_refused {α : Type} {f : Ledger → Except LedgerFault (α × Ledger)}
    (fails : ∃ e, f s.ledger = .error e) (call : Call) : s.Refused (s.write call f) := by
  rcases s.write_cases call f with failed | ⟨a, -, done⟩
  · exact failed
  · obtain ⟨e, failed⟩ := fails
    rw [failed] at done
    cases done

end Store

namespace Press

variable {s : Store} {id : String} {now : Instant} {sent : Option Instant} {query message : Datum} {d : Desk}

structure Names (query : Datum) (id : String) (sent : Option Instant) : Prop where
  data : ∃ data, member query "data" = .ok data ∧ choreIdOf data = .ok (.ok id)
  moment : moment (orEmpty (query.get "message")) = .ok sent

theorem record_refused_unsent (a : Absent s.ledger id) (now : Instant) :
    s.Refused (record now id none s) := by
  have refused : s.Refused (s.write .complete fun l => l.complete now id none (some notes)) :=
    Store.write_refused (a.complete none (some notes)) .complete
  unfold record
  dsimp only
  generalize s.write .complete _ = w at refused ⊢
  obtain ⟨⟨f, failed⟩, same⟩ := refused
  obtain ⟨_, s'⟩ := w
  obtain rfl := failed
  exact ⟨⟨f, rfl⟩, same⟩

theorem record_refused (a : Absent s.ledger id) (sound : Sound s.ledger) (now : Instant)
    (sent : Option Instant) : s.Refused (record now id sent s) := by
  cases sent with
  | none => exact record_refused_unsent a now
  | some t =>
    obtain ⟨same, read⟩ := s.read_cases .completionExists fun l => l.completionExists id (some (.utc t))
    rw [a.completionExists sound t] at read
    unfold record
    dsimp only
    generalize s.read .completionExists _ = r at same read ⊢
    obtain ⟨f | found, s'⟩ := r
    · exact ⟨⟨f, rfl⟩, same⟩
    -- No completion of the chore is found, so the call that completes it is made as well.
    · obtain rfl : found = false := by simpa using read
      obtain ⟨failed, kept⟩ := record_refused_unsent (s := s') (same ▸ a) now
      exact ⟨failed, kept.trans same⟩

theorem markDone_failed (c : TelegramChannel) (meant : moment message = .ok sent)
    (failed : ∃ f, (record now id sent d.store).1 = .error f) :
    (markDone c now id message d).1 = .ok .failed ∧ (markDone c now id message d).2.wire = d.wire := by
  unfold markDone
  rw [meant]
  dsimp only
  generalize record now id sent d.store = r at failed
  obtain ⟨f | reply, store⟩ := r
  · cases f <;> exact ⟨rfl, rfl⟩
  · obtain ⟨f, failed⟩ := failed
    cases failed

/-- A press comes to nothing: it is answered as one that failed, whatever the wire does, and the ledger is left
alone. The answer is also handed back, unless the id of the press cannot be sent or the transport breaks down. -/
structure TurnedDown (c : TelegramChannel) (now : Instant) (query : Datum) (d : Desk) : Prop where
  decided : (act c now query d).1 = .ok .failed
  ledger : (handle c now query d).2.store.ledger = d.store.ledger
  requests : (handle c now query d).2.wire.requests = d.wire.requests ++
    if (query.get "id").isTruthy && (query.get "id").isSendable then [answering c query .failed] else []
  told : (handle c now query d).1 = .ok .failed ↔
    ((query.get "id").isTruthy = true → (query.get "id").isSendable = true ∧ ¬ d.wire.Breaks)

theorem turnedDown (a : Absent d.store.ledger id) (sound : Sound d.store.ledger)
    (named : Names query id sent) (c : TelegramChannel) (now : Instant) : TurnedDown c now query d := by
  obtain ⟨data, given, asked⟩ := named.data
  have acted := act_of_asked c now given asked d
  obtain ⟨failed, kept⟩ := record_refused a sound now sent
  obtain ⟨reply, wire⟩ := markDone_failed c named.moment failed
  have store := markDone_recorded c now named.moment id d
  rw [← acted] at reply wire store
  obtain ⟨f, broken, -⟩ | ⟨reply', ok, answered⟩ := handle_cases c now query d
  · cases broken.symm.trans reply
  · obtain rfl := Except.ok.inj (ok.symm.trans reply)
    refine ⟨reply, ?_, ?_, ?_⟩
    · rw [handle_store, store, kept]
    · rw [answered, answer_requests, wire]
    · rw [answered, answer_ok_iff, wire]
      simp

end Press

open Press (Names TurnedDown)

namespace Store

/-- A chore that was removed is gone for good, whatever follows and whichever calls fail: no row belongs to
it or to one of its events, completing it or asking for an event of it is refused, a tick attempts nothing of
it, and a press for it is turned down. Only an id that is still to be given out may be met again. -/
theorem removed_for_good (before later : List Episode) {id : String} {found : Bool} {s : Store}
    (removed : ((ofLedger .empty).run before).write .deleteChore (fun l => .ok (l.deleteChore id)) =
      (.ok found, s))
    (fresh : ((ofLedger .empty).run before).ledger.choreExists id = false →
      ∀ n, ((ofLedger .empty).run before).ledger.ids.chores < n → rowId "c0000000" n ≠ id) :
    let past := ((ofLedger .empty).run before).ledger
    let s' := s.run later
    s'.ledger.Without id ∧
    (∀ e ∈ past.events, e.choreId = id → ∀ d ∈ s'.ledger.deliveries, d.eventId ≠ e.id) ∧
    (∀ now completedAt notes, s'.Refused (s'.write .complete fun l => l.complete now id completedAt notes)) ∧
    (∀ now due title body channels,
      s'.Refused (s'.write .upsert fun l => l.upsert now id due title body channels)) ∧
    (∀ (crew : Crew) now batchSize maxAttempts,
      ∀ a ∈ (Dispatcher.tick crew.send crew.registry now batchSize maxAttempts s' crew.state).attempts,
        a.delivery.choreId ≠ id) ∧
    ∀ query sent, Names query id sent → ∀ c now wire notices, TurnedDown c now query ⟨s', wire, notices⟩ := by
  intro past s'
  have first : Sound past := run_sound before
  obtain ⟨-, left⟩ := Prod.mk.inj (Except.ok.inj (write_eq_ok removed))
  obtain ⟨ms, course⟩ := s.run_course later
  rw [← left] at course
  have sound : Sound s'.ledger := (first.deleteChore id).course course
  have a : Absent s'.ledger id := (first.absent_deleteChore fresh).course course
  have nothing := a.without sound
  refine ⟨nothing, ?_, ?_, ?_, ?_, ?_⟩
  · intro e he own d hd same
    -- The delivery has an event of another chore, and under an old id there is only the old event.
    obtain ⟨e', he', event, other⟩ := nothing.delivery d hd
    have whole := (Ledger.Course.single (.deleteChore past id)).append course
    obtain rfl := first.event_unchanged whole he he' (event.trans same)
    exact other own
  · exact fun now completedAt notes => write_refused (a.complete completedAt notes) _
  · exact fun now due title body channels => write_refused (a.upsert sound due title body channels) _
  · intro crew now batchSize maxAttempts attempt tried
    obtain ⟨ps, pending, listed⟩ :=
      Dispatcher.tick_attempts crew.send crew.registry now maxAttempts batchSize s' crew.state attempt tried
    exact a.pending sound pending _ listed
  · intro query sent named c now wire notices
    exact Press.turnedDown (d := ⟨s', wire, notices⟩) a sound named c now

/-- A chore with an event is removed; another chore is created, and the first one is completed, asked for
and pressed again. -/
theorem removed_for_good_pressed :
    let hour (n : Nat) (h : n * Calendar.hour < Calendar.limit := by decide) : Instant :=
      ⟨n * Calendar.hour, h⟩
    let id := rowId "c0000000" 1
    let ask : Episode := .step ⟨hour 240, .upsert id (.utc (hour 239)) "Plants" "Due" [some "telegram"]⟩
    let create (name : String) : Episode := .step ⟨hour 240, .createChore name .onceInAWhile none none⟩
    let query := Datum.obj [("id", .str "cb1"), ("data", .str (TelegramChannel.buttonData id)),
      ("message", .obj [("date", .int 1704103200)])]
    let c : TelegramChannel := ⟨"", 1, 1000⟩
    let s := ((ofLedger .empty).run [create "Plants", ask]).write .deleteChore fun l => .ok (l.deleteChore id)
    let later : List Episode := [create "Windows", .step ⟨hour 241, .complete id none none⟩, ask,
      .step ⟨hour 241, .press c query .idle⟩]
    let s' := s.2.run later
    s.1 = .ok true ∧ Names query id (some (hour 17733250)) ∧ s'.ledger.Without id ∧
      (Press.handle c (hour 242) query ⟨s', .idle, []⟩).1 = .ok .failed := by
  intro hour id ask create query c s later s'
  have ok : s.1 = .ok true := by decide +kernel
  have removed : s = (.ok true, s.2) := by rw [← ok]
  have present : ((ofLedger .empty).run [create "Plants", ask]).ledger.choreExists id = true := by
    decide +kernel
  have named : Names query id (some (hour 17733250)) :=
    ⟨⟨.str (TelegramChannel.buttonData id), rfl, by decide +kernel⟩, by decide +kernel⟩
  obtain ⟨nothing, -, -, -, -, presses⟩ :=
    removed_for_good [create "Plants", ask] later removed fun absent => by
      rw [present] at absent
      cases absent
  have turned := presses query _ named c (hour 242) .idle []
  exact ⟨ok, named, nothing, turned.told.2 fun _ => ⟨by decide +kernel, nofun⟩⟩

end Store

end ChoreReminder
