import ChoreReminder.Notify.Dispatcher
import ChoreReminder.Proofs.Ledger.Change
import ChoreReminder.Proofs.Ledger.Store
import ChoreReminder.Proofs.Text.Halved

/-! What a tick of the dispatcher does to a store. It attempts the deliveries that were pending at its start,
each once and in their order, and marks each with the outcome of its attempt, as far as the store can be
reached and the outcome can be stored: a failure whose reason has no stored form leaves no mark. -/

namespace ChoreReminder

namespace Attempt

def mark? (now : Instant) (a : Attempt) : Option Mark :=
  match a.outcome with
  | .delivered => some ⟨a.delivery.deliveryId, now, none⟩
  | .failed fault => fault.reason.whole?.map fun reason => ⟨a.delivery.deliveryId, now, some reason⟩
  | .unroutable => some ⟨a.delivery.deliveryId, now, some (Dispatcher.noSenderReason a.delivery.channel)⟩

def isNotable (a : Attempt) : Bool :=
  match a.outcome with
  | .failed fault => fault.reason.isWhole
  | _ => true

def note (now : Instant) (a : Attempt) (l : Ledger) : Except LedgerFault (Bool × Ledger) :=
  match a.outcome with
  | .delivered => .ok (l.markDelivered now a.delivery.deliveryId)
  | .failed fault => l.noteFailed now a.delivery.deliveryId fault.reason
  | .unroutable => l.noteFailed now a.delivery.deliveryId (Dispatcher.noSenderReason a.delivery.channel)

def call (a : Attempt) : Call :=
  match a.outcome with
  | .delivered => .markDelivered
  | _ => .markFailed

theorem mark?_isSome (now : Instant) (a : Attempt) : (a.mark? now).isSome = a.isNotable := by
  obtain ⟨p, outcome⟩ := a
  cases outcome <;> simp [mark?, isNotable]

theorem mark?_deliveryId {now : Instant} {a : Attempt} {m : Mark} (marked : a.mark? now = some m) :
    m.deliveryId = a.delivery.deliveryId := by
  obtain ⟨p, _ | fault | _⟩ := a
  · cases marked
    rfl
  · obtain ⟨reason, -, rfl⟩ := Option.map_eq_some_iff.1 marked
    rfl
  · cases marked
    rfl

theorem map_marks {β : Type} {now : Instant} {ofMark : Mark → β} {ofAttempt : Attempt → β}
    (agree : ∀ a m, a.mark? now = some m → ofMark m = ofAttempt a) (as : List Attempt) :
    (as.filterMap (·.mark? now)).map ofMark = (as.filter (·.isNotable)).map ofAttempt := by
  induction as with
  | nil => rfl
  | cons a rest ih =>
    have notable := a.mark?_isSome now
    cases marked : a.mark? now with
    | none => simp [← notable, marked, ih]
    | some m => simp [← notable, marked, ih, agree a m marked]

theorem marks_nodup {as : List Attempt} (once : (as.map (·.delivery.deliveryId)).Nodup) (now : Instant) :
    ((as.filterMap (·.mark? now)).map (·.deliveryId)).Nodup := by
  rw [map_marks fun _ _ => mark?_deliveryId]
  exact once.sublist (List.filter_sublist.map _)

theorem note_eq (now : Instant) (a : Attempt) (l : Ledger) :
    (∃ m, a.mark? now = some m ∧ a.note now l = .ok (l.mark m)) ∨
    (a.mark? now = none ∧ ∃ f, a.note now l = .error f) := by
  obtain ⟨p, _ | fault | _⟩ := a
  · exact .inl ⟨_, rfl, rfl⟩
  · simp only [mark?, note, Ledger.noteFailed]
    cases fault.reason with
    | whole reason => exact .inl ⟨_, rfl, rfl⟩
    | halved t => exact .inr ⟨rfl, _, rfl⟩
  · exact .inl ⟨_, rfl, rfl⟩

end Attempt

namespace Ledger

def noted (now : Instant) (l : Ledger) (a : Attempt) : Ledger :=
  match a.mark? now with
  | some m => (l.mark m).2
  | none => l

theorem foldl_noted (now : Instant) (as : List Attempt) (l : Ledger) :
    as.foldl (noted now) l = (as.filterMap (·.mark? now)).foldl (fun l m => (l.mark m).2) l := by
  induction as generalizing l with
  | nil => rfl
  | cons a rest ih =>
    rw [List.foldl_cons, ih, List.filterMap_cons, noted]
    cases a.mark? now <;> rfl

end Ledger

namespace Dispatcher

variable {α σ : Type} (send : α → PendingDelivery → σ → Except SendFault Unit × σ)
  (registry : Registry α) (now : Instant) (maxAttempts : Int)

theorem recordFailure_write (id : String) (reason : LooseText) (d : Dispatched σ) :
    (recordFailure now id reason d).attempts = d.attempts ∧
      (recordFailure now id reason d).store =
        (d.store.write .markFailed fun l => l.noteFailed now id reason).2 := by
  unfold recordFailure
  split <;> next written => exact ⟨rfl, (congrArg Prod.snd written).symm⟩

theorem recordSuccess_write (id : String) (d : Dispatched σ) :
    (recordSuccess now id d).attempts = d.attempts ∧
      (recordSuccess now id d).store =
        (d.store.write .markDelivered fun l => .ok (l.markDelivered now id)).2 := by
  unfold recordSuccess
  split <;> next written => exact ⟨rfl, (congrArg Prod.snd written).symm⟩

theorem recordFailure_senders (id : String) (reason : LooseText) (d : Dispatched σ) :
    (recordFailure now id reason d).senders = d.senders := by
  unfold recordFailure
  split <;> rfl

theorem recordSuccess_senders (id : String) (d : Dispatched σ) :
    (recordSuccess now id d).senders = d.senders := by
  unfold recordSuccess
  split <;> rfl

def outcomeOf (p : PendingDelivery) (senders : σ) : Outcome × σ :=
  match registry.get? p.channel with
  | none => (.unroutable, senders)
  | some sender =>
    match send sender p senders with
    | (.ok (), senders) => (.delivered, senders)
    | (.error f, senders) => (.failed f, senders)

def settle (s : Store) (a : Attempt) : Store := (s.write a.call (a.note now)).2

theorem settle_ofLedger (l : Ledger) (a : Attempt) : settle now (.ofLedger l) a = .ofLedger (l.noted now a) := by
  rcases a.note_eq now l with ⟨m, marked, done⟩ | ⟨unmarked, f, failed⟩
  · have done : a.note now l = .ok ((l.mark m).1, (l.mark m).2) := done
    rw [settle, Store.write_ofLedger_ok done, Ledger.noted, marked]
  · rw [settle, Store.write_ofLedger_error failed, Ledger.noted, unmarked]

theorem foldl_settle_ofLedger (as : List Attempt) (l : Ledger) :
    as.foldl (settle now) (.ofLedger l) =
      .ofLedger ((as.filterMap (·.mark? now)).foldl (fun l m => (l.mark m).2) l) := by
  rw [← Ledger.foldl_noted]
  induction as generalizing l with
  | nil => rfl
  | cons a rest ih => rw [List.foldl_cons, settle_ofLedger, ih, List.foldl_cons]

theorem attempt_eq (d : Dispatched σ) (p : PendingDelivery) :
    let r := outcomeOf send registry p d.senders
    let d' := attempt send registry now maxAttempts d p
    d'.attempts = d.attempts ++ [⟨p, r.1⟩] ∧ d'.senders = r.2 ∧ d'.store = settle now d.store ⟨p, r.1⟩ := by
  unfold attempt outcomeOf
  cases registry.get? p.channel with
  | none =>
    let tried := (d.tried p .unroutable).note (.unroutable p.channel p.deliveryId)
    obtain ⟨attempts, store⟩ :=
      recordFailure_write now p.deliveryId (noSenderReason p.channel) tried
    exact ⟨attempts, recordFailure_senders now _ _ tried, store⟩
  | some sender =>
    dsimp only
    rcases send sender p d.senders with ⟨f | sent, senders⟩
    · let tried : Dispatched σ := { d.tried p (.failed f) with senders }
      obtain ⟨attempts, store⟩ := recordFailure_write now p.deliveryId f.reason
        (tried.note (.sendFailed p.deliveryId p.channel (p.attemptCount + 1) maxAttempts f))
      exact ⟨attempts, recordFailure_senders now _ _ (tried.note _), store⟩
    · let tried : Dispatched σ := { d.tried p .delivered with senders }
      obtain ⟨attempts, store⟩ := recordSuccess_write now p.deliveryId tried
      exact ⟨attempts, recordSuccess_senders now _ tried, store⟩

def attemptsAt : List PendingDelivery → σ → List Attempt × σ
  | [], senders => ([], senders)
  | p :: rest, senders =>
    let first := outcomeOf send registry p senders
    let later := attemptsAt rest first.2
    (⟨p, first.1⟩ :: later.1, later.2)

theorem attempts_eq (ps : List PendingDelivery) (d : Dispatched σ) :
    let r := attemptsAt send registry ps d.senders
    let d' := ps.foldl (attempt send registry now maxAttempts) d
    d'.attempts = d.attempts ++ r.1 ∧ d'.senders = r.2 ∧ d'.store = r.1.foldl (settle now) d.store := by
  induction ps generalizing d with
  | nil => exact ⟨(List.append_nil _).symm, rfl, rfl⟩
  | cons p rest ih =>
    obtain ⟨attempts, senders, store⟩ := attempt_eq send registry now maxAttempts d p
    obtain ⟨attempts', senders', store'⟩ := ih (attempt send registry now maxAttempts d p)
    rw [senders] at attempts' senders' store'
    refine ⟨?_, senders', ?_⟩
    · rw [List.foldl_cons, attempts', attempts, List.append_assoc]
      rfl
    · rw [List.foldl_cons, store', store]
      rfl

theorem attemptsAt_deliveries (ps : List PendingDelivery) (senders : σ) :
    (attemptsAt send registry ps senders).1.map (·.delivery) = ps := by
  induction ps generalizing senders with
  | nil => rfl
  | cons p rest ih => exact congrArg (p :: ·) (ih _)

theorem tick_marks (batchSize : Int) (l : Ledger) (senders : σ) :
    let d := tick send registry now batchSize maxAttempts (.ofLedger l) senders
    d.attempts.map (·.delivery) = (l.pending batchSize maxAttempts).toOption.getD [] ∧
      d.store = .ofLedger ((d.attempts.filterMap (·.mark? now)).foldl (fun l m => (l.mark m).2) l) := by
  simp only [tick, Store.read_ofLedger]
  cases l.pending batchSize maxAttempts with
  | error f => exact ⟨rfl, rfl⟩
  | ok ps =>
    obtain ⟨attempts, -, store⟩ :=
      attempts_eq send registry now maxAttempts ps ⟨[], .ofLedger l, senders, []⟩
    simp only [attempts, store, List.nil_append]
    exact ⟨attemptsAt_deliveries send registry ps senders, foldl_settle_ofLedger now _ l⟩

theorem foldl_settle_ledger (as : List Attempt) (s : Store) :
    ∃ ms : List Mark, (as.foldl (settle now) s).ledger = ms.foldl (fun l m => (l.mark m).2) s.ledger := by
  induction as generalizing s with
  | nil => exact ⟨[], rfl⟩
  | cons a rest ih =>
    obtain ⟨ms, later⟩ := ih (settle now s a)
    rw [List.foldl_cons, later]
    rcases s.write_cases a.call (a.note now) with ⟨-, same⟩ | ⟨noted, -, done⟩
    · exact ⟨ms, by rw [settle, same]⟩
    · rcases a.note_eq now s.ledger with ⟨m, -, marked⟩ | ⟨-, f, failed⟩
      · have after : (s.ledger.mark m).2 = (settle now s a).ledger :=
          congrArg Prod.snd (Except.ok.inj (marked.symm.trans done))
        exact ⟨m :: ms, by rw [List.foldl_cons, after]⟩
      · cases failed.symm.trans done

theorem tick_attempts (batchSize : Int) (s : Store) (senders : σ) :
    ∀ a ∈ (tick send registry now batchSize maxAttempts s senders).attempts,
      ∃ ps, s.ledger.pending batchSize maxAttempts = .ok ps ∧ a.delivery ∈ ps := by
  intro a ha
  have read := (s.read_cases .pending fun l => l.pending batchSize maxAttempts).2
  unfold tick at ha
  rcases found : s.read .pending fun l => l.pending batchSize maxAttempts with ⟨f | ps, s'⟩ <;>
    rw [found] at ha read
  · cases ha
  · rcases read with ⟨e, failed⟩ | same
    · cases failed
    · have made := (attempts_eq send registry now maxAttempts ps ⟨[], s', senders, []⟩).1
      rw [made, List.nil_append] at ha
      have listed := List.mem_map_of_mem (f := (·.delivery)) ha
      rw [attemptsAt_deliveries] at listed
      exact ⟨ps, same.symm, listed⟩

theorem tick_ledger (batchSize : Int) (s : Store) (senders : σ) :
    ∃ ms : List Mark, (tick send registry now batchSize maxAttempts s senders).store.ledger =
      ms.foldl (fun l m => (l.mark m).2) s.ledger := by
  have looked := (s.read_cases .pending fun l => l.pending batchSize maxAttempts).1
  unfold tick
  rcases found : s.read .pending fun l => l.pending batchSize maxAttempts with ⟨f | ps, s'⟩ <;>
    rw [found] at looked
  · exact ⟨[], looked⟩
  · have store := (attempts_eq send registry now maxAttempts ps ⟨[], s', senders, []⟩).2.2
    rw [store]
    exact looked ▸ foldl_settle_ledger now _ s'

end Dispatcher

end ChoreReminder
