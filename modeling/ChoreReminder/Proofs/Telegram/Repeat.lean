import ChoreReminder.Proofs.Ledger.Candidates
import ChoreReminder.Proofs.Telegram.Call
import ChoreReminder.Proofs.Telegram.Press

/-! A button that is pressed again. A press counts unless the chore was completed since the message was sent,
and only a completion by a clock that is not behind the message makes that so. What the person is told
depends on the wire as well: a transport that breaks down while the keyboard is taken off, or
while the press is answered, comes in between. -/

namespace ChoreReminder

namespace Ledger

variable {l : Ledger} {id : String} {i : Instant}

def CompletedSince (l : Ledger) (id : String) (i : Instant) : Prop :=
  ∃ j, l.CompletedAt id j ∧ i ≤ j

theorem Kept.completionExists_since (k : Kept l) (id : String) (i : Instant) :
    ∃ found, l.completionExists id (some (.utc i)) = .ok found ∧
      (found = true ↔ l.CompletedSince id i) := by
  refine ⟨(l.completions.filter (·.choreId = id)).any fun r => i.stored ≤ r.completedAt, ?_, ?_⟩
  · rw [completionExists, storable_eq_ok.2 (Stamp.instant?_utc i)]
    rfl
  · simp only [List.any_eq_true, List.mem_filter, decide_eq_true_eq]
    constructor
    · rintro ⟨row, ⟨member, own⟩, le⟩
      obtain ⟨j, -, at', -⟩ := k.completions row member
      rw [at', Instant.stored_le_stored] at le
      exact ⟨j, ⟨row, member, own, at'⟩, le⟩
    · rintro ⟨j, ⟨row, member, own, at'⟩, le⟩
      rw [← Instant.stored_le_stored, ← at'] at le
      exact ⟨row, ⟨member, own⟩, le⟩

end Ledger

open Ledger (Kept)

namespace Press

variable {c : TelegramChannel} {now sent : Instant} {query message : Datum} {id : String} {l : Ledger}

/-- The press marks this chore done on account of a message that was sent at this instant. -/
structure Marks (query : Datum) (id : String) (sent : Instant) : Prop where
  data : ∃ data, member query "data" = .ok data ∧ choreIdOf data = .ok (.ok id)
  moment : moment (orEmpty (query.get "message")) = .ok (some sent)

namespace Marks

theorem act_eq (marks : Marks query id sent) (d : Desk) :
    act c now query d = markDone c now id (orEmpty (query.get "message")) d := by
  obtain ⟨data, given, own⟩ := marks.data
  exact act_of_asked c now given own d

theorem handled (marks : Marks query id sent) (c : TelegramChannel) (now : Instant) (d : Desk) :
    (handle c now query d).2.store = (record now id (some sent) d.store).2 := by
  rw [handle_store, marks.act_eq, markDone_recorded c now marks.moment]

end Marks

/-! ### What is recorded -/

theorem record_again (k : Kept l) (since : l.CompletedSince id sent) (now : Instant) :
    record now id (some sent) (.ofLedger l) = (.ok .alreadyDone, .ofLedger l) := by
  obtain ⟨found, looked, told⟩ := k.completionExists_since id sent
  simp only [record, Store.read_ofLedger, looked, told.2 since]

theorem record_unseen {sent : Option Instant}
    (unseen : ∀ t, sent = some t → l.completionExists id (some (.utc t)) = .ok false)
    {completion : Completion} {l' : Ledger}
    (done : l.complete now id none (some notes) = .ok (completion, l')) :
    record now id sent (.ofLedger l) = (.ok .done, .ofLedger l') := by
  have written : (Store.ofLedger l).write .complete
      (fun l => l.complete now id none (some notes)) = (.ok completion, .ofLedger l') :=
    Store.write_ofLedger_ok done
  cases sent with
  | none => simp only [record, written]
  | some t => simp only [record, Store.read_ofLedger, unseen t rfl, written]

theorem record_first (k : Kept l) (fresh : ¬ l.CompletedSince id sent) {completion : Completion}
    {l' : Ledger} (done : l.complete now id none (some notes) = .ok (completion, l')) :
    record now id (some sent) (.ofLedger l) = (.ok .done, .ofLedger l') := by
  obtain ⟨found, looked, told⟩ := k.completionExists_since id sent
  obtain rfl : found = false := by simpa [fresh] using told
  exact record_unseen (fun t same => Option.some.inj same ▸ looked) done

theorem record_idle {s : Store} (k : Kept s.ledger)
    (settled : s.ledger.CompletedSince id sent ∨ s.ledger.choreExists id = false) (now : Instant) :
    (record now id (some sent) s).2.ledger = s.ledger := by
  rcases settled with since | gone
  · obtain ⟨found, looked, told⟩ := k.completionExists_since id sent
    obtain ⟨same, read⟩ :=
      s.read_cases .completionExists fun l => l.completionExists id (some (.utc sent))
    rw [looked, told.2 since] at read
    simp only [record]
    rcases h : s.read .completionExists fun l => l.completionExists id (some (.utc sent)) with
      ⟨f | found, s'⟩ <;> rw [h] at same read
    · exact same
    · obtain rfl : found = true := by simpa using read
      exact same
  · rcases record_ledger now id (some sent) s with same | ⟨completion, done⟩
    · exact same
    · obtain ⟨present, -⟩ := Ledger.complete_ok done
      rw [present] at gone
      cases gone

end Press

/-! ### What the person is told -/

namespace Wire

variable {w : Wire}

/-- No reply that is still to come breaks the transport down. -/
def Steady (w : Wire) : Prop := ∀ kind text, .broken kind text ∉ w.replies

theorem Steady.not_breaks (steady : w.Steady) : ¬ w.Breaks := by
  rintro ⟨kind, text, broken⟩
  unfold reply at broken
  cases h : w.replies with
  | nil =>
    rw [h] at broken
    cases broken
  | cons reply rest =>
    obtain rfl : reply = .broken kind text := by simpa [h] using broken
    exact steady kind text (h ▸ List.mem_cons_self)

theorem Steady.after (steady : w.Steady) (r : HttpRequest) : (w.after r).Steady :=
  fun kind text member => steady kind text (List.mem_of_mem_tail member)

end Wire

namespace TelegramChannel

variable {method : BotMethod} {payload : Datum} {w : Wire}

theorem carried_steady (c : TelegramChannel) (method : BotMethod) (sendable : payload.isSendable = true)
    (steady : w.Steady) : (c.carried method payload w).2.Steady := by
  rw [carried_eq sendable]
  exact steady.after _

end TelegramChannel

namespace Press

variable {c : TelegramChannel} {query message : Datum} {d : Desk}

def Clearable (message : Datum) : Prop :=
  ∃ place, location message = .ok place ∧
    ∀ chat number, place = some (chat, number) → (chat.isSendable && number.isSendable) = true

theorem clearKeyboard_ok_iff : (clearKeyboard c message d).1 = .ok () ↔
    ∃ place, location message = .ok place ∧ ∀ chat number, place = some (chat, number) →
      (chat.isSendable && number.isSendable) = true ∧ ¬ d.wire.Breaks := by
  unfold clearKeyboard
  cases location message with
  | error f => simp
  | ok place =>
    obtain _ | ⟨chat, number⟩ := place
    · simp
    · dsimp only
      rw [TelegramChannel.clearKeyboard_eq]
      have refused := c.carried_refused_iff .editMessageReplyMarkup
        (TelegramChannel.clearPayload chat number) d.wire
      rw [TelegramChannel.clearPayload_isSendable] at refused
      generalize c.carried _ _ d.wire = carried at refused ⊢
      obtain ⟨f | u, wire⟩ := carried
      · cases refusal : f.isRefusal <;> simpa [refusal] using refused
      · simpa using refused

theorem clearKeyboard_steady (c : TelegramChannel) (clearable : Clearable message)
    (steady : d.wire.Steady) :
    (clearKeyboard c message d).1 = .ok () ∧ (clearKeyboard c message d).2.wire.Steady := by
  obtain ⟨place, located, sendable⟩ := clearable
  refine ⟨clearKeyboard_ok_iff.2 ⟨place, located, fun chat number at' =>
    ⟨sendable chat number at', steady.not_breaks⟩⟩, ?_⟩
  unfold clearKeyboard
  rw [located]
  rcases place with _ | ⟨chat, number⟩
  · exact steady
  · have after := TelegramChannel.carried_steady c .editMessageReplyMarkup
      ((TelegramChannel.clearPayload_isSendable chat number).trans (sendable chat number rfl)) steady
    rw [← TelegramChannel.clearKeyboard_eq] at after
    dsimp only
    rcases h : c.clearKeyboard chat number d.wire with ⟨f | u, w⟩ <;> rw [h] at after
    · dsimp only
      split <;> exact after
    · exact after

theorem clearable_of_clearKeyboard (cleared : (clearKeyboard c message d).1 = .ok ()) :
    Clearable message := by
  obtain ⟨place, located, sent⟩ := clearKeyboard_ok_iff.1 cleared
  exact ⟨place, located, fun chat number at' => (sent chat number at').1⟩

def Answerable (query : Datum) : Prop :=
  (query.get "id").isTruthy = true → (query.get "id").isSendable = true

theorem answer_ok_iff {reply reply' : PressReply} : (answer c query reply d).1 = .ok reply' ↔
    reply = reply' ∧ ((query.get "id").isTruthy = true →
      (query.get "id").isSendable = true ∧ ¬ d.wire.Breaks) := by
  unfold answer
  dsimp only
  cases given : (query.get "id").isTruthy with
  | false => simp
  | true =>
    rw [TelegramChannel.answerPress_eq]
    have refused := c.carried_refused_iff .answerCallbackQuery
      (TelegramChannel.answerPayload (query.get "id") reply.text) d.wire
    rw [TelegramChannel.answerPayload_isSendable] at refused
    simp only [if_true, true_imp_iff, ← refused]
    generalize c.carried _ _ d.wire = carried
    obtain ⟨f | u, wire⟩ := carried
    · cases refusal : f.isRefusal <;> simp [refusal]
    · simp

/-! ### Presses after one that was answered -/

theorem Marks.of_done {now sent : Instant} {id : String} (marks : Marks query id sent)
    (done : (handle c now query d).1 = .ok .done) :
    Clearable (orEmpty (query.get "message")) ∧ Answerable query := by
  unfold handle at done
  rcases h : act c now query d with ⟨f | reply, d'⟩ <;> rw [h] at done
  · cases done
  · obtain ⟨rfl, answerable⟩ := answer_ok_iff.1 done
    refine ⟨?_, fun given => (answerable given).1⟩
    rw [marks.act_eq, markDone, marks.moment] at h
    dsimp only at h
    generalize record now id (some sent) d.store = recorded at h
    obtain ⟨f | reply, store⟩ := recorded
    · cases f <;> cases h
    · dsimp only at h
      rcases cleared : clearKeyboard c (orEmpty (query.get "message")) { d with store } with ⟨f | u, d''⟩
      · rw [cleared] at h
        dsimp only at h
        split at h <;> cases h
      · exact clearable_of_clearKeyboard (congrArg Prod.fst cleared)

theorem Marks.told_again {sent : Instant} {id : String} {l : Ledger} (marks : Marks query id sent)
    (clearable : Clearable (orEmpty (query.get "message"))) (answerable : Answerable query)
    (k : Kept l) (since : l.CompletedSince id sent) (c : TelegramChannel) (now : Instant) {wire : Wire}
    (steady : wire.Steady) (notices : List Notice) :
    (handle c now query ⟨.ofLedger l, wire, notices⟩).1 = .ok .alreadyDone := by
  obtain ⟨cleared, still⟩ :=
    clearKeyboard_steady (d := ⟨.ofLedger l, wire, notices⟩) c clearable steady
  have acted : act c now query ⟨.ofLedger l, wire, notices⟩ =
      (.ok .alreadyDone,
        (clearKeyboard c (orEmpty (query.get "message")) ⟨.ofLedger l, wire, notices⟩).2) := by
    rw [marks.act_eq, markDone, marks.moment]
    simp only [record_again k since now]
    generalize clearKeyboard c (orEmpty (query.get "message")) ⟨.ofLedger l, wire, notices⟩ = r at cleared
    obtain ⟨f | u, d'⟩ := r
    · cases cleared
    · rfl
  rw [handle, acted]
  exact answer_ok_iff.2 ⟨rfl, fun given => ⟨answerable given, still.not_breaks⟩⟩

end Press

end ChoreReminder
