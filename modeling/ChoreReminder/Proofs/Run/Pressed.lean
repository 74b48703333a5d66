import ChoreReminder.Proofs.Datum.Equality
import ChoreReminder.Proofs.Run.Presses
import ChoreReminder.Proofs.Run.Removal
import ChoreReminder.Proofs.Telegram.Breakdown
import ChoreReminder.Proofs.Telegram.Keyboard

/-! One press of a button that marks a chore done. The text after the mark, the date of the message and the ledger
decide what the press comes to, in this order: a text that is no identifier, a completion since the message, a
chore that is gone, and else one more completion. The two requests come after that, first the one that takes the
keyboard off and then the one that answers the press, and have no say in it as long as they are refused only. -/

namespace ChoreReminder

open TelegramChannel (buttonData clearPayload)
open Ledger (Kept)

namespace Press

variable {l l' : Ledger} {now sent : Instant} {text id : String} {query message : Datum} {reply : PressReply}
  {wire : Wire} {notices : List Notice}

/-- A press of a button with a mark and a text, under a message of the usual form or under none: with a date, if
it has one, that the calendar holds, and a chat that is an object, if it has one. -/
structure Presses (query : Datum) (text : String) : Prop where
  members : ∃ members, query = .obj members
  data : query.get "data" = .str (buttonData text)
  message : IsMembers (query.get "message")
  date : ∀ n, ((query.get "message").get "date").wholeNumber? = some n →
    -62135596800 ≤ n ∧ n < 253402300800
  chat : IsMembers ((query.get "message").get "chat")

def SentAt (message : Datum) (t : Instant) : Prop :=
  ∃ n, (message.get "date").wholeNumber? = some n ∧ (t.micros : Int) = (n + epochSeconds) * Calendar.second

def Seen (l : Ledger) (id : String) (message : Datum) : Prop := ∃ t, SentAt message t ∧ l.CompletedSince id t

/-- What a press comes to: what the person is told, and the ledger that is left behind. -/
inductive Comes (l : Ledger) (now : Instant) (text : String) (message : Datum) : PressReply → Ledger → Prop where
  | invalid (unread : Text.readUuid? text.toList = none) : Comes l now text message .invalidId l
  | again {n : Nat} (read : Text.readUuid? text.toList = some n) (seen : Seen l (Text.uuidText n) message) :
      Comes l now text message .alreadyDone l
  | unknown {n : Nat} (read : Text.readUuid? text.toList = some n) (unseen : ¬ Seen l (Text.uuidText n) message)
      (absent : l.choreExists (Text.uuidText n) = false) : Comes l now text message .failed l
  | done {n : Nat} (read : Text.readUuid? text.toList = some n) (unseen : ¬ Seen l (Text.uuidText n) message)
      (present : l.choreExists (Text.uuidText n) = true) : Comes l now text message .done { l with
        completions := l.completions ++ [l.newCompletionRow now (Text.uuidText n) now (some notes)]
        ids := { l.ids with completions := l.ids.completions + 1 } }

/-- The request that takes the keyboard off, after a press that found the chore done or marked it so, if the
message says where it is. -/
def clearing (c : TelegramChannel) (message : Datum) (reply : PressReply) : List HttpRequest :=
  let chat := (message.get "chat").get "id"
  let number := message.get "message_id"
  if (reply = .done ∨ reply = .alreadyDone) ∧ chat ≠ .null ∧ number ≠ .null then
    [c.request .editMessageReplyMarkup (clearPayload chat number) 0]
  else []

/-! ### What is read -/

theorem instantOfSeconds_micros {n : Int} {i : Instant} (given : instantOfSeconds n = .ok i) :
    (i.micros : Int) = (n + epochSeconds) * Calendar.second := by
  unfold instantOfSeconds at given
  split at given
  · cases given
  split at given
  · cases given
  unfold Instant.ofMicros? at given
  split at given
  · next inside =>
    split at inside
    · next within =>
      obtain rfl := Except.ok.inj given
      obtain rfl := Option.some.inj inside
      exact Int.toNat_of_nonneg within.1
    · cases inside
  · cases given

theorem Presses.moment_sent (press : Presses query text) :
    ∃ sent, moment (orEmpty (query.get "message")) = .ok sent ∧
      ∀ t, sent = some t ↔ SentAt (query.get "message") t := by
  obtain ⟨sent, read⟩ := moment_ok_iff.2 ⟨press.message, press.date⟩
  refine ⟨sent, read, fun t => ?_⟩
  simp only [moment, bind_eq_ok, member_ok_iff, orEmpty_get] at read
  obtain ⟨date, ⟨-, rfl⟩, read⟩ := read
  unfold SentAt
  cases number : ((query.get "message").get "date").wholeNumber? with
  | none =>
    rw [number] at read
    obtain rfl : none = sent := Except.ok.inj read
    simp
  | some n =>
    rw [number] at read
    dsimp only at read
    cases given : instantOfSeconds n with
    | error f =>
      rw [given] at read
      cases read
    | ok i =>
      rw [given] at read
      obtain rfl : some i = sent := Except.ok.inj read
      have micros := instantOfSeconds_micros given
      simp only [Option.some.injEq, exists_eq_left']
      constructor
      · rintro rfl
        exact micros
      · intro same
        obtain ⟨m, inRange⟩ := i
        obtain ⟨m', inRange'⟩ := t
        obtain rfl : m = m' := Int.ofNat.inj (micros.trans same.symm)
        rfl

/-! ### What is recorded -/

theorem record_absent {sent : Option Instant}
    (unseen : ∀ t, sent = some t → l.completionExists id (some (.utc t)) = .ok false)
    (absent : l.choreExists id = false) (now : Instant) :
    record now id sent (.ofLedger l) = (.error (.choreNotFound id), .ofLedger l) := by
  have clock : ((none : Option Stamp).getD (.utc now)).instant? = some now := Stamp.instant?_utc now
  have refused : l.complete now id none (some notes) = .error (.choreNotFound id) := by
    simp only [Ledger.complete, Ledger.storable_eq_ok.2 clock, absent]
    rfl
  have written : (Store.ofLedger l).write .complete (fun l => l.complete now id none (some notes)) =
      (.error (.choreNotFound id), .ofLedger l) := Store.write_ofLedger_error refused
  cases sent with
  | none => simp only [record, written]
  | some t => simp only [record, Store.read_ofLedger, unseen t rfl, written]

theorem record_present {sent : Option Instant}
    (unseen : ∀ t, sent = some t → l.completionExists id (some (.utc t)) = .ok false)
    (present : l.choreExists id = true) (now : Instant) :
    record now id sent (.ofLedger l) = (.ok .done, .ofLedger { l with
      completions := l.completions ++ [l.newCompletionRow now id now (some notes)]
      ids := { l.ids with completions := l.ids.completions + 1 } }) := by
  have clock : ((none : Option Stamp).getD (.utc now)).instant? = some now := Stamp.instant?_utc now
  obtain ⟨completion, l', done, -⟩ := Ledger.complete_recorded present clock (some notes)
  obtain ⟨-, i, meant, rfl⟩ := Ledger.complete_ok done
  obtain rfl := Option.some.inj (clock.symm.trans meant)
  exact record_unseen unseen done

/-! ### What is sent -/

theorem markDone_ok {c : TelegramChannel} {d : Desk} {store : Store} {sent : Option Instant}
    (meant : moment message = .ok sent) (recorded : record now id sent d.store = (.ok reply, store))
    (cleared : (clearKeyboard c message { d with store }).1 = .ok ()) :
    markDone c now id message d = (.ok reply, (clearKeyboard c message { d with store }).2) := by
  simp only [markDone, meant, recorded]
  generalize clearKeyboard c message { d with store } = r at cleared
  obtain ⟨f | u, d'⟩ := r
  · cases cleared
  · rfl

theorem clearKeyboard_sent (c : TelegramChannel) {d : Desk} (clears : Clears message d.wire)
    (marked : reply = .done ∨ reply = .alreadyDone) :
    (clearKeyboard c (orEmpty message) d).2.wire.requests = d.wire.requests ++ clearing c message reply := by
  obtain ⟨place, located, sendable⟩ := clearKeyboard_ok_iff.1 ((clearKeyboard_ok_iff_clears c message d).2 clears)
  obtain ⟨-, told⟩ := location_ok located
  unfold clearKeyboard clearing
  rw [located]
  obtain _ | ⟨chat, number⟩ := place
  · have nowhere : ¬ ((message.get "chat").get "id" ≠ .null ∧ message.get "message_id" ≠ .null) :=
      fun ⟨here, numbered⟩ => Option.some_ne_none _ ((told _ _).2 ⟨⟨rfl, rfl⟩, here, numbered⟩).symm
    rw [if_neg fun both => nowhere both.2, List.append_nil]
  · obtain ⟨⟨rfl, rfl⟩, here, numbered⟩ := (told _ _).1 rfl
    have sent := c.carried_requests .editMessageReplyMarkup
      (clearPayload ((message.get "chat").get "id") (message.get "message_id")) d.wire
    rw [← TelegramChannel.clearKeyboard_eq, TelegramChannel.sent, TelegramChannel.clearPayload_isSendable,
      if_pos (sendable _ _ rfl).1] at sent
    rw [if_pos ⟨marked, here, numbered⟩]
    refine (?_ : _ = _).trans sent
    dsimp only
    rcases c.clearKeyboard _ _ d.wire with ⟨f | u, w⟩
    · dsimp only
      split <;> rfl
    · rfl

/-! ### What a press comes to -/

structure Sendable (query : Datum) : Prop where
  place : ((query.get "message").get "chat").get "id" ≠ .null → (query.get "message").get "message_id" ≠ .null →
    ((((query.get "message").get "chat").get "id").isSendable &&
      ((query.get "message").get "message_id").isSendable) = true
  answer : Answerable query

/-- A press was acted upon: what it comes to is told, the ledger and the requests are as they should be, and the
wire still holds. -/
structure Acted (c : TelegramChannel) (query : Datum) (reply : PressReply) (l' : Ledger) (wire : Wire)
    (r : Except PressFault PressReply × Desk) : Prop where
  told : r.1 = .ok reply
  store : r.2.store = .ofLedger l'
  requests : r.2.wire.requests = wire.requests ++ clearing c (query.get "message") reply
  steady : r.2.wire.Steady

theorem Presses.acted_marked (press : Presses query text) (sendable : Sendable query) {sent : Option Instant}
    (meant : moment (orEmpty (query.get "message")) = .ok sent)
    (recorded : record now id sent (.ofLedger l) = (.ok reply, .ofLedger l'))
    (marked : reply = .done ∨ reply = .alreadyDone) (c : TelegramChannel) (steady : wire.Steady)
    (notices : List Notice) : Acted c query reply l' wire
      (markDone c now id (orEmpty (query.get "message")) ⟨.ofLedger l, wire, notices⟩) := by
  let d : Desk := ⟨.ofLedger l', wire, notices⟩
  have clears : Clears (query.get "message") d.wire :=
    ⟨press.chat, fun here numbered => ⟨sendable.place here numbered, steady.not_breaks⟩⟩
  have cleared := (clearKeyboard_ok_iff_clears c (query.get "message") d).2 clears
  rw [markDone_ok (d := ⟨.ofLedger l, wire, notices⟩) meant recorded cleared]
  exact ⟨rfl, clearKeyboard_store c _ d, clearKeyboard_sent c clears marked,
    (clearKeyboard_steady c (clearable_of_clearKeyboard cleared) steady).2⟩

theorem clearing_unmarked (c : TelegramChannel) (message : Datum) (reply : PressReply)
    (unmarked : ¬ (reply = .done ∨ reply = .alreadyDone)) : clearing c message reply = [] :=
  if_neg fun both => unmarked both.1

theorem Presses.acted (press : Presses query text) (sendable : Sendable query) (k : Kept l) (now : Instant) :
    ∃ reply l', Comes l now text (query.get "message") reply l' ∧
      ∀ (c : TelegramChannel) (wire : Wire), wire.Steady → ∀ notices,
        Acted c query reply l' wire (act c now query ⟨.ofLedger l, wire, notices⟩) := by
  have given : member query "data" = .ok (.str (buttonData text)) := member_ok_iff.2 ⟨press.members, press.data⟩
  have asked := choreIdOf_button text
  cases read : Text.readUuid? text.toList with
  | none =>
    rw [read] at asked
    refine ⟨.invalidId, l, .invalid read, fun c wire steady notices => ?_⟩
    have unmarked := clearing_unmarked c (query.get "message") .invalidId (by decide)
    simp only [act, given, asked]
    exact ⟨rfl, rfl, by rw [unmarked, List.append_nil], steady⟩
  | some n =>
    rw [read] at asked
    obtain ⟨sent, meant, told⟩ := press.moment_sent
    by_cases seen : Seen l (Text.uuidText n) (query.get "message")
    · obtain ⟨t, at', since⟩ := seen
      obtain rfl := (told t).2 at'
      refine ⟨.alreadyDone, l, .again read ⟨t, at', since⟩, fun c wire steady notices => ?_⟩
      rw [act_of_asked c now given asked]
      exact press.acted_marked sendable meant (record_again k since now) (.inr rfl) c steady notices
    have unseen (t : Instant) (same : sent = some t) :
        l.completionExists (Text.uuidText n) (some (.utc t)) = .ok false := by
      obtain ⟨found, looked, since⟩ := k.completionExists_since (Text.uuidText n) t
      have none' : ¬ found = true := fun yes => seen ⟨t, (told t).1 same, since.1 yes⟩
      rw [looked, Bool.eq_false_iff.2 none']
    cases present : l.choreExists (Text.uuidText n) with
    | false =>
      refine ⟨.failed, l, .unknown read seen present, fun c wire steady notices => ?_⟩
      have unmarked := clearing_unmarked c (query.get "message") .failed (by decide)
      rw [act_of_asked c now given asked]
      simp only [markDone, meant, record_absent unseen present now]
      exact ⟨rfl, rfl, by rw [unmarked, List.append_nil]; rfl, steady⟩
    | true =>
      refine ⟨.done, _, .done read seen present, fun c wire steady notices => ?_⟩
      rw [act_of_asked c now given asked]
      exact press.acted_marked sendable meant (record_present unseen present now) (.inl rfl) c steady notices

theorem Acted.handled {c : TelegramChannel} {d : Desk} (acted : Acted c query reply l' wire (act c now query d))
    (answerable : Answerable query) :
    let r := handle c now query d
    r.1 = .ok reply ∧ r.2.store = .ofLedger l' ∧ r.2.wire.requests = wire.requests ++
      clearing c (query.get "message") reply ++
      if (query.get "id").isTruthy then [answering c query reply] else [] := by
  intro r
  have told := acted.told
  obtain ⟨f, failed, -⟩ | ⟨reply', ok, same⟩ := handle_cases c now query d
  · cases failed.symm.trans told
  obtain rfl := Except.ok.inj (ok.symm.trans told)
  refine ⟨?_, ?_, ?_⟩
  · rw [show r = _ from same, answer_ok_iff]
    exact ⟨rfl, fun given => ⟨answerable given, acted.steady.not_breaks⟩⟩
  · rw [handle_store, acted.store]
  · rw [show r = _ from same, answer_requests, acted.requests]
    cases given : (query.get "id").isTruthy with
    | false => rfl
    | true => rw [answerable given]; rfl

end Press

open Press (Presses Sendable Comes clearing answering)

namespace Store

end Store

end ChoreReminder
