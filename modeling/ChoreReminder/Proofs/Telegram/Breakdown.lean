import Mathlib.Data.List.Basic
import ChoreReminder.Proofs.Calendar.Date
import ChoreReminder.Proofs.Telegram.Repeat

/-! Presses that break down. What the remote side sends is read as far as it is needed, and a value of another
kind than expected ends the handling of a press, as does a transport that breaks down. Refusals do not. A
press that breaks down after the completion was recorded leaves the completion behind. -/

namespace ChoreReminder

namespace Press

variable {c : TelegramChannel} {now : Instant} {query message : Datum} {d : Desk}

/-! ### What is read -/

theorem orEmpty_get (message : Datum) (name : String) : (orEmpty message).get name = message.get name := by
  cases message with
  | obj members => cases members <;> rfl
  | _ =>
    unfold orEmpty
    split <;> rfl

def IsMembers (d : Datum) : Prop := d.isTruthy = true → ∃ members, d = .obj members

theorem orEmpty_object : (∃ members, orEmpty message = .obj members) ↔ IsMembers message := by
  unfold orEmpty IsMembers
  split
  · next given => simp [given]
  · next absent => simp [absent]

theorem member_ok_iff {name : String} {value : Datum} :
    member message name = .ok value ↔ (∃ members, message = .obj members) ∧ message.get name = value := by
  unfold member
  split
  · simp
  · next other => simpa using fun members same => absurd same (other members)

theorem fits_of_inCalendar {n : Int} (low : -62135596800 ≤ n) (high : n < 253402300800) :
    fitsWord 64 n = true ∧ fitsWord 32 (yearOfSeconds n - 1900) = true := by
  have half : (twoPow (64 - 1) : Int) = 9223372036854775808 := by decide
  have half' : (twoPow (32 - 1) : Int) = 2147483648 := by decide
  have early : ((n + epochSeconds) / 86400 % 146097).toNat < Calendar.dayLimit := by
    unfold Calendar.dayLimit
    omega
  have year := Calendar.yearOf_le_maxYear early
  simp only [fitsWord, half, half', yearOfSeconds, Bool.and_eq_true, decide_eq_true_eq]
  unfold Calendar.maxYear at year
  unfold epochSeconds at year ⊢
  omega

theorem instantOfSeconds_ok_iff {n : Int} : (∃ i, instantOfSeconds n = .ok i) ↔
    -62135596800 ≤ n ∧ n < 253402300800 := by
  have limit : Calendar.limit = 315537897600 * Calendar.second := by decide
  constructor
  · rintro ⟨i, given⟩
    unfold instantOfSeconds at given
    split at given
    · cases given
    split at given
    · cases given
    split at given
    · next inside =>
      unfold Instant.ofMicros? at inside
      split at inside
      · next within =>
        rw [limit] at within
        unfold epochSeconds Calendar.second at within
        omega
      · cases inside
    · cases given
  · rintro ⟨low, high⟩
    obtain ⟨word, year⟩ := fits_of_inCalendar low high
    have within : 0 ≤ (n + epochSeconds) * Calendar.second ∧
        ((n + epochSeconds) * Calendar.second).toNat < Calendar.limit := by
      rw [limit]
      unfold epochSeconds Calendar.second
      omega
    refine ⟨⟨_, within.2⟩, ?_⟩
    simp only [instantOfSeconds, word, year, Instant.ofMicros?, within, Bool.not_true,
      Bool.false_eq_true, if_false, and_self, dif_pos]

theorem moment_ok_iff : (∃ sent, moment (orEmpty message) = .ok sent) ↔
    IsMembers message ∧ ∀ n, (message.get "date").wholeNumber? = some n →
      -62135596800 ≤ n ∧ n < 253402300800 := by
  constructor
  · rintro ⟨sent, read⟩
    simp only [moment, bind_eq_ok, member_ok_iff, orEmpty_get] at read
    obtain ⟨date, ⟨object, rfl⟩, read⟩ := read
    refine ⟨orEmpty_object.1 object, fun n number => instantOfSeconds_ok_iff.1 ?_⟩
    rw [number] at read
    dsimp only at read
    cases inside : instantOfSeconds n with
    | error f =>
      rw [inside] at read
      cases read
    | ok i => exact ⟨i, rfl⟩
  · rintro ⟨object, inside⟩
    have date : member (orEmpty message) "date" = .ok (message.get "date") :=
      member_ok_iff.2 ⟨orEmpty_object.2 object, orEmpty_get ..⟩
    simp only [moment, bind_eq_ok, date, Except.ok.injEq, exists_eq_left']
    cases number : (message.get "date").wholeNumber? with
    | none => exact ⟨none, rfl⟩
    | some n =>
      obtain ⟨i, given⟩ := instantOfSeconds_ok_iff.2 (inside n number)
      exact ⟨some i, congrArg (Except.map some) given⟩

theorem choreIdOf_ok_iff {data : Datum} :
    (∃ r, choreIdOf data = .ok r) ↔ (data.isTruthy = true → ∃ text, data = .ofText text) := by
  unfold choreIdOf
  cases given : data.isTruthy with
  | false => simp
  | true =>
    cases data with
    | str s =>
      refine iff_of_true ?_ fun _ => ⟨s, rfl⟩
      rw [if_neg (by decide)]
      dsimp only
      cases afterMark? s with
      | none => exact ⟨_, rfl⟩
      | some rest =>
        dsimp only
        cases Text.readUuid? rest <;> exact ⟨_, rfl⟩
    | halved t => exact iff_of_true ⟨_, rfl⟩ fun _ => ⟨.halved t, rfl⟩
    | _ =>
      refine iff_of_false (by simp) fun text => ?_
      obtain ⟨_ | _, same⟩ := text rfl <;> cases same

/-- The data is a text or nothing, and if it names a chore, the message is an object or nothing, with no
date outside the calendar. -/
structure Readable (query : Datum) : Prop where
  data : (query.get "data").isTruthy = true → ∃ text, query.get "data" = .ofText text
  message : ∀ id, choreIdOf (query.get "data") = .ok (.ok id) → IsMembers (query.get "message")
  date : ∀ id, choreIdOf (query.get "data") = .ok (.ok id) →
    ∀ n, ((query.get "message").get "date").wholeNumber? = some n →
      -62135596800 ≤ n ∧ n < 253402300800

/-! ### What is recorded -/

def Records (now : Instant) (l l' : Ledger) : Prop :=
  ∃ id completion, l.complete now id none (some notes) = .ok (completion, l')

theorem not_records_same (now : Instant) (l : Ledger) : ¬ Records now l l := by
  rintro ⟨id, completion, done⟩
  exact Ledger.complete_ne done rfl

theorem complete_cases (now : Instant) (id : String) (s : Store) :
    let r : Except LedgerFault PressReply × Store :=
      match s.write .complete fun l => l.complete now id none (some notes) with
      | (.ok _, s) => (.ok .done, s)
      | (.error f, s) => (.error f, s)
    ((∃ f, r.1 = .error f) ∧ r.2.ledger = s.ledger) ∨
      (r.1 = .ok .done ∧ Records now s.ledger r.2.ledger) := by
  have written := s.write_cases .complete fun l => l.complete now id none (some notes)
  generalize s.write .complete _ = w at written ⊢
  rcases written with ⟨⟨f, failed⟩, same⟩ | ⟨completion, given, done⟩
  · obtain ⟨_, s'⟩ := w
    obtain rfl := failed
    exact .inl ⟨⟨f, rfl⟩, same⟩
  · obtain ⟨_, s'⟩ := w
    obtain rfl := given
    exact .inr ⟨rfl, id, completion, done⟩

theorem record_cases (now : Instant) (id : String) (sent : Option Instant) (s : Store) :
    let r := record now id sent s
    (((∃ f, r.1 = .error f) ∨ r.1 = .ok .alreadyDone) ∧ r.2.ledger = s.ledger) ∨
      (r.1 = .ok .done ∧ Records now s.ledger r.2.ledger) := by
  intro r
  cases sent with
  | none =>
    exact (complete_cases now id s).imp (fun ⟨failed, same⟩ => ⟨.inl failed, same⟩) fun recorded => recorded
  | some t =>
    have looked := (s.read_cases .completionExists
      fun l => l.completionExists id (some (.utc t))).1
    unfold r record
    dsimp only
    generalize s.read .completionExists _ = read at looked
    obtain ⟨f | _ | _, s'⟩ := read
    · exact .inl ⟨.inl ⟨f, rfl⟩, looked⟩
    · have rest := complete_cases now id s'
      rw [show s'.ledger = s.ledger from looked] at rest
      exact rest.imp (fun ⟨failed, same⟩ => ⟨.inl failed, same⟩) fun recorded => recorded
    · exact .inl ⟨.inr rfl, looked⟩

theorem choreIdOf_not_done {data : Datum} {reply : PressReply}
    (told : choreIdOf data = .ok (.error reply)) : reply ≠ .done := by
  unfold choreIdOf at told
  split at told
  · cases told
    decide
  split at told
  · split at told
    · cases told
      decide
    split at told
    · cases told
      decide
    · cases told
  · obtain rfl := Except.error.inj (Except.ok.inj told)
    split <;> decide
  · cases told

/-! ### What is sent -/

structure Clears (message : Datum) (w : Wire) : Prop where
  chat : IsMembers (message.get "chat")
  place : (message.get "chat").get "id" ≠ .null → message.get "message_id" ≠ .null →
    (((message.get "chat").get "id").isSendable && (message.get "message_id").isSendable) = true ∧
      ¬ w.Breaks

theorem location_ok {place : Option (Datum × Datum)} (located : location (orEmpty message) = .ok place) :
    IsMembers (message.get "chat") ∧ ∀ chat number, place = some (chat, number) ↔
      ((message.get "chat").get "id" = chat ∧ message.get "message_id" = number) ∧
        chat ≠ .null ∧ number ≠ .null := by
  simp only [location, bind_eq_ok, member_ok_iff, orEmpty_get, orEmpty_object] at located
  obtain ⟨_, ⟨object, rfl⟩, located⟩ := located
  obtain rfl := Except.ok.inj located
  refine ⟨object, fun chat number => ?_⟩
  generalize (message.get "chat").get "id" = id
  generalize message.get "message_id" = given
  split
  · refine iff_of_false nofun ?_
    rintro ⟨⟨rfl, -⟩, here, -⟩
    exact here rfl
  · refine iff_of_false nofun ?_
    rintro ⟨⟨-, rfl⟩, -, numbered⟩
    exact numbered rfl
  · next here numbered =>
    simp only [Option.some.injEq, Prod.mk.injEq]
    exact ⟨fun ⟨same, same'⟩ => ⟨⟨same, same'⟩, same ▸ here, same' ▸ numbered⟩, And.left⟩

theorem clearKeyboard_ok_iff_clears (c : TelegramChannel) (message : Datum) (d : Desk) :
    (clearKeyboard c (orEmpty message) d).1 = .ok () ↔ Clears message d.wire := by
  rw [clearKeyboard_ok_iff]
  constructor
  · rintro ⟨place, located, sent⟩
    obtain ⟨object, told⟩ := location_ok located
    exact ⟨object, fun here numbered => sent _ _ ((told _ _).2 ⟨⟨rfl, rfl⟩, here, numbered⟩)⟩
  · rintro ⟨object, sent⟩
    have chat : member (orEmpty (message.get "chat")) "id" = .ok ((message.get "chat").get "id") :=
      member_ok_iff.2 ⟨orEmpty_object.2 object, orEmpty_get ..⟩
    have located : ∃ place, location (orEmpty message) = .ok place := by
      simp only [location, orEmpty_get, chat, bind_eq_ok, Except.ok.injEq, exists_eq_left']
      exact ⟨_, rfl⟩
    obtain ⟨place, located⟩ := located
    refine ⟨place, located, fun chat number at' => ?_⟩
    obtain ⟨⟨rfl, rfl⟩, here, numbered⟩ := ((location_ok located).2 chat number).1 at'
    exact sent here numbered

def Cleared (c : TelegramChannel) (requests : List HttpRequest) : Prop :=
  requests = [] ∨ ∃ chat number,
    requests = [c.request .editMessageReplyMarkup (TelegramChannel.clearPayload chat number) 0]

theorem cleared_nothing (c : TelegramChannel) (w : Wire) :
    ∃ cleared, Cleared c cleared ∧ w.requests = w.requests ++ cleared :=
  ⟨[], .inl rfl, (List.append_nil _).symm⟩

theorem clearKeyboard_requests (c : TelegramChannel) (message : Datum) (d : Desk) :
    ∃ cleared, Cleared c cleared ∧
      (clearKeyboard c message d).2.wire.requests = d.wire.requests ++ cleared := by
  unfold clearKeyboard
  cases location message with
  | error f => exact cleared_nothing c d.wire
  | ok place =>
    obtain _ | ⟨chat, number⟩ := place
    · exact cleared_nothing c d.wire
    · have sent := c.carried_requests .editMessageReplyMarkup
        (TelegramChannel.clearPayload chat number) d.wire
      rw [← TelegramChannel.clearKeyboard_eq] at sent
      refine ⟨_, ?_, (?_ : _ = _).trans sent⟩
      · unfold TelegramChannel.sent
        split
        · exact .inr ⟨chat, number, rfl⟩
        · exact .inl rfl
      · dsimp only
        rcases c.clearKeyboard chat number d.wire with ⟨f | u, w⟩
        · dsimp only
          split <;> rfl
        · rfl

def answering (c : TelegramChannel) (query : Datum) (reply : PressReply) : HttpRequest :=
  c.request .answerCallbackQuery (TelegramChannel.answerPayload (query.get "id") reply.text) 0

theorem answer_requests (c : TelegramChannel) (query : Datum) (reply : PressReply) (d : Desk) :
    (answer c query reply d).2.wire.requests = d.wire.requests ++
      if (query.get "id").isTruthy && (query.get "id").isSendable then [answering c query reply] else [] := by
  unfold answer
  dsimp only
  cases given : (query.get "id").isTruthy with
  | false => simp
  | true =>
    have sent := c.carried_requests .answerCallbackQuery
      (TelegramChannel.answerPayload (query.get "id") reply.text) d.wire
    rw [← TelegramChannel.answerPress_eq, TelegramChannel.sent,
      TelegramChannel.answerPayload_isSendable] at sent
    simp only [if_true, Bool.true_and]
    refine (?_ : _ = _).trans sent
    rcases c.answerPress (query.get "id") reply.text d.wire with ⟨f | u, w⟩
    · dsimp only
      split <;> rfl
    · rfl

/-! ### What is told -/

theorem markDone_requests (c : TelegramChannel) (now : Instant) (id : String) (message : Datum) (d : Desk) :
    ∃ cleared, Cleared c cleared ∧
      (markDone c now id message d).2.wire.requests = d.wire.requests ++ cleared := by
  unfold markDone
  cases moment message with
  | error f => exact cleared_nothing c d.wire
  | ok sent =>
    dsimp only
    rcases record now id sent d.store with ⟨f | reply, store⟩
    · cases f <;> exact cleared_nothing c d.wire
    · obtain ⟨cleared, few, requests⟩ := clearKeyboard_requests c message { d with store }
      refine ⟨cleared, few, (?_ : _ = _).trans requests⟩
      dsimp only
      rcases clearKeyboard c message { d with store } with ⟨f | u, d'⟩
      · dsimp only
        split <;> rfl
      · rfl

/-- The ledger is left alone, and the text does not say that the press counted; or the completion is recorded,
and the text says so unless the keyboard is not taken off. -/
def Settled (now : Instant) (message : Datum) (d : Desk) (r : Except PressFault PressReply × Desk) : Prop :=
  (r.2.store.ledger = d.store.ledger ∧ ∃ reply, r.1 = .ok reply ∧ reply ≠ .done) ∨
    Records now d.store.ledger r.2.store.ledger ∧
      (r.1 = .ok .done ∧ Clears message d.wire ∨ (∃ f, r.1 = .error f) ∧ ¬ Clears message d.wire)

theorem markDone_settled {sent : Option Instant} (meant : moment (orEmpty message) = .ok sent)
    (c : TelegramChannel) (now : Instant) (id : String) (d : Desk) :
    Settled now message d (markDone c now id (orEmpty message) d) := by
  have recorded := record_cases now id sent d.store
  unfold Settled
  rw [markDone_recorded c now meant id d]
  simp only [markDone, meant]
  dsimp only at recorded
  generalize record now id sent d.store = recording at recorded ⊢
  obtain ⟨told, store⟩ := recording
  have cleared := clearKeyboard_ok_iff_clears c message { d with store }
  -- A keyboard that cannot be taken off is noted at a second press, and breaks the first one off.
  obtain ⟨⟨f, rfl⟩ | rfl, same⟩ | ⟨rfl, recorded⟩ := recorded
  · refine .inl ⟨same, .failed, ?_, by decide⟩
    cases f <;> rfl
  · refine .inl ⟨same, ?_⟩
    dsimp only
    rcases clearKeyboard c (orEmpty message) { d with store } with ⟨f | u, d'⟩
    · exact ⟨.failed, rfl, by decide⟩
    · exact ⟨.alreadyDone, rfl, by decide⟩
  · refine .inr ⟨recorded, ?_⟩
    dsimp only at cleared ⊢
    generalize clearKeyboard c (orEmpty message) { d with store } = clearing at cleared ⊢
    obtain ⟨f | u, d'⟩ := clearing
    · refine .inr ⟨⟨f, rfl⟩, fun clears => ?_⟩
      cases cleared.2 clears
    · exact .inl ⟨rfl, cleared.1 rfl⟩

theorem act_requests (c : TelegramChannel) (now : Instant) (query : Datum) (d : Desk) :
    ∃ cleared, Cleared c cleared ∧
      (act c now query d).2.wire.requests = d.wire.requests ++ cleared := by
  unfold act
  split
  · exact cleared_nothing c d.wire
  split
  · exact cleared_nothing c d.wire
  · exact cleared_nothing c d.wire
  · exact markDone_requests ..

theorem act_cases (members : List (String × Datum)) (c : TelegramChannel) (now : Instant) (d : Desk) :
    let query := Datum.obj members
    let r := act c now query d
    (¬ Readable query ∧ r.2.store.ledger = d.store.ledger ∧ ∃ f, r.1 = .error f) ∨
      Readable query ∧ Settled now (query.get "message") d r := by
  intro query r
  have data : member query "data" = .ok (query.get "data") := rfl
  simp only [r, act, data]
  cases asked : choreIdOf (query.get "data") with
  | error f =>
    refine .inl ⟨fun readable => ?_, rfl, f, rfl⟩
    obtain ⟨_, read⟩ := choreIdOf_ok_iff.2 readable.data
    rw [asked] at read
    cases read
  | ok asked' =>
    have text := choreIdOf_ok_iff.1 ⟨_, asked⟩
    cases asked' with
    | error reply =>
      refine .inr ⟨⟨text, fun id named => ?_, fun id named => ?_⟩,
        .inl ⟨rfl, reply, rfl, choreIdOf_not_done asked⟩⟩ <;>
        · rw [asked] at named
          cases named
    | ok id =>
      dsimp only
      cases meant : moment (orEmpty (query.get "message")) with
      | error f =>
        refine .inl ⟨fun readable => ?_, ?_⟩
        · obtain ⟨_, read⟩ := moment_ok_iff.2 ⟨readable.message id asked, readable.date id asked⟩
          rw [meant] at read
          cases read
        · simp only [markDone, meant]
          exact ⟨trivial, f, rfl⟩
      | ok sent =>
        obtain ⟨whole, inside⟩ := moment_ok_iff.1 ⟨_, meant⟩
        exact .inr ⟨⟨text, fun _ _ => whole, fun _ _ => inside⟩, markDone_settled meant c now id d⟩

theorem act_told (members : List (String × Datum)) (c : TelegramChannel) (now : Instant) (d : Desk) :
    let query := Datum.obj members
    let r := act c now query d
    let recorded := Records now d.store.ledger r.2.store.ledger
    ((∃ reply, r.1 = .ok reply) ↔ Readable query ∧ (recorded → Clears (query.get "message") d.wire)) ∧
    (recorded ∨ r.2.store.ledger = d.store.ledger) ∧
    ∀ reply, r.1 = .ok reply → (recorded ↔ reply = .done) := by
  intro query r recorded
  have unrecorded (same : r.2.store.ledger = d.store.ledger) : ¬ recorded := by
    unfold recorded
    rw [same]
    exact not_records_same now d.store.ledger
  obtain ⟨unread, same, f, failed⟩ | ⟨read, ⟨same, reply, told, other⟩ | ⟨done, told | told⟩⟩ :=
    act_cases members c now d
  · refine ⟨?_, .inr same, ?_⟩ <;> rw [show r.1 = .error f from failed]
    · exact iff_of_false (fun ⟨_, ok⟩ => nomatch ok) fun acted => unread acted.1
    · exact fun _ ok => nomatch ok
  · refine ⟨iff_of_true ⟨reply, told⟩ ⟨read, fun done => absurd done (unrecorded same)⟩, .inr same, ?_⟩
    rw [show r.1 = .ok reply from told]
    rintro _ ⟨⟩
    exact iff_of_false (unrecorded same) other
  · obtain ⟨told, clears⟩ := told
    refine ⟨iff_of_true ⟨.done, told⟩ ⟨read, fun _ => clears⟩, .inl done, ?_⟩
    rw [show r.1 = .ok .done from told]
    rintro _ ⟨⟩
    exact iff_of_true done rfl
  · obtain ⟨⟨f, failed⟩, unclear⟩ := told
    refine ⟨?_, .inl done, ?_⟩ <;> rw [show r.1 = .error f from failed]
    · exact iff_of_false (fun ⟨_, ok⟩ => nomatch ok) fun acted => unclear (acted.2 done)
    · exact fun _ ok => nomatch ok

theorem handle_cases (c : TelegramChannel) (now : Instant) (query : Datum) (d : Desk) :
    let acted := act c now query d
    (∃ f, acted.1 = .error f ∧ handle c now query d = (.error f, acted.2)) ∨
      ∃ reply, acted.1 = .ok reply ∧ handle c now query d = answer c query reply acted.2 := by
  unfold handle
  rcases act c now query d with ⟨f | reply, d'⟩
  · exact .inl ⟨f, rfl, rfl⟩
  · exact .inr ⟨reply, rfl, rfl⟩

/-- Whatever is sent and however the transport behaves, a press is told one of the texts unless a value cannot
be read or sent back or the transport breaks down, and the text says that it counted exactly if it did. A
press with an id that is told a text was answered once. -/
theorem press_told (c : TelegramChannel) (now : Instant) (members : List (String × Datum)) (d : Desk) :
    let query := Datum.obj members
    let r := handle c now query d
    let recorded := Records now d.store.ledger r.2.store.ledger
    let acted := Readable query ∧ (recorded → Clears (query.get "message") d.wire)
    let wire := (act c now query d).2.wire
    ((∃ reply, r.1 = .ok reply) ↔ acted ∧
      ((query.get "id").isTruthy = true → (query.get "id").isSendable = true ∧ ¬ wire.Breaks)) ∧
    (recorded ∨ r.2.store.ledger = d.store.ledger) ∧
    (∀ reply, r.1 = .ok reply → (recorded ↔ reply = .done)) ∧
    ∃ cleared answered, Cleared c cleared ∧ wire.requests = d.wire.requests ++ cleared ∧
      r.2.wire.requests = wire.requests ++ answered ∧
      (answered = [] ∨ ∃ reply, answered = [answering c query reply]) ∧
      (answered ≠ [] ↔ acted ∧ (query.get "id").isTruthy = true ∧ (query.get "id").isSendable = true) ∧
      ∀ reply, r.1 = .ok reply →
        answered = if (query.get "id").isTruthy then [answering c query reply] else [] := by
  intro query r recorded acted wire
  obtain ⟨told, ledger, done⟩ := act_told members c now d
  obtain ⟨cleared, few, requests⟩ := act_requests c now query d
  rw [← handle_store c now query d] at told ledger done
  obtain ⟨f, failed, same⟩ | ⟨reply, acts, same⟩ := handle_cases c now query d
  · have unacted : ¬ acted := fun acted => by
      obtain ⟨reply, ok⟩ := told.2 acted
      cases failed.symm.trans ok
    have untold (reply : PressReply) : r.1 ≠ .ok reply := by simp [r, same]
    exact ⟨iff_of_false (fun ⟨reply, ok⟩ => untold reply ok) fun both => unacted both.1, ledger,
      fun reply ok => absurd ok (untold reply), cleared, [], few, requests,
      (congrArg (·.2.wire.requests) same).trans (List.append_nil _).symm, .inl rfl,
      iff_of_false (· rfl) fun both => unacted both.1, fun reply ok => absurd ok (untold reply)⟩
  · have acted' : acted := told.1 ⟨reply, acts⟩
    have sent := answer_requests c query reply (act c now query d).2
    rw [← same] at sent
    have ok_iff (reply' : PressReply) : r.1 = .ok reply' ↔ reply = reply' ∧
        ((query.get "id").isTruthy = true → (query.get "id").isSendable = true ∧ ¬ wire.Breaks) := by
      unfold r
      rw [same]
      exact answer_ok_iff
    refine ⟨?_, ledger, fun reply' ok => ?_, cleared, _, few, requests, sent, ?_, ?_, fun reply' ok => ?_⟩
    · simp [ok_iff, acted']
    · obtain ⟨rfl, -⟩ := (ok_iff reply').1 ok
      exact done reply acts
    · split
      · exact .inr ⟨reply, rfl⟩
      · exact .inl rfl
    · simp [acted']
    · obtain ⟨rfl, sendable⟩ := (ok_iff reply').1 ok
      cases given : (query.get "id").isTruthy with
      | false => rfl
      | true => simp [(sendable given).1]

/-- The transport breaks down while the keyboard is taken off: the completion is recorded, and no text is
returned. -/
theorem press_breaks_off_recorded :
    let now : Instant := ⟨17733249 * Calendar.hour, by decide⟩
    let id := rowId "c0000000" 1
    let query := Datum.obj [("id", .str "cb1"), ("data", .str (TelegramChannel.buttonData id)),
      ("message", .obj [("chat", .obj [("id", .int 42)]), ("message_id", .int 77)])]
    let s := (Store.ofLedger .empty).write .createChore fun l =>
      l.createChore now "Plants" .onceInAWhile none none
    let r := handle ⟨"", 1, 1000⟩ now query ⟨s.2, ⟨[.broken "RuntimeError" "boom"], []⟩, []⟩
    r.1 = .error (.call (.broken "RuntimeError" "boom")) ∧ r.2.store.ledger.completions.length = 1 := by
  decide +kernel

end Press

end ChoreReminder
