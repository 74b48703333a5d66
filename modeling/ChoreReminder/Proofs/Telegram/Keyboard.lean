import ChoreReminder.Proofs.Notify.Tick
import ChoreReminder.Proofs.Telegram.Call
import ChoreReminder.Proofs.Telegram.Press
import ChoreReminder.Proofs.Text.Uuid

/-! The keyboard under a message. A tick of the dispatcher posts one message for each delivery that it attempts
on a channel of this kind, whatever comes of it and of the others. The button under the message carries the id
of the chore, and the press of a button with this data is read as one for the chore. -/

namespace ChoreReminder

/-! ### What is posted -/

namespace TelegramChannel

def sendRequest (c : TelegramChannel) (p : PendingDelivery) : HttpRequest :=
  c.request .sendMessage (c.sendPayload p) 0

def verdict (reply : HttpReply) : Except SendFault Unit :=
  match outcome .sendMessage reply with
  | .ok _ => .ok ()
  | .error f => .error (sendFault f)

theorem send_eq (c : TelegramChannel) (p : PendingDelivery) (w : Wire) :
    c.send p w = (verdict w.reply, w.after (c.sendRequest p)) := by
  have called : c.call .sendMessage (c.sendPayload p) 0 w = (_, w.after (c.sendRequest p)) := call_eq rfl
  unfold send verdict
  rw [called]
  cases outcome .sendMessage w.reply <;> rfl

theorem send_wire (c : TelegramChannel) (p : PendingDelivery) (w : Wire) :
    (c.send p w).2 = w.after (c.sendRequest p) := congrArg Prod.snd (c.send_eq p w)

end TelegramChannel

namespace Dispatcher

variable {β σ : Type} (other : β → PendingDelivery → σ → Except SendFault Unit × σ)
  (registry : Registry (TelegramChannel ⊕ β)) (now : Instant) (maxAttempts : Int)

/-- How the senders of all channels act, those that post over the wire and the others, which have a state of
their own. -/
def sendEither : TelegramChannel ⊕ β → PendingDelivery → Wire × σ → Except SendFault Unit × (Wire × σ)
  | .inl c, p, (w, x) => ((c.send p w).1, ((c.send p w).2, x))
  | .inr b, p, (w, x) => ((other b p x).1, (w, (other b p x).2))

def poster? (p : PendingDelivery) : Option TelegramChannel :=
  (registry.get? p.channel).bind Sum.getLeft?

def posted (ps : List PendingDelivery) : List (TelegramChannel × PendingDelivery) :=
  ps.filterMap fun p => (poster? registry p).map (·, p)

def postRequests (ps : List PendingDelivery) : List HttpRequest :=
  (posted registry ps).map fun (c, p) => c.sendRequest p

theorem mem_posted {ps : List PendingDelivery} {c : TelegramChannel} {p : PendingDelivery} :
    (c, p) ∈ posted registry ps ↔ p ∈ ps ∧ poster? registry p = some c := by
  simp only [posted, List.mem_filterMap, Option.map_eq_some_iff, Prod.mk.injEq]
  constructor
  · rintro ⟨q, member, c', poster, rfl, rfl⟩
    exact ⟨member, poster⟩
  · rintro ⟨member, poster⟩
    exact ⟨p, member, c, poster, rfl, rfl⟩

theorem attempt_senders {α : Type} (send : α → PendingDelivery → σ → Except SendFault Unit × σ)
    (registry : Registry α) (d : Dispatched σ) (p : PendingDelivery) :
    (attempt send registry now maxAttempts d p).senders =
      match registry.get? p.channel with
      | none => d.senders
      | some sender => (send sender p d.senders).2 := by
  unfold attempt
  cases registry.get? p.channel with
  | none => exact recordFailure_senders now _ _ _
  | some sender =>
    dsimp only
    rcases send sender p d.senders with ⟨f | sent, senders⟩
    · exact recordFailure_senders now _ _ _
    · exact recordSuccess_senders now _ _

theorem postRequests_cons (p : PendingDelivery) (ps : List PendingDelivery) :
    postRequests registry (p :: ps) =
      ((poster? registry p).map (·.sendRequest p)).toList ++ postRequests registry ps := by
  unfold postRequests posted
  cases h : poster? registry p <;> simp [h]

theorem attempt_requests (d : Dispatched (Wire × σ)) (p : PendingDelivery) :
    (attempt (sendEither other) registry now maxAttempts d p).senders.1.requests =
      d.senders.1.requests ++ ((poster? registry p).map (·.sendRequest p)).toList := by
  rw [attempt_senders]
  obtain ⟨w, x⟩ := d.senders
  unfold poster?
  cases registry.get? p.channel with
  | none => exact (List.append_nil _).symm
  | some sender =>
    cases sender with
    | inl c => exact congrArg Wire.requests (c.send_wire p w)
    | inr b => exact (List.append_nil _).symm

theorem attempts_requests (ps : List PendingDelivery) (d : Dispatched (Wire × σ)) :
    (ps.foldl (attempt (sendEither other) registry now maxAttempts) d).senders.1.requests =
      d.senders.1.requests ++ postRequests registry ps := by
  induction ps generalizing d with
  | nil => exact (List.append_nil _).symm
  | cons p rest ih => rw [List.foldl_cons, ih, attempt_requests, List.append_assoc, postRequests_cons]

theorem tick_requests (batchSize : Int) (s : Store) (senders : Wire × σ) :
    let d := tick (sendEither other) registry now batchSize maxAttempts s senders
    d.senders.1.requests = senders.1.requests ++ postRequests registry (d.attempts.map (·.delivery)) := by
  intro d
  have ticked : d = tick (sendEither other) registry now batchSize maxAttempts s senders := rfl
  unfold tick at ticked
  split at ticked
  · rw [ticked]
    exact (List.append_nil _).symm
  · next ps s' _ =>
    rw [ticked, attempts_requests,
      (attempts_eq (sendEither other) registry now maxAttempts ps ⟨[], s', senders, []⟩).1, List.nil_append,
      attemptsAt_deliveries]

end Dispatcher

/-! ### What is read -/

def Datum.listed : Datum → List Datum
  | .list items => items
  | _ => []

def HttpRequest.buttons (r : HttpRequest) : List Datum :=
  ((r.payload.get "reply_markup").get "inline_keyboard").listed.flatMap fun row =>
    row.listed.map (·.get "callback_data")

namespace TelegramChannel

theorem buttons_sendRequest (c : TelegramChannel) (p : PendingDelivery) :
    (c.sendRequest p).buttons = [.str (buttonData p.choreId)] := rfl

theorem buttonData_inj {id id' : String} : buttonData id = buttonData id' ↔ id = id' :=
  String.append_right_inj doneMark

end TelegramChannel

namespace Press

open TelegramChannel (buttonData doneMark)

variable {id : String} {query : Datum}

theorem afterMark?_buttonData (id : String) : afterMark? (buttonData id) = some id.toList := by
  have text : (buttonData id).toList = doneMark.toList ++ id.toList := String.toList_append ..
  unfold afterMark?
  dsimp only
  rw [text, if_pos (List.isPrefixOf_iff_prefix.2 (List.prefix_append ..)), List.drop_left]

theorem choreIdOf_button (text : String) : choreIdOf (.str (buttonData text)) =
    .ok (match Text.readUuid? text.toList with
      | none => .error .invalidId
      | some n => .ok (Text.uuidText n)) := by
  have truthy : (Datum.str (buttonData text)).isTruthy = true := by
    simp [Datum.isTruthy, buttonData, doneMark]
  simp only [choreIdOf, truthy, Bool.not_true, Bool.false_eq_true, if_false, afterMark?_buttonData]
  cases Text.readUuid? text.toList <;> rfl

theorem choreIdOf_buttonData (uuid : Text.IsUuid id) : choreIdOf (.str (buttonData id)) = .ok (.ok id) := by
  obtain ⟨n, read, written⟩ := uuid.read
  simp only [choreIdOf_button, read, written]

theorem named?_of_button (uuid : Text.IsUuid id) (data : member query "data" = .ok (.str (buttonData id))) :
    named? query = some id := by
  simp only [named?, data, Except.bind, choreIdOf_buttonData uuid]

end Press

end ChoreReminder
