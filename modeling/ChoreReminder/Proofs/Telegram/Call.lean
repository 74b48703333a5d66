import ChoreReminder.Telegram.Channel

/-! Calls over the wire. A call whose payload has a JSON text sends one request and uses up one reply, and what
it comes to depends on that reply alone; any other call sends nothing. A failed call is a refusal unless its
payload has no JSON text or the transport breaks down. -/

namespace ChoreReminder

namespace Wire

def reply (w : Wire) : HttpReply := w.replies.head?.getD defaultReply

def after (w : Wire) (r : HttpRequest) : Wire := ⟨w.replies.tail, w.requests ++ [r]⟩

def Breaks (w : Wire) : Prop := ∃ kind text, w.reply = .broken kind text

theorem exchange_eq (w : Wire) (r : HttpRequest) : w.exchange r = (w.reply, w.after r) := by
  obtain ⟨_ | ⟨reply, rest⟩, requests⟩ := w <;> rfl

end Wire

namespace TelegramChannel

variable {c : TelegramChannel} {method : BotMethod} {payload : Datum} {timeout : Int} {w : Wire}

def request (c : TelegramChannel) (method : BotMethod) (payload : Datum) (timeout : Int) : HttpRequest :=
  ⟨c.address method, payload, if timeout = 0 then c.timeout else timeout⟩

def outcome (method : BotMethod) : HttpReply → Except CallFault Datum
  | .answer status body => interpret method status body
  | .lost kind text => .error (.lost method kind text)
  | .broken kind text => .error (.broken kind text)

theorem call_eq (sendable : payload.isSendable = true) : c.call method payload timeout w =
    (outcome method w.reply, w.after (c.request method payload timeout)) := by
  simp only [call, sendable, if_true, Wire.exchange_eq]
  cases h : w.reply <;> rfl

theorem call_unsendable (unsendable : payload.isSendable = false) :
    c.call method payload timeout w = (.error (.unsendable payload.payloadFault), w) := by
  simp only [call, unsendable, Bool.false_eq_true, if_false]

theorem interpret_refusal {status : Int} {body : String} {f : CallFault}
    (failed : interpret method status body = .error f) : f.isRefusal = true := by
  unfold interpret at failed
  dsimp only at failed
  split at failed
  · split at failed
    · cases failed
    · cases failed
      rfl
  · cases failed
    rfl

theorem outcome_isRefusal {reply : HttpReply} {f : CallFault} (failed : outcome method reply = .error f) :
    f.isRefusal = true ↔ ∀ kind text, reply ≠ .broken kind text := by
  cases reply with
  | answer status body => simp [interpret_refusal failed]
  | lost kind text =>
    cases failed
    simp [CallFault.isRefusal]
  | broken kind text =>
    cases failed
    simp [CallFault.isRefusal]

/-! ### Calls whose result is passed over -/

def carried (c : TelegramChannel) (method : BotMethod) (payload : Datum) (w : Wire) :
    Except CallFault Unit × Wire :=
  let (result, w) := c.call method payload 0 w
  (result.map fun _ => (), w)

def sent (c : TelegramChannel) (method : BotMethod) (payload : Datum) : List HttpRequest :=
  if payload.isSendable then [c.request method payload 0] else []

theorem carried_unsendable (unsendable : payload.isSendable = false) :
    c.carried method payload w = (.error (.unsendable payload.payloadFault), w) := by
  simp only [carried, call_unsendable unsendable]
  rfl

theorem carried_eq (sendable : payload.isSendable = true) : c.carried method payload w =
    ((outcome method w.reply).map fun _ => (), w.after (c.request method payload 0)) := by
  simp only [carried, call_eq sendable]

theorem carried_requests (c : TelegramChannel) (method : BotMethod) (payload : Datum) (w : Wire) :
    (c.carried method payload w).2.requests = w.requests ++ c.sent method payload := by
  unfold sent
  split
  · next sendable => rw [carried_eq sendable]; rfl
  · next unsendable =>
    rw [carried_unsendable (by simpa using unsendable), List.append_nil]

theorem carried_refused_iff (c : TelegramChannel) (method : BotMethod) (payload : Datum) (w : Wire) :
    (∀ f, (c.carried method payload w).1 = .error f → f.isRefusal = true) ↔
      payload.isSendable = true ∧ ¬ w.Breaks := by
  cases sendable : payload.isSendable with
  | false => simp [carried_unsendable sendable, CallFault.isRefusal]
  | true =>
    have whole : ¬ w.Breaks ↔ ∀ kind text, w.reply ≠ .broken kind text := by simp [Wire.Breaks]
    rw [carried_eq sendable, whole]
    simp only [true_and]
    cases came : outcome method w.reply with
    | error f => simpa [Except.map] using outcome_isRefusal came
    | ok d =>
      refine ⟨fun _ kind text broken => ?_, fun _ f failed => by cases failed⟩
      rw [broken] at came
      cases came

def clearPayload (chat number : Datum) : Datum :=
  .obj [("chat_id", chat), ("message_id", number), ("reply_markup", .obj [("inline_keyboard", .list [])])]

theorem clearPayload_isSendable (chat number : Datum) :
    (clearPayload chat number).isSendable = (chat.isSendable && number.isSendable) := by
  simp [clearPayload, Datum.isSendable, Datum.isWritable, Datum.haveWritable, Datum.areWritable]

theorem clearKeyboard_eq (c : TelegramChannel) (chat number : Datum) (w : Wire) :
    c.clearKeyboard chat number w = c.carried .editMessageReplyMarkup (clearPayload chat number) w := by
  unfold clearKeyboard carried clearPayload
  dsimp only
  rcases c.call _ _ _ _ with ⟨_ | _, _⟩ <;> rfl

def answerPayload (pressId : Datum) (text : String) : Datum :=
  .obj [("callback_query_id", pressId), ("text", .str text)]

theorem answerPayload_isSendable (pressId : Datum) (text : String) :
    (answerPayload pressId text).isSendable = pressId.isSendable := by
  simp [answerPayload, Datum.isSendable, Datum.isWritable, Datum.haveWritable]

theorem answerPress_eq (c : TelegramChannel) (pressId : Datum) (text : String) (w : Wire) :
    c.answerPress pressId text w = c.carried .answerCallbackQuery (answerPayload pressId text) w := by
  unfold answerPress carried answerPayload
  dsimp only
  rcases c.call _ _ _ _ with ⟨_ | _, _⟩ <;> rfl

/-! ### Asking for updates -/

def updatesPayload (offset : Option Int) (wait : Int) : Datum :=
  .obj ([("timeout", .int wait), ("allowed_updates", .list [.str "callback_query"])]
    ++ (offset.map fun n => ("offset", Datum.int n)).toList)

def updatesRequest (c : TelegramChannel) (offset : Option Int) (wait : Int) : HttpRequest :=
  c.request .getUpdates (updatesPayload offset wait) ((wait + pollMargin) * 1000)

theorem updatesRequest_offset (c : TelegramChannel) (offset : Option Int) (wait : Int) :
    ((c.updatesRequest offset wait).payload.get "offset").wholeNumber? = offset := by
  cases offset <;> rfl

theorem getUpdates_eq (offset : Option Int) (wait : Int) : c.getUpdates offset wait w =
    ((outcome .getUpdates w.reply).map fun d => if d.isTruthy then d else .list [],
      w.after (c.updatesRequest offset wait)) := by
  have sendable : (updatesPayload offset wait).isSendable = true := by cases offset <;> rfl
  have called : c.call .getUpdates (updatesPayload offset wait) ((wait + pollMargin) * 1000) w = _ :=
    call_eq sendable
  unfold updatesPayload at called
  unfold getUpdates
  dsimp only
  rw [called]
  cases outcome .getUpdates w.reply <;> rfl

end TelegramChannel

end ChoreReminder
