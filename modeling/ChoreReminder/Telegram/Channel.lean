import ChoreReminder.Http.Wire
import ChoreReminder.Ledger.Deliveries
import ChoreReminder.Text.Html

/-! The Telegram channel: messages to one chat through a bot. A call is good only if the remote side
answers with status 200 and an object that says so; whatever else comes back is a refusal with its
reason. A transport that breaks down is not a refusal and is passed on as it is. -/

namespace ChoreReminder

inductive BotMethod where
  | sendMessage
  | answerCallbackQuery
  | editMessageReplyMarkup
  | getUpdates
  deriving DecidableEq, Repr

def BotMethod.name : BotMethod → String
  | sendMessage => "sendMessage"
  | answerCallbackQuery => "answerCallbackQuery"
  | editMessageReplyMarkup => "editMessageReplyMarkup"
  | getUpdates => "getUpdates"

inductive CallFault where
  /-- The exchange failed on the way. -/
  | lost (method : BotMethod) (kind : String) (text : LooseText)
  /-- The answer is a document but no object. -/
  | notAnObject (method : BotMethod) (status : Int)
  | refused (method : BotMethod) (status : Int) (reason : LooseText)
  /-- The transport broke down. -/
  | broken (kind : String) (text : LooseText)
  | unsendable (fault : PayloadFault)
  deriving DecidableEq

namespace CallFault

def isRefusal : CallFault → Bool
  | lost .. | notAnObject .. | refused .. => true
  | broken .. | unsendable _ => false

def message : CallFault → LooseText
  | lost method kind text => method.name ++ " request error: " ++ kind ++ ": " ++ text
  | notAnObject method status =>
    method.name ++ " returned " ++ toString status ++ ": unexpected response body"
  | refused method status reason => method.name ++ " returned " ++ toString status ++ ": " ++ reason
  | broken _ text => text
  | unsendable fault => fault.message

end CallFault

inductive SendFault where
  | refused (text : LooseText)
  | broken (kind : String) (text : LooseText)
  deriving DecidableEq

namespace SendFault

def text : SendFault → LooseText
  | refused text => text
  | broken _ text => text

def kind : SendFault → String
  | refused _ => "ChannelSendError"
  | broken kind _ => kind

/-- What is noted of a fault: its text, or its kind if it has none. -/
def reason (f : SendFault) : LooseText := if f.text = "" then f.kind else f.text

end SendFault

structure BadChatId where
  shown : LooseText
  deriving DecidableEq

def BadChatId.message (b : BadChatId) : LooseText :=
  "Invalid chat_id '" ++ b.shown ++ "': expected numeric chat id"

/-- A bot and the chat to which it writes; the timeout is in milliseconds. -/
structure TelegramChannel where
  token : String
  chatId : Int
  timeout : Int
  deriving DecidableEq

namespace TelegramChannel

def channelName : String := "telegram"

def ofChatId (token : String) (chatId : Datum) (timeout : Int) : Except BadChatId TelegramChannel :=
  let number := match chatId.display with
    | .whole s => Text.readInt? (Text.trimBy Text.isBlank s.toList)
    | .halved _ => none
  match number with
  | some n => .ok ⟨token, n, timeout⟩
  | none => .error ⟨chatId.display⟩

def address (c : TelegramChannel) (method : BotMethod) : String :=
  writtenAddress ("https://api.telegram.org/bot" ++ c.token ++ "/" ++ method.name)

def maxReason : Nat := 200

def interpret (method : BotMethod) (status : Int) (body : String) : Except CallFault Datum :=
  let data := (Datum.Json.readSent? body).getD (.obj [])
  match data with
  | .obj _ =>
    if status = 200 ∧ (data.get "ok").isTruthy then .ok (data.get "result")
    else
      let description := data.get "description"
      .error (.refused method status
        (if description.isTruthy then description.display
         else .whole (String.ofList (body.toList.take maxReason))))
  | _ => .error (.notAnObject method status)

/-- Calls a method. A timeout of zero stands for the timeout of the channel. -/
def call (c : TelegramChannel) (method : BotMethod) (payload : Datum) (timeout : Int) (w : Wire) :
    Except CallFault Datum × Wire :=
  if payload.isSendable then
    let request : HttpRequest :=
      ⟨c.address method, payload, if timeout = 0 then c.timeout else timeout⟩
    match w.exchange request with
    | (.answer status body, w) => (interpret method status body, w)
    | (.lost kind text, w) => (.error (.lost method kind text), w)
    | (.broken kind text, w) => (.error (.broken kind text), w)
  else (.error (.unsendable payload.payloadFault), w)

def messageText (title body : String) : String :=
  "<b>" ++ Text.escapeHtml title ++ "</b>\n" ++ Text.escapeHtml body

def doneMark : String := "done:"

def buttonData (choreId : String) : String := doneMark ++ choreId

def keyboard (choreId : String) : Datum :=
  .obj [("inline_keyboard", .list [.list [.obj [("text", .str "Mark done"),
    ("callback_data", .str (buttonData choreId))]]])]

def sendPayload (c : TelegramChannel) (d : PendingDelivery) : Datum :=
  .obj [("chat_id", .int c.chatId), ("text", .str (messageText d.title d.body)),
    ("parse_mode", .str "HTML"), ("reply_markup", keyboard d.choreId)]

def sendFault (f : CallFault) : SendFault :=
  match f with
  | .broken kind text => .broken kind text
  | .unsendable fault => .broken fault.kind fault.message
  | _ => .refused ("Telegram send failed: " ++ f.message)

def send (c : TelegramChannel) (d : PendingDelivery) (w : Wire) : Except SendFault Unit × Wire :=
  match c.call .sendMessage (c.sendPayload d) 0 w with
  | (.ok _, w) => (.ok (), w)
  | (.error f, w) => (.error (sendFault f), w)

def answerPress (c : TelegramChannel) (pressId : Datum) (text : String) (w : Wire) :
    Except CallFault Unit × Wire :=
  let payload := Datum.obj [("callback_query_id", pressId), ("text", .str text)]
  match c.call .answerCallbackQuery payload 0 w with
  | (.ok _, w) => (.ok (), w)
  | (.error f, w) => (.error f, w)

def clearKeyboard (c : TelegramChannel) (chatId messageId : Datum) (w : Wire) :
    Except CallFault Unit × Wire :=
  let payload := Datum.obj [("chat_id", chatId), ("message_id", messageId),
    ("reply_markup", .obj [("inline_keyboard", .list [])])]
  match c.call .editMessageReplyMarkup payload 0 w with
  | (.ok _, w) => (.ok (), w)
  | (.error f, w) => (.error f, w)

/-- Seconds by which the timeout of a request outlives the time for which updates are awaited. -/
def pollMargin : Int := 10

/-- Asks for updates from an offset on, waiting so many seconds for the first. Nothing counts as no
updates. -/
def getUpdates (c : TelegramChannel) (offset : Option Int) (wait : Int) (w : Wire) :
    Except CallFault Datum × Wire :=
  let payload := Datum.obj ([("timeout", .int wait),
    ("allowed_updates", .list [.str "callback_query"])]
      ++ (offset.map fun n => ("offset", Datum.int n)).toList)
  match c.call .getUpdates payload ((wait + pollMargin) * 1000) w with
  | (.ok d, w) => (.ok (if d.isTruthy then d else .list []), w)
  | (.error f, w) => (.error f, w)

end TelegramChannel

end ChoreReminder
