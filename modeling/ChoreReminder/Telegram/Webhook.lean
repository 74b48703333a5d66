import ChoreReminder.Telegram.Press
import ChoreReminder.Web.Reply

/-! Updates that are brought to the program. The one who brings an update has to know the secret, if one
is set; both are compared as ASCII texts, and others cannot be compared. Only then is the body
looked at. -/

namespace ChoreReminder

structure Webhook where
  channel : Option TelegramChannel
  secret : String

inductive WebhookFault where
  /-- The secret or what was given for it goes beyond ASCII. -/
  | incomparable
  | press (fault : PressFault)
  deriving DecidableEq

namespace Webhook

def refusal (status : Nat) (text : String) : WebReply := ⟨status, some (.obj [("error", .str text)])⟩

def taken (text : Option String) : WebReply :=
  .ok (.obj [("ok", .bool true), ("result", .optionalText text)])

def isAscii (s : String) : Bool := s.toList.all (·.toNat < 0x80)

def admits (h : Webhook) (token : Option String) : Except WebhookFault Bool :=
  if h.secret = "" then .ok true
  else
    let given := token.getD ""
    if isAscii given && isAscii h.secret then .ok (given == h.secret) else .error .incomparable

def handleBody (c : TelegramChannel) (now : Instant) (body : Option Datum) (d : Desk) :
    Except WebhookFault WebReply × Desk :=
  match body with
  | some (.obj members) =>
    let query := (Datum.obj members).get "callback_query"
    if query.isTruthy then
      match Press.handle c now query d with
      | (.ok reply, d) => (.ok (taken (some reply.text)), d)
      | (.error f, d) => (.error (.press f), d)
    else (.ok (taken none), d)
  | _ => (.ok (refusal 400 "Invalid update body"), d)

def post (h : Webhook) (now : Instant) (token : Option String) (bytes : List Nat) (d : Desk) :
    Except WebhookFault WebReply × Desk :=
  match h.channel with
  | none => (.ok (refusal 404 "Telegram channel not enabled"), d)
  | some c =>
    match h.admits token with
    | .error f => (.error f, d)
    | .ok false => (.ok (refusal 403 "Invalid secret token"), d)
    | .ok true => handleBody c now (Datum.Json.readBytes? bytes) d

end Webhook

end ChoreReminder
