import ChoreReminder.Ledger.Direct
import ChoreReminder.Notify.Service
import ChoreReminder.Session.Senders
import ChoreReminder.Telegram.Listener
import ChoreReminder.Telegram.Webhook
import ChoreReminder.Web.Routes

/-! A session: the program from an empty store on, with a clock that stands still until it is set,
senders that are set up by hand, and a wire whose replies are given for each turn. A turn is one thing
that is done with the program. -/

namespace ChoreReminder

structure Session where
  now : Instant
  store : Store
  /-- The senders by name, in the order in which the names were first used. -/
  senders : List (String × Sender)
  channel : TelegramChannel
  listener : Listener
  /-- The files that were written. -/
  files : List (String × String) := []
  /-- Databases under other paths than the one of the store. -/
  others : List (String × Ledger) := []

/-- A turn: what it comes to, the requests on the wire, the notices, and the session after it. -/
structure Turn (α : Type) where
  result : α
  session : Session
  requests : List HttpRequest := []
  notices : List Notice := []

namespace Turn

variable {α β : Type}

def map (f : α → β) (t : Turn α) : Turn β := { t with result := f t.result }

end Turn

namespace Session

def start (now : Instant) (wait : Int) : Session where
  now := now
  store := .ofLedger .empty
  senders := []
  channel := { token := "1:abc", chatId := 42, timeout := 30000 }
  listener := { offset := none, wait, retryDelay := 0 }

def onStore {α : Type} (s : Session) (f : Store → Except LedgerFault α × Store) :
    Turn (Except LedgerFault α) :=
  let (result, store) := f s.store
  { result, session := { s with store } }

def change {α : Type} (s : Session) (call : Call) (f : Ledger → Except LedgerFault (α × Ledger)) :
    Turn (Except LedgerFault α) := s.onStore (·.write call f)

def look {α : Type} (s : Session) (call : Call) (f : Ledger → Except LedgerFault α) :
    Turn (Except LedgerFault α) := s.onStore (·.read call f)

def setClock (s : Session) (now : Instant) : Session := { s with now }

def reopen (s : Session) : Session := { s with store := .ofLedger s.store.ledger }

def setSender (s : Session) (name : String) (sender : Sender) : Session :=
  { s with senders := Stage.setSender name sender s.senders }

def removeSender (s : Session) (name : String) : Session :=
  { s with senders := s.senders.filter (·.1 ≠ name) }

def due (s : Session) (time : Option Stamp) (includeUpcoming : Bool) :
    Turn (Except LedgerFault (List DueInfo)) :=
  let (result, store, notices) := s.store.agenda (time.getD (.utc s.now)) includeUpcoming
  { result, session := { s with store }, notices }

def candidates (s : Session) : Turn (Except LedgerFault (List Chore)) :=
  match s.store.read .candidates fun l => .ok l.candidates with
  | (.error f, store) => { result := .error f, session := { s with store } }
  | (.ok (chores, skipped), store) =>
    { result := .ok chores, session := { s with store },
      notices := skipped.map fun (id, f) => .choreSkipped id f }

def generate (s : Session) (channels : List (Option String)) (time : Option Stamp) : Turn Nat :=
  let g := Generator.tick s.now (time.getD (.utc s.now)) channels s.store
  { result := g.count, session := { s with store := g.store }, notices := g.notices }

structure DispatchReport where
  summary : DispatchSummary
  sent : List (String × List PendingDelivery)

def dispatch (s : Session) (batchSize maxAttempts : Int) (wire : Wire) : Turn DispatchReport :=
  let (registry, replaced) := Stage.registry s.senders
  let d := Dispatcher.tick (Stage.send s.channel) registry s.now batchSize maxAttempts s.store
    (⟨s.senders, wire, []⟩ : Stage)
  { result := ⟨d.summary, d.senders.sentBy⟩
    session := { s with store := d.store, senders := d.senders.senders }
    requests := d.senders.wire.requests
    notices := replaced.map .senderReplaced ++ d.notices }

structure ServiceReport where
  jobs : List Job
  /-- Whether it was running before the start, after it, and after the stop. -/
  running : List Bool
  health : Health
  ticks : List (Nat × DispatchSummary)

def serve (s : Session) (settings : NotificationSettings) (ticks : Nat) (wire : Wire) :
    Turn (Except Overflow ServiceReport) :=
  let (registry, replaced) := Stage.registry s.senders
  let replaced := replaced.map Notice.senderReplaced
  let idle := Service.ofSettings settings
  match idle.start s.now with
  | .error o => { result := .error o, session := s, notices := replaced }
  | .ok service =>
    let (summaries, store, stage, notices) := service.ticks (Stage.send s.channel) registry s.now
      ticks s.store (⟨s.senders, wire, []⟩ : Stage)
    { result := .ok {
        jobs := service.jobs
        running := [idle.running, service.running, service.stop.running]
        health := .ofService (some (service, registry))
        ticks := summaries }
      session := { s with store, senders := stage.senders }
      requests := stage.wire.requests
      notices := replaced ++ notices }

/-- The store and the wire as they are at hand while updates are handled. -/
def desk (s : Session) (wire : Wire) : Desk := ⟨s.store, wire, []⟩

def leave {α : Type} (s : Session) (result : α) (d : Desk) : Turn α :=
  { result, session := { s with store := d.store }, requests := d.wire.requests, notices := d.notices }

def press (s : Session) (query : Datum) (wire : Wire) : Turn (Except PressFault PressReply) :=
  let (result, d) := Press.handle s.channel s.now query (s.desk wire)
  s.leave result d

def update (s : Session) (update : Datum) (wire : Wire) :
    Turn (Except PollFault (Option PressReply)) :=
  let (result, listener, d) := s.listener.handleUpdate s.channel s.now update (s.desk wire)
  { s with listener }.leave result d

def poll (s : Session) (wire : Wire) : Turn (Except PollFault Unit) :=
  let (result, listener, d) := s.listener.listen s.channel s.now (s.desk wire)
  { s with listener }.leave result d

def get (s : Session) (target : String) : Turn WebReply :=
  let (result, store, notices) :=
    Web.get (none : Option (Service × Registry String)) s.now target s.store
  { result, session := { s with store }, notices }

def post (s : Session) (enabled : Bool) (secret : String) (token : Option String) (bytes : List Nat)
    (wire : Wire) : Turn (Except WebhookFault WebReply) :=
  let webhook : Webhook := ⟨if enabled then some s.channel else none, secret⟩
  let (result, d) := webhook.post s.now token bytes (s.desk wire)
  s.leave result d

end Session

end ChoreReminder
