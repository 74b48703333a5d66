import ChoreReminder.Telegram.Press

/-! The listener: it asks for updates again and again, each time from the offset after the last update
that it saw, and handles the presses among them. An update is passed once it was looked at, whatever
comes of its press; a poll that fails leaves the offset as it is. -/

namespace ChoreReminder

structure Listener where
  offset : Option Int
  wait : Int
  retryDelay : Nat
  deriving DecidableEq

namespace Listener

def advance (l : Listener) (update : Datum) : Listener :=
  match (update.get "update_id").wholeNumber? with
  | some n => { l with offset := some (n + 1) }
  | none => l

def handlePress (c : TelegramChannel) (now : Instant) (update : Datum) (d : Desk) :
    Option PressReply × Desk :=
  let query := update.get "callback_query"
  if query.isTruthy then
    match Press.handle c now query d with
    | (.ok reply, d) => (some reply, d)
    | (.error f, d) => (none, d.note (.pressNotHandled f))
  else (none, d)

def handleUpdate (c : TelegramChannel) (now : Instant) (l : Listener) (update : Datum) (d : Desk) :
    Except PollFault (Option PressReply) × Listener × Desk :=
  match update with
  | .obj _ =>
    let (reply, d) := handlePress c now update d
    (.ok reply, l.advance update, d)
  | _ => (.error (.lacks update.kindName), l, d)

/-- The updates of an answer: the items of a list, the names of an object, the letters of a text. -/
def updatesOf : Datum → Except PollFault (List Datum)
  | .list items => .ok items
  | .obj members => .ok (members.map Datum.memberName)
  | .str s => .ok (s.toList.map fun ch => .str ch.toString)
  | .halved t => .ok (t.units.map fun u => .ofText (.ofUnits [u]))
  | d => .error (.notMany d.kindName)

def handleUpdates (c : TelegramChannel) (now : Instant) :
    Listener → List Datum → Desk → Except PollFault Unit × Listener × Desk
  | l, [], d => (.ok (), l, d)
  | l, u :: rest, d =>
    match handleUpdate c now l u d with
    | (.ok _, l, d) => handleUpdates c now l rest d
    | (.error f, l, d) => (.error f, l, d)

def round (c : TelegramChannel) (now : Instant) (l : Listener) (d : Desk) :
    Except PollFault Unit × Listener × Desk :=
  match c.getUpdates l.offset l.wait d.wire with
  | (.error f, wire) => (.ok (), l, { d with wire }.note (.pollFailed l.retryDelay f))
  | (.ok answer, wire) =>
    match updatesOf answer with
    | .error f => (.error f, l, { d with wire })
    | .ok updates => handleUpdates c now l updates { d with wire }

/-- Rounds until no reply is left to come, at most `fuel` of them after the first. -/
def rounds (c : TelegramChannel) (now : Instant) :
    (fuel : Nat) → Listener → Desk → Except PollFault Unit × Listener × Desk
  | 0, l, d => round c now l d
  | fuel + 1, l, d =>
    match round c now l d with
    | (.error f, l, d) => (.error f, l, d)
    | (.ok (), l, d) => if d.wire.replies.isEmpty then (.ok (), l, d) else rounds c now fuel l d

/-- Listens until the round in which the last reply came in. Each round takes a reply at least. -/
def listen (c : TelegramChannel) (now : Instant) (l : Listener) (d : Desk) :
    Except PollFault Unit × Listener × Desk :=
  rounds c now d.wire.replies.length l d

end Listener

end ChoreReminder
