import ChoreReminder.Ledger.Store
import ChoreReminder.Log.Notice
import ChoreReminder.Text.Uuid

/-! Presses of the button under a notification. A press that names a chore records one completion of it,
unless a completion at or after the moment of the message is there already: then the button was
pressed before. The person who pressed it is told what came of it. -/

namespace ChoreReminder

structure Desk where
  store : Store
  wire : Wire
  notices : List Notice

def Desk.note (d : Desk) (n : Notice) : Desk := { d with notices := d.notices ++ [n] }

inductive PressReply where
  | noAction
  | unsupported
  | invalidId
  | alreadyDone
  | failed
  | done
  deriving DecidableEq, Repr

def PressReply.text : PressReply → String
  | noAction => "No action attached"
  | unsupported => "Unsupported action"
  | invalidId => "Invalid chore id"
  | alreadyDone => "Already marked done"
  | failed => "Failed to mark done"
  | done => "Marked done"

namespace Press

def notes : String := "Completed via Telegram"

def member (d : Datum) (name : String) : Except PressFault Datum :=
  match d with
  | .obj _ => .ok (d.get name)
  | _ => .error (.lacks d.kindName "get")

def orEmpty (d : Datum) : Datum := if d.isTruthy then d else .obj []

def epochSeconds : Int := 62135596800

/-- The year that a number of seconds since 1970 falls into, also outside the calendar. -/
def yearOfSeconds (n : Int) : Int :=
  let days := (n + epochSeconds) / 86400
  400 * (days / 146097) + (Calendar.yearOf (days % 146097).toNat : Int)

/-- The instant of a number of seconds since 1970. Years are counted from 1900 in 32 bits. -/
def instantOfSeconds (n : Int) : Except PressFault Instant :=
  if !fitsWord 64 n then .error .momentWord
  else if !fitsWord 32 (yearOfSeconds n - 1900) then .error .unrepresentable
  else
    match Instant.ofMicros? ((n + epochSeconds) * Calendar.second) with
    | some i => .ok i
    | none => .error (.year (Int.bmod (yearOfSeconds n) (twoPow 32)))

def moment (message : Datum) : Except PressFault (Option Instant) := do
  match (← member message "date").wholeNumber? with
  | some n => (instantOfSeconds n).map some
  | none => return none

def location (message : Datum) : Except PressFault (Option (Datum × Datum)) := do
  let chat ← member (orEmpty (message.get "chat")) "id"
  let number := message.get "message_id"
  return match chat, number with
    | .null, _ => none
    | _, .null => none
    | _, _ => some (chat, number)

def clearKeyboard (c : TelegramChannel) (message : Datum) (d : Desk) : Except PressFault Unit × Desk :=
  match location message with
  | .error f => (.error f, d)
  | .ok none => (.ok (), d)
  | .ok (some (chat, number)) =>
    match c.clearKeyboard chat number d.wire with
    | (.ok (), wire) => (.ok (), { d with wire })
    | (.error f, wire) =>
      if f.isRefusal then (.ok (), { d with wire }.note (.keyboardNotCleared f))
      else (.error (.call f), { d with wire })

/-- Records the completion unless the chore was completed since the moment of the message. -/
def record (now : Instant) (choreId : String) (sent : Option Instant) (s : Store) :
    Except LedgerFault PressReply × Store :=
  let complete (s : Store) : Except LedgerFault PressReply × Store :=
    match s.write .complete fun l => l.complete now choreId none (some notes) with
    | (.ok _, s) => (.ok .done, s)
    | (.error f, s) => (.error f, s)
  match sent with
  | none => complete s
  | some t =>
    match s.read .completionExists fun l => l.completionExists choreId (some (.utc t)) with
    | (.error f, s) => (.error f, s)
    | (.ok true, s) => (.ok .alreadyDone, s)
    | (.ok false, s) => complete s

/-- Marks a chore done. What goes wrong in the ledger, or at a second press, is noted; what goes wrong
after the completion is recorded is passed on. -/
def markDone (c : TelegramChannel) (now : Instant) (choreId : String) (message : Datum) (d : Desk) :
    Except PressFault PressReply × Desk :=
  match moment message with
  | .error f => (.error f, d)
  | .ok sent =>
    match record now choreId sent d.store with
    | (.error (.choreNotFound _), store) =>
      (.ok .failed, { d with store }.note (.pressOnUnknownChore choreId))
    | (.error f, store) =>
      (.ok .failed, { d with store }.note (.pressFailed choreId (.ledger f)))
    | (.ok reply, store) =>
      match clearKeyboard c message { d with store } with
      | (.ok (), d) => (.ok reply, d)
      | (.error f, d) =>
        if reply = .alreadyDone then (.ok .failed, d.note (.pressFailed choreId f))
        else (.error f, d)

def afterMark? (s : String) : Option (List Char) :=
  let mark := TelegramChannel.doneMark.toList
  if mark.isPrefixOf s.toList then some (s.toList.drop mark.length) else none

/-- What the data of a button asks for: nothing to do, or the id of a chore that is done. -/
def choreIdOf (data : Datum) : Except PressFault (Except PressReply String) :=
  if !data.isTruthy then .ok (.error .noAction)
  else
    match data with
    | .str s =>
      match afterMark? s with
      | none => .ok (.error .unsupported)
      | some rest =>
        match Text.readUuid? rest with
        | none => .ok (.error .invalidId)
        | some n => .ok (.ok (Text.uuidText n))
    | .halved t => .ok (.error (if (afterMark? t.front).isSome then .invalidId else .unsupported))
    | _ => .error (.lacks data.kindName "startswith")

def act (c : TelegramChannel) (now : Instant) (query : Datum) (d : Desk) :
    Except PressFault PressReply × Desk :=
  match member query "data" with
  | .error f => (.error f, d)
  | .ok data =>
    match choreIdOf data with
    | .error f => (.error f, d)
    | .ok (.error reply) => (.ok reply, d)
    | .ok (.ok choreId) => markDone c now choreId (orEmpty (query.get "message")) d

def answer (c : TelegramChannel) (query : Datum) (reply : PressReply) (d : Desk) :
    Except PressFault PressReply × Desk :=
  let id := query.get "id"
  if id.isTruthy then
    match c.answerPress id reply.text d.wire with
    | (.ok (), wire) => (.ok reply, { d with wire })
    | (.error f, wire) =>
      if f.isRefusal then (.ok reply, { d with wire }.note (.pressNotAnswered f))
      else (.error (.call f), { d with wire })
  else (.ok reply, d)

def handle (c : TelegramChannel) (now : Instant) (query : Datum) (d : Desk) :
    Except PressFault PressReply × Desk :=
  match act c now query d with
  | (.error f, d) => (.error f, d)
  | (.ok reply, d) => answer c query reply d

end Press

end ChoreReminder
