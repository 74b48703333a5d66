import ChoreReminder.Http.Wire
import ChoreReminder.Notify.Registry
import ChoreReminder.Telegram.Channel

/-! Senders of a session, by the names under which they were set up. A scripted sender plays through
given outcomes and stays with the last one; it keeps a list of what was handed to it. The Telegram
sender writes on the wire. -/

namespace ChoreReminder

inductive Sender where
  /-- The outcomes of the sends to come; `none` is a success. -/
  | scripted (outcomes : List (Option SendFault))
  | telegram
  deriving DecidableEq

def Sender.channel (name : String) : Sender → String
  | scripted _ => name
  | telegram => TelegramChannel.channelName

/-- What is handed out by senders while deliveries are sent. -/
structure Stage where
  senders : List (String × Sender)
  wire : Wire
  /-- Scripted sends in their order, each with the name of its sender. -/
  sent : List (String × PendingDelivery)

namespace Stage

def nextOutcome : List (Option SendFault) → Option SendFault × List (Option SendFault)
  | [] => (none, [])
  | [last] => (last, [last])
  | outcome :: rest => (outcome, rest)

def setSender (name : String) (sender : Sender) (senders : List (String × Sender)) :
    List (String × Sender) := Registry.set name sender senders

def send (c : TelegramChannel) (name : String) (p : PendingDelivery) (s : Stage) :
    Except SendFault Unit × Stage :=
  match s.senders.lookup name with
  | none => (.ok (), s)
  | some .telegram =>
    let (outcome, wire) := c.send p s.wire
    (outcome, { s with wire })
  | some (.scripted outcomes) =>
    let (outcome, rest) := nextOutcome outcomes
    let s := { s with
      senders := setSender name (.scripted rest) s.senders, sent := s.sent ++ [(name, p)] }
    match outcome with
    | none => (.ok (), s)
    | some fault => (.error fault, s)

def registry (senders : List (String × Sender)) : Registry String × List String :=
  Registry.ofList (senders.map fun (name, s) => (s.channel name, name))

def sentBy (s : Stage) : List (String × List PendingDelivery) :=
  s.senders.filterMap fun
    | (name, .scripted _) => some (name, (s.sent.filter (·.1 = name)).map (·.2))
    | (_, .telegram) => none

end Stage

end ChoreReminder
