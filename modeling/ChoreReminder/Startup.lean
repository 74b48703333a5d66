import ChoreReminder.Log.Level
import ChoreReminder.Notify.Service
import ChoreReminder.Settings.Load

/-! How the program starts up: from the settings to the log, the database, the senders and, for the web
interface, the service and the listener. Each step may find something that keeps the program from
starting, and the first one that does decides. -/

namespace ChoreReminder

inductive StartFault where
  | load (fault : LoadFault)
  | level (unknown : Log.UnknownLevel)
  /-- The database is a directory. -/
  | database (path : String)
  | missing (what : Settings.Missing)
  | chatId (bad : BadChatId)
  | overflow (cause : Overflow)

def StartFault.message : StartFault → LooseText
  | load fault => fault.message
  | level unknown => unknown.message
  | database _ => "unable to open database file"
  | missing what => what.message
  | chatId bad => bad.message
  | overflow cause => cause.message

namespace Startup

/-- A database can be kept under every path but those that lead to a directory for certain. -/
def isDirectory (path : String) : Bool :=
  let steps := Text.pathSteps path.toList
  steps.isEmpty || steps.getLast? == some ['.', '.']

def openSettings (s : Surroundings) : Except StartFault Settings := do
  let settings ← (Settings.load s none).mapError .load
  let _ ← (Log.Outlet.ofName settings.logging.level settings.logging.jsonLogs).mapError .level
  return settings

def openDatabase (s : Settings) : Except StartFault String :=
  if isDirectory s.database then .error (.database s.database) else .ok s.database

def openSenders (s : Settings) : Except StartFault (Registry TelegramChannel) :=
  s.senders.mapError .chatId

end Startup

structure Startup where
  database : String
  senders : Registry TelegramChannel
  /-- The service, if notifications are switched on. -/
  service : Option Service
  /-- The channel whose presses are polled for, and the seconds of a poll. -/
  polled : Option (TelegramChannel × Int)

namespace Startup

def channel? (s : Startup) : Option TelegramChannel := s.senders.get? TelegramChannel.channelName

def service? (now : Instant) (s : NotificationSettings) : Except StartFault (Option Service) :=
  if s.enabled then ((Service.ofSettings s).start now).mapError .overflow |>.map some else .ok none

def web (now : Instant) (s : Surroundings) : Except StartFault Startup := do
  let settings ← openSettings s
  settings.checkNotifications.mapError .missing
  let database ← openDatabase settings
  let senders ← openSenders settings
  let service ← service? now settings.notifications
  let polled := match settings.telegram.callbackMode with
    | .polling => (senders.get? TelegramChannel.channelName).map (·, settings.telegram.pollTimeout)
    | .webhook => none
  return { database, senders, service, polled }

end Startup

end ChoreReminder
