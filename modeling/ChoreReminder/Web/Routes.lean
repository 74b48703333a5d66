import ChoreReminder.Notify.Generator
import ChoreReminder.Notify.Service
import ChoreReminder.Web.Reply
import ChoreReminder.Web.Target

/-! The pages of the web interface that are looked at: the state of the program and the due chores. A
page that is not there, or is not to be looked at, is answered as such; a due list that cannot be
made is answered with the reason. -/

namespace ChoreReminder

structure Health where
  notificationsEnabled : Bool
  channels : List String
  deriving DecidableEq

namespace Health

def version : String := "0.1.0"

def ofService {α : Type} : Option (Service × Registry α) → Health
  | none => ⟨false, []⟩
  | some (service, senders) => ⟨service.running, senders.channels⟩

def toDatum (h : Health) : Datum :=
  .obj [("status", .str "ok"), ("version", .str version),
    ("notifications_enabled", .bool h.notificationsEnabled),
    ("channels", .list (h.channels.map .str))]

end Health

namespace DueInfo

def toDatum (d : DueInfo) : Datum :=
  .obj [("chore_id", .str d.chore.id), ("name", .str d.chore.name),
    ("description", .optionalText d.chore.description), ("schedule_type", .str d.chore.schedule.kind),
    ("next_due", .optionalText (d.nextDue.map Instant.zulu)), ("is_overdue", .bool d.isOverdue),
    ("last_completed_at", .optionalText (d.chore.lastCompletedAt.map Stamp.zulu))]

end DueInfo

namespace Web

def upcomingWanted (t : Target) : Option Bool :=
  match t.last? "include_upcoming" with
  | none => some false
  | some word => Datum.truthWord? word

def dueChores (now : Instant) (t : Target) (s : Store) : WebReply × Store × List Notice :=
  match upcomingWanted t with
  | none => (⟨422, none⟩, s, [])
  | some wanted =>
    match s.agenda (.utc now) wanted with
    | (.ok infos, s, notices) => (.ok (.list (infos.map DueInfo.toDatum)), s, notices)
    | (.error f, s, notices) => (.detail 500 f.message, s, notices ++ [.dueRequestFailed f])

def get {α : Type} (service : Option (Service × Registry α)) (now : Instant) (target : String)
    (s : Store) : WebReply × Store × List Notice :=
  let t := Target.ofText target
  if t.path = "/health" then (.ok (Health.ofService service).toDatum, s, [])
  else if t.path = "/chores/due" then dueChores now t s
  else if t.path = "/webhooks/telegram" then (.detail 405 "Method Not Allowed", s, [])
  else (.detail 404 "Not Found", s, [])

end Web

end ChoreReminder
