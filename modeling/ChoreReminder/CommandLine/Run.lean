import ChoreReminder.CommandLine.Command
import ChoreReminder.CommandLine.Report
import ChoreReminder.Notify.Dispatcher
import ChoreReminder.Notify.Generator
import ChoreReminder.Startup
import ChoreReminder.Web.Routes

/-! What the commands do. A command opens the database that the settings name and shows what came of it. A
fault that the command knows how to tell is shown and gives the exit code 1; any other fault escapes
from it, and what it did to the database before remains. -/

namespace ChoreReminder

structure ServerAddress where
  host : String
  port : Int
  reload : Bool
  deriving DecidableEq

structure Output where
  lines : List ReportLine
  exitCode : Nat := 0
  /-- The web interface that is served from now on. -/
  server : Option ServerAddress := none

inductive CommandFault where
  | markup (fault : MarkupFault)
  | start (fault : StartFault)
  | ledger (fault : LedgerFault)

def CommandFault.message : CommandFault → LooseText
  | markup fault => fault.message
  | start fault => fault.message
  | ledger fault => fault.message

namespace Output

variable (console : Console)

def say (text : String) : Except CommandFault Output :=
  ((ReportLine.ofMarkup console text).map fun lines => { lines }).mapError .markup

def fail (text : String) : Except CommandFault Output :=
  (say console ("[red]" ++ text ++ "[/red]")).map ({ · with exitCode := 1 })

def table (t : Table) : Except CommandFault Output :=
  ((t.lines console).map fun lines => { lines }).mapError .markup

end Output

/-- The databases by path. Their rows are numbered through all of them. -/
structure Shelf where
  ledgers : List (String × Ledger)
  ids : IdCount

namespace Shelf

def fetch (s : Shelf) (path : String) : Ledger :=
  { (s.ledgers.lookup path).getD .empty with ids := s.ids }

def put (s : Shelf) (path : String) (l : Ledger) : Shelf :=
  ⟨Registry.set path l s.ledgers, l.ids⟩

end Shelf

structure Bench where
  ledger : Ledger
  wire : Wire

namespace Command

def exitCode : Except CommandFault Output → Nat
  | .ok o => o.exitCode
  | .error _ => 1

def momentCell (i : Option Instant) : String := (i.map Instant.minuteText).getD "-"

def dueTable (infos : List DueInfo) : Table where
  title := "Due chores"
  heading := ["ID", "Name", "Schedule", "Next due (UTC)", "Overdue"]
  rows := infos.map fun d =>
    [d.chore.id, d.chore.name, d.chore.schedule.kind, momentCell d.nextDue,
      if d.isOverdue then "yes" else ""]

def choreTable (infos : List DueInfo) : Table where
  title := "Chores"
  heading := ["ID", "Name", "Schedule", "Last done (UTC)", "Next due (UTC)"]
  rows := infos.map fun d =>
    [d.chore.id, d.chore.name, d.chore.schedule.kind,
      momentCell (d.chore.lastCompletedAt.map (·.wall)), momentCell d.nextDue]

def deliveryTable (deliveries : List Delivery) : Table where
  title := "Deliveries"
  heading := ["ID", "Channel", "Status", "Attempts", "Last error"]
  rows := deliveries.map fun d =>
    [d.id, d.channel, d.status.name, toString d.attemptCount, d.lastError.getD ""]

def statusTable (s : Settings) (l : Ledger) : Table where
  title := "nagbot status"
  heading := ["Key", "Value"]
  rows :=
    let onOff (b : Bool) : String := if b then "enabled" else "disabled"
    let channels := ", ".intercalate s.notifications.channels
    let counts := [DeliveryStatus.pending, .failed, .delivered].map fun status =>
      ["Deliveries " ++ status.name, toString ((l.deliveryCounts.lookup status).getD 0)]
    [["Version", Health.version], ["DB Path", s.databasePath], ["Chores", toString l.choreCount],
      ["Notifications", onOff s.notifications.enabled],
      ["Channels", if channels = "" then "-" else channels],
      ["Telegram", onOff s.telegramEnabled]] ++ counts

variable (console : Console)

def showAgenda (now : Instant) (includeUpcoming : Bool) (none : String)
    (table : List DueInfo → Table) (b : Bench) : Except CommandFault Output := do
  let infos ← ((Store.ofLedger b.ledger).agenda (.utc now) includeUpcoming).1.mapError .ledger
  if infos.isEmpty then Output.say console none else Output.table console (table infos)

/-- What is told of an added chore. Its name is part of the markup. -/
def addedText (id name : String) : String := "[green]Chore added:[/green] " ++ id ++ " (" ++ name ++ ")"

def chosenSchedule? (cron : Option String) (every hour minute : Option Int) (once : Bool) :
    Option Schedule :=
  match cron, every, once with
  | some expression, none, false => some (.cron expression)
  | none, some days, false => some (.interval days hour minute)
  | none, none, true => some .onceInAWhile
  | _, _, _ => none

def addTo (now : Instant) (name : String) (schedule : Schedule) (description : Option String)
    (b : Bench) : Except CommandFault Output × Bench :=
  match b.ledger.createChore now name schedule description none with
  | .ok (chore, ledger) =>
    (Output.say console (addedText chore.id chore.name),
      { b with ledger })
  | .error (.schedule .overflow) => (.error (.ledger (.schedule .overflow)), b)
  | .error (.schedule f) => (Output.fail console ("Invalid schedule: " ++ f.message), b)
  | .error f => (.error (.ledger f), b)

def completeIn (now : Instant) (id : String) (notes : Option String) (b : Bench) :
    Except CommandFault Output × Bench :=
  match b.ledger.complete now id none notes with
  | .ok (_, ledger) => (Output.say console ("[green]Chore marked done:[/green] " ++ id), { b with ledger })
  | .error (.choreNotFound _) => (Output.fail console ("Chore not found: " ++ id), b)
  | .error f => (.error (.ledger f), b)

def removeFrom (id : String) (b : Bench) : Except CommandFault Output × Bench :=
  match b.ledger.deleteChore id with
  | (true, ledger) => (Output.say console ("[green]Chore removed:[/green] " ++ id), { b with ledger })
  | (false, _) => (Output.fail console ("Chore not found: " ++ id), b)

def generateIn (now : Instant) (s : Settings) (b : Bench) : Except CommandFault Output × Bench :=
  let g := Generator.tick now (.utc now) (s.notifications.channels.map some) (.ofLedger b.ledger)
  (Output.say console ("[green]" ++ toString g.count ++ " due chore(s) upserted[/green]"),
    { b with ledger := g.store.ledger })

def warning (channels : List String) : Except CommandFault Output :=
  if channels.isEmpty then .ok { lines := [] }
  else Output.say console ("[yellow]Warning: no sender configured for channel(s): "
    ++ ", ".intercalate channels ++ "; their pending deliveries will be marked failed[/yellow]")

def summaryText (s : DispatchSummary) : String :=
  "[green]" ++ toString s.delivered ++ " delivered[/green], [yellow]" ++ toString s.failed
    ++ " failed[/yellow], [red]" ++ toString s.unroutable ++ " unroutable[/red]"

def dispatchIn (now : Instant) (s : Settings) (b : Bench) : Except CommandFault Output × Bench :=
  match s.checkNotifications, Startup.openSenders s with
  | .error m, _ => (Output.fail console m.message, b)
  | .ok (), .error f => (.error (.start f), b)
  | .ok (), .ok registry =>
    match warning console (s.unrouted registry) with
    | .error f => (.error f, b)
    | .ok warned =>
      let d := Dispatcher.tick TelegramChannel.send registry now s.notifications.batchSize
        s.notifications.maxAttempts (.ofLedger b.ledger) b.wire
      let output := (Output.say console (summaryText d.summary)).map fun o =>
        { o with lines := warned.lines ++ o.lines }
      (output, ⟨d.store.ledger, d.senders⟩)

def withSettings (s : Surroundings) (shelf : Shelf) (wire : Wire)
    (work : Settings → Bench → Except CommandFault Output × Bench) :
    Except CommandFault Output × Shelf × Wire :=
  match Startup.openSettings s with
  | .error (.load f) =>
    (if f.isAboutFile then Output.fail console f.message else .error (.start (.load f)), shelf, wire)
  | .error f => (.error (.start f), shelf, wire)
  | .ok settings =>
    match Startup.openDatabase settings with
    | .error f => (.error (.start f), shelf, wire)
    | .ok path =>
      let (output, bench) := work settings ⟨shelf.fetch path, wire⟩
      (output, shelf.put path bench.ledger, bench.wire)

def looking (f : Settings → Bench → Except CommandFault Output) (s : Settings) (b : Bench) :
    Except CommandFault Output × Bench := (f s b, b)

def run (now : Instant) (s : Surroundings) (shelf : Shelf) (wire : Wire) (c : Command) :
    Except CommandFault Output × Shelf × Wire :=
  let work := withSettings console s shelf wire
  match c with
  | .version => (Output.say console ("nagbot v" ++ Health.version), shelf, wire)
  | .help => (.ok { lines := [] }, shelf, wire)
  | .serve host port reload =>
    let output := (Output.say console ("[green]Starting nagbot API on " ++ host ++ ":" ++ toString port
      ++ "[/green]")).map ({ · with server := some ⟨host, port, reload⟩ })
    (output, shelf, wire)
  | .status => work (looking fun s b => Output.table console (statusTable s b.ledger))
  | .due upcoming =>
    work (looking fun _ => showAgenda console now upcoming "[dim]Nothing due.[/dim]" dueTable)
  | .listChores =>
    work (looking fun _ => showAgenda console now true "[dim]No chores found.[/dim]" choreTable)
  | .addChore name cron every hour minute once description =>
    match chosenSchedule? cron every hour minute once with
    | none => (Output.fail console "Pass exactly one of --cron, --every, --once", shelf, wire)
    | some schedule => work fun _ => addTo console now name schedule description
  | .completeChore id notes => work fun _ => completeIn console now id notes
  | .removeChore id => work fun _ => removeFrom console id
  | .generate => work (generateIn console now)
  | .dispatch => work (dispatchIn console now)
  | .listDeliveries limit =>
    work (looking fun _ b => do
      let deliveries ← (b.ledger.deliveriesOf none limit).mapError .ledger
      if deliveries.isEmpty then Output.say console "[dim]No deliveries found.[/dim]"
      else Output.table console (deliveryTable deliveries))

end Command

end ChoreReminder
