import ChoreReminder.CommandLine.Run
import ChoreReminder.Ledger.Saved
import Std.Time.DateTime.Timestamp

/-! The program: the command line over real files, variables and the clock. Nothing is decided here. There is
no transport, so a message that would be sent counts as lost on the way, and the web interface is only
announced. -/

open ChoreReminder

namespace ChoreReminder.Main

def readFile? (path : String) : IO (Option String) := do
  try
    return some (← IO.FS.readFile path)
  catch _ => return none

def readVariables : IO (List (String × String)) := do
  let values ← ("NAGBOT_CONFIG" :: Layer.variableNames).mapM fun name => do
    return (← IO.getEnv name).map (name, ·)
  return values.filterMap id

def readFiles (environment : List (String × String)) : IO (List (String × String)) := do
  let paths := ["config.yaml", ".env"] ++ (environment.lookup "NAGBOT_CONFIG").toList
  let texts ← paths.mapM fun path => do return (← readFile? path).map (path, ·)
  return texts.filterMap id

def readClock : IO Instant := do
  let elapsed := (← Std.Time.Timestamp.now).toNanosecondsSinceUnixEpoch
  let epoch : Int := (Date.number ⟨1970, 1, 1⟩ * Calendar.day : Nat)
  return (Instant.ofMicros? (epoch + elapsed.toInt / 1000)).getD default

def readShelf (path : String) : IO Shelf := do
  let saved := (← readFile? path).bind fun text => Datum.Json.read? text.toList
  let ledger := (saved.bind Ledger.ofSaved?).getD .empty
  return ⟨[(path, ledger)], ledger.ids⟩

def writeShelf (shelf : Shelf) (path : String) : IO Unit := do
  let steps := (Text.pathSteps path.toList).map String.ofList
  let directory := String.ofList (Text.pathRoot path.toList) ++ "/".intercalate steps.dropLast
  if directory ≠ "" then IO.FS.createDirAll directory
  IO.FS.writeFile path (Datum.Json.write (shelf.fetch path).save)

def showLine : ReportLine → IO Unit
  | .text s => IO.println s
  | .row cells => IO.println (" | ".intercalate cells)

/-- The wire when there is no transport: every delivery of a tick is lost. -/
def deadWire (shelf : Shelf) (path : String) : Wire :=
  ⟨List.replicate (shelf.fetch path).deliveries.length (.lost "ConnectError" "no transport"), []⟩

def perform (c : Command) : IO UInt32 := do
  let environment ← readVariables
  let place : Surroundings := ⟨← readFiles environment, environment⟩
  let path := ((Startup.openSettings place).toOption.map (·.database)).getD ""
  let shelf ← readShelf path
  let (output, after, _) := c.run Markup.render (← readClock) place shelf (deadWire shelf path)
  if path ≠ "" ∧ (after.fetch path) ≠ (shelf.fetch path) then writeShelf after path
  match output with
  | .ok o => o.lines.forM showLine
  | .error f => IO.eprintln f.message.escaped
  return (Command.exitCode output).toUInt32

end ChoreReminder.Main

def main (words : List String) : IO UInt32 :=
  match Command.read words with
  | some c => Main.perform c
  | none => do
    IO.eprintln "The words make up no command."
    return 2
