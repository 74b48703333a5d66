import ChoreReminder.CommandLine.Run
import ChoreReminder.Session.Basic

/-! The command line and the start of the web program within a session. They read the files of the session
and variables that are given for the turn; the command line works on the database of the session unless
a variable names another one. -/

namespace ChoreReminder

namespace Session

def databasePath : String := "nagbot.db"

/-- The variables of a command line: the database is that of the session unless they say otherwise. -/
def commandEnvironment (environment : List (String × String)) : List (String × String) :=
  environment.foldl (fun vs (name, value) => Registry.set name value vs)
    [("NAGBOT_DATABASE__PATH", databasePath)]

def writeFiles (s : Session) (files : List (String × String)) : Session :=
  { s with files := files.foldl (fun fs (name, text) => Registry.set name text fs) s.files }

def shelf (s : Session) : Shelf where
  ledgers := (databasePath, s.store.ledger) :: s.others
  ids := s.store.ledger.ids

def withShelf (s : Session) (shelf : Shelf) : Session :=
  { s with
    store := { s.store with ledger := shelf.fetch databasePath }
    others := shelf.ledgers.filter (·.1 ≠ databasePath) }

def command (s : Session) (words : List String) (files environment : List (String × String))
    (wire : Wire) : Turn (Option (Except CommandFault Output)) :=
  let s := s.writeFiles files
  match Command.read words with
  | none => { result := none, session := s }
  | some c =>
    let (output, shelf, wire) :=
      c.run Markup.render s.now ⟨s.files, commandEnvironment environment⟩ s.shelf wire
    { result := some output, session := s.withShelf shelf, requests := wire.requests }

def launch (s : Session) (files environment : List (String × String)) :
    Turn (Except StartFault Startup) :=
  let s := s.writeFiles files
  { result := Startup.web s.now ⟨s.files, environment⟩, session := s }

end Session

end ChoreReminder
