import ChoreReminder.CommandLine.Words
import ChoreReminder.Text.Numeral

/-! The commands of the program, and how they are read from the words of a command line. Words that make up no
command are refused as a whole, so nothing happens then. -/

namespace ChoreReminder

inductive Command where
  | version
  | help
  /-- Serves the web interface. -/
  | serve (host : String) (port : Int) (reload : Bool)
  | status
  | due (upcoming : Bool)
  /-- Adds a chore with the one schedule that is chosen. -/
  | addChore (name : String) (cron : Option String) (every hour minute : Option Int) (once : Bool)
      (description : Option String)
  | listChores
  | completeChore (id : String) (notes : Option String)
  | removeChore (id : String)
  | generate
  | dispatch
  | listDeliveries (limit : Int)
  deriving DecidableEq, Repr

namespace Command

def helpOption : OptionSpec := .flag ["--help"]

/-- Sorts the words of a command without parts and reads them. Being asked for help comes before all that may
be wrong with the words, unknown options excepted. -/
def readWords (specs : List OptionSpec) (words : List String) (read : Words → Option Command) :
    Option Command := do
  let w ← Words.sort (helpOption :: specs) true words
  if w.has helpOption.key then return .help else read w

def number? (w : Words) (key : String) : Option (Option Int) :=
  match w.value? key with
  | none => some none
  | some s => (Text.readInt? s.toList).map some

def alone (c : Command) (w : Words) : Option Command := if w.others.isEmpty then some c else none

def readServe (w : Words) : Option Command := do
  let port ← number? w "--port"
  alone (.serve ((w.value? "--host").getD "0.0.0.0") (port.getD 8000) (w.has "--reload")) w

def readAddChore (w : Words) : Option Command := do
  let every ← number? w "--every"
  let hour ← number? w "--hour"
  let minute ← number? w "--minute"
  match w.others with
  | [name] =>
    return .addChore name (w.value? "--cron") every hour minute (w.has "--once")
      (w.value? "--description")
  | _ => none

def readListDeliveries (w : Words) : Option Command := do
  let limit ← number? w "--limit"
  alone (.listDeliveries (limit.getD 20)) w

def readChores : List String → Option Command
  | "add" :: words =>
    readWords [.valued ["--cron"], .valued ["--every"], .valued ["--hour"], .valued ["--minute"],
      .flag ["--once"], .valued ["--description", "-d"]] words readAddChore
  | "list" :: words => readWords [] words (alone .listChores)
  | "complete" :: words =>
    readWords [.valued ["--notes", "-n"]] words fun w =>
      match w.others with
      | [id] => some (.completeChore id (w.value? "--notes"))
      | _ => none
  | "remove" :: words =>
    readWords [] words fun w =>
      match w.others with
      | [id] => some (.removeChore id)
      | _ => none
  | _ => none

def readNotify : List String → Option Command
  | "generate" :: words => readWords [] words (alone .generate)
  | "dispatch" :: words => readWords [] words (alone .dispatch)
  | "deliveries" :: words => readWords [.valued ["--limit", "-l"]] words readListDeliveries
  | _ => none

def readGroup (read : List String → Option Command) (words : List String) : Option Command := do
  let w ← Words.sort [helpOption] false words
  if w.has helpOption.key then return .help else read w.others

def readCommand : List String → Option Command
  | "run" :: words =>
    readWords [.valued ["--port", "-p"], .valued ["--host", "-h"], .flag ["--reload"]] words readServe
  | "status" :: words => readWords [] words (alone .status)
  | "due" :: words =>
    readWords [.flag ["--upcoming", "-u"]] words fun w => alone (.due (w.has "--upcoming")) w
  | "chores" :: words => readGroup readChores words
  | "notify" :: words => readGroup readNotify words
  | _ => none

def read (words : List String) : Option Command := do
  let w ← Words.sort [.flag ["--version", "-v"], helpOption] false words
  match w.options with
  | o :: _ => return if o.key = helpOption.key then .help else .version
  | [] => readCommand w.others

end Command

end ChoreReminder
