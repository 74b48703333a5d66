import ChoreReminder.Settings.Layers
import ChoreReminder.Settings.VariableFile
import ChoreReminder.Text.PathName
import ChoreReminder.Yaml.Document

/-! Loading of the settings: a YAML document below, a file of variables above it, and the variables of the
environment on top. A document that was asked for has to be there; the one that is looked for
without being asked for may be missing. -/

namespace ChoreReminder

structure Surroundings where
  files : List (String × String) := []
  environment : List (String × String) := []

namespace Surroundings

/-- The text of a file. Every kind of line break is read as one. -/
def file? (s : Surroundings) (path : String) : Option (List Char) :=
  (s.files.find? fun f => Text.normalPath f.1 = Text.normalPath path).map fun f => lines f.2.toList
where
  lines : List Char → List Char
    | '\r' :: '\n' :: rest => '\n' :: lines rest
    | '\r' :: rest => '\n' :: lines rest
    | c :: rest => c :: lines rest
    | [] => []

end Surroundings

inductive Origin where
  | caller
  | environment
  deriving DecidableEq, Repr

inductive LoadFault where
  | notFound (path : String) (origin : Origin)
  | noDocument (path : String)
  | noMapping (path kindName : String)
  /-- A value in the document does not exist. -/
  | value (f : Yaml.Fault)
  /-- An outermost name of the document is no text. -/
  | names
  | unreadable (u : Unreadable)
  | complaints (cs : List Complaint)

namespace LoadFault

def isAboutFile : LoadFault → Bool
  | notFound .. | noDocument _ | noMapping .. => true
  | _ => false

def message : LoadFault → String
  | notFound path origin => "Config file not found: " ++ path ++ " (from "
      ++ (match origin with
        | .caller => "config_path"
        | .environment => "NAGBOT_CONFIG") ++ ")"
  | noDocument path => "Invalid YAML in " ++ path
  | noMapping path kindName =>
    "Config file " ++ path ++ " must contain a mapping at the top level, got " ++ kindName
  | value f => f.message
  | names => "the outermost names of settings must be texts"
  | unreadable u => "the value of " ++ u.varName ++ " cannot be read"
  | complaints cs => ", ".intercalate (cs.map Complaint.place)

end LoadFault

namespace Settings

/-- The path of the document, if there is one: what the caller asks for, else what the environment asks
for, else the usual one. Nothing is not a path. -/
def documentPath? (s : Surroundings) (asked : Option String) :
    Except LoadFault (Option String) :=
  let byCaller := asked.filter (· ≠ "")
  let requested := byCaller.or ((s.environment.lookup "NAGBOT_CONFIG").filter (· ≠ ""))
  match requested with
  | some path =>
    if (s.file? path).isSome then .ok (some (Text.normalPath path))
    else .error (.notFound (Text.normalPath path)
      (if byCaller.isSome then .caller else .environment))
  | none => .ok ((some "config.yaml").filter fun path => (s.file? path).isSome)

def readDocument (path : String) (cs : List Char) : Except LoadFault Layer.Members :=
  match Yaml.Document.read cs with
  | .error .malformed => .error (.noDocument path)
  | .error f => .error (.value f)
  | .ok ⟨.null, _⟩ => .ok []
  | .ok ⟨.obj ms, hasTextKeys⟩ => if hasTextKeys then .ok (Layer.ofDocument ms) else .error .names
  | .ok ⟨d, _⟩ => .error (.noMapping path d.kindName)

def readVariables (s : Surroundings) : Except LoadFault Layer.Members :=
  let given := s.environment.map fun (name, value) => (name, Datum.str value)
  let filed := ((s.file? ".env").map (VariableFile.read s.environment)).getD []
  match Layer.ofVariables given, Layer.ofVariables filed with
  | .error u, _ | _, .error u => .error (.unreadable u)
  | .ok above, .ok base => .ok (Layer.merge base above)

def load (s : Surroundings) (asked : Option String) : Except LoadFault Settings := do
  let base ← match ← documentPath? s asked with
    | some path => readDocument path ((s.file? path).getD [])
    | none => pure []
  let above ← readVariables s
  match Settings.ofDatum (.obj (Layer.merge base above)) with
  | .ok settings => return settings
  | .error cs => throw (.complaints cs)

def database (s : Settings) : String := Text.normalPath s.databasePath

end Settings

end ChoreReminder
