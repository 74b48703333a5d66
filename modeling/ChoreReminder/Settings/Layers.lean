import ChoreReminder.Datum.Json
import ChoreReminder.Settings.Basic
import ChoreReminder.Text.Casing

/-! Settings from several layers. Variables name a setting by the way to it, with two underscores between
the steps; the value of a whole section or of a list is given as JSON, and variables for its parts
are put into it. A layer above another replaces single values and is merged with it section by
section. -/

namespace ChoreReminder

inductive Outline where
  | single
  | list
  | group (fields : List (String × Outline))

namespace Outline

def fields : Outline → List (String × Outline)
  | .group fields => fields
  | _ => []

def ofSettings : Outline :=
  let singles (names : List String) : List (String × Outline) := names.map (·, .single)
  .group [
    ("notifications", .group (singles ["enabled", "poll_interval_s", "dispatch_interval_s",
      "max_attempts", "batch_size"] ++ [("channels", .list)])),
    ("channels", .group [("telegram", .group (singles ["enabled", "bot_token", "chat_id",
      "callback_mode", "webhook_secret", "poll_timeout_s", "request_timeout_s"]))]),
    ("database", .group (singles ["path"])),
    ("logging", .group (singles ["level", "json_logs"]))]

def follow : Outline → List String → Option Outline
  | o, [] => some o
  | o, name :: rest => (o.fields.lookup name).bind (follow · rest)

def field? (o : Outline) (name : String) : Option (String × Outline) :=
  o.fields.find? fun f => f.1 = Text.lowerText name

end Outline

structure Unreadable where
  varName : String
  deriving DecidableEq, Repr

namespace Layer

abbrev Members := List (String × Datum)

/-- Reads the text of a variable. The empty text is a text, wherever it stands. -/
def valueOf (part : Option Outline) (varName : String) (d : Datum) : Except Unreadable Datum :=
  match part, d with
  | some .list, .str s | some (.group _), .str s =>
    if s = "" then .ok d
    else
      match Datum.Json.read? s.toList with
      | some d => .ok d
      | none => .error ⟨varName⟩
  | _, _ => .ok d

/-- Sets a value at the end of a way. A single value on the way bars it. -/
def put (d : Datum) : (way : List String) → Members → Members
  | [], ms => ms
  | [name], ms => Datum.setMember name d ms
  | name :: rest, ms =>
    match ms.lookup name with
    | none => Datum.setMember name (.obj (put d rest [])) ms
    | some (.obj inner) => Datum.setMember name (.obj (put d rest inner)) ms
    | some _ => ms

def steps : List Char → List (List Char)
  | '_' :: '_' :: rest => [] :: steps rest
  | c :: rest =>
    match steps rest with
    | step :: more => (c :: step) :: more
    | [] => [[c]]
  | [] => [[]]

def after? (start : String) (s : String) : Option (List Char) :=
  if start.toList.isPrefixOf s.toList then some (s.toList.drop start.length) else none

def parts (o : Outline) (name : String) (vars : Members) : Except Unreadable Members :=
  vars.foldlM (fun ms (varName, d) =>
    match after? (name ++ "__") varName with
    | none => .ok ms
    | some rest => do
      let way := (steps rest).map String.ofList
      return put (← valueOf (o.follow way) varName d) way ms) []

mutual

def merge (base : Members) : (above : Members) → Members
  | [] => base
  | (name, d) :: rest => merge (Datum.setMember name (overlay (base.lookup name) d) base) rest

def overlay (base : Option Datum) : Datum → Datum
  | .obj above =>
    match base with
    | some (.obj base) => .obj (merge base above)
    | _ => .obj above
  | d => d

end

mutual

def inKnownCase (o : Outline) : Datum → Datum
  | .obj ms => .obj (membersInKnownCase o [] ms)
  | d => d

def membersInKnownCase (o : Outline) (done : Members) : Members → Members
  | [] => done
  | (name, d) :: rest =>
    let (name, d) := match o.field? name with
      | some (known, .group fields) => (known, inKnownCase (.group fields) d)
      | some (known, _) => (known, d)
      | none => (name, d)
    membersInKnownCase o (Datum.setMember name d done) rest

end

def mark : String := "nagbot_"

def ways : (fuel : Nat) → Outline → List (List String)
  | 0, _ => []
  | fuel + 1, o => o.fields.flatMap fun (name, part) => [name] :: (ways fuel part).map (name :: ·)

def variableNames : List String :=
  (ways 3 Outline.ofSettings).map fun way =>
    Text.upperText (mark ++ "__".intercalate way)

/-- The value that variables give for a section; null counts as none. -/
def section? (o : Outline) (name : String) (vars : Members) :
    Except Unreadable (Option Datum) := do
  let varName := mark ++ name
  match vars.lookup varName with
  | some (.str s) =>
    let some d := Datum.Json.read? s.toList | .error ⟨varName⟩
    match d with
    | .obj ms => return some (inKnownCase o (.obj (merge ms (← parts o varName vars))))
    | .null => return none
    | d => return some d
  | _ =>
    let ms ← parts o varName vars
    return if ms.isEmpty then none else some (inKnownCase o (.obj ms))

/-- The settings that variables give. Of two vars whose names differ in case alone the later one
counts. -/
def ofVariables (vars : Members) : Except Unreadable Members := do
  let vars := vars.foldl (fun ms (name, d) => Datum.setMember (Text.lowerText name) d ms) []
  Outline.ofSettings.fields.foldlM (fun ms (name, o) => do
    return ms ++ ((← section? o name vars).map (name, ·)).toList) []

/-- The settings that a document gives. The outermost names may be in any case; one in the known case
counts most, and of others the first. -/
def ofDocument (members : Members) : Members :=
  Outline.ofSettings.fields.filterMap fun (name, _) =>
    ((members.lookup name).or
      ((members.find? fun m => Text.lowerText m.1 = name).map (·.2))).map (name, ·)

end Layer

end ChoreReminder
