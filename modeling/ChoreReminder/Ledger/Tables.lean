import ChoreReminder.Datum.Encoding
import ChoreReminder.Ledger.Basic
import ChoreReminder.Log.Notice

/-! The tables of the chores and of their completions as they may be found in a file. A column of texts takes bytes too,
a text in it need not be UTF-8, and the id of a row may be missing: no rule of the tables is against that. The rules
leave three kinds of schedules, and in the columns of an interval they leave numbers or nothing, as texts and bytes
count as greater than any number. The rows are fetched in one go, which fails at the first text that is not UTF-8. Then
they are read one by one; what is wrong with a row concerns that row alone, but for a time that is given by bytes,
where the listing ends. A ledger is the case of tables that hold texts wherever they may. -/

namespace ChoreReminder

namespace Text

def ofUtf8? (bytes : List UInt8) : Option String :=
  (Datum.Encoding.utf8? (bytes.map UInt8.toNat)).bind fun units => (LooseText.ofUnits units).whole?

def quotedBytes (bytes : List UInt8) : String :=
  let cs := bytes.map fun b => Char.ofNat b.toNat
  let q := quoteFor cs
  let shown (c : Char) : List Char := if c.toNat < 0x7f then quoteChar q c else escapeCode c.toNat
  String.ofList ('b' :: q :: cs.flatMap shown ++ [q])

end Text

/-! ### Values -/

structure Garbled where
  bytes : List UInt8
  undecodable : Text.ofUtf8? bytes = none
  deriving DecidableEq

/-- What a column of texts holds. Numbers that are put there become texts. -/
inductive TextCell where
  | null
  | text (s : String)
  | garbled (g : Garbled)
  | blob (bytes : List UInt8)
  deriving DecidableEq

inductive FetchedText where
  | nothing
  | text (s : String)
  | bytes (bs : List UInt8)
  deriving DecidableEq

inductive RecordFault where
  | row (fault : RowFault)
  /-- A text that is to be fetched is not UTF-8. -/
  | undecodable
  /-- Bytes stand where a time is read from a text. -/
  | timeInBytes
  deriving DecidableEq

def inByteOrder : List UInt8 → List UInt8 → Bool
  | [], _ => true
  | _ :: _, [] => false
  | a :: as, b :: bs => a.toNat < b.toNat || a.toNat = b.toNat && inByteOrder as bs

namespace TextCell

def ofOption : Option String → TextCell
  | none => null
  | some s => text s

def bytes : TextCell → List UInt8
  | null => []
  | text s => s.toUTF8.toList
  | garbled g => g.bytes
  | blob bs => bs

/-- Nothing comes before texts, and texts come before bytes. Texts compare by their bytes, which for those in UTF-8 is
the order of code points. -/
def isAtMost : TextCell → TextCell → Bool
  | null, _ => true
  | _, null => false
  | blob a, blob b => inByteOrder a b
  | blob _, _ => false
  | _, blob _ => true
  | text s, text t => s ≤ t
  | a, b => inByteOrder a.bytes b.bytes

def greatest : List TextCell → TextCell
  | [] => null
  | c :: rest => if c.isAtMost (greatest rest) then greatest rest else c

def fetch : TextCell → Except RecordFault FetchedText
  | null => .ok .nothing
  | text s => .ok (.text s)
  | garbled _ => .error .undecodable
  | blob bs => .ok (.bytes bs)

end TextCell

namespace FetchedText

def isAtMost : FetchedText → FetchedText → Bool
  | nothing, _ => true
  | _, nothing => false
  | text s, text t => s ≤ t
  | text _, bytes _ => true
  | bytes _, text _ => false
  | bytes a, bytes b => inByteOrder a b

def isEmpty : FetchedText → Bool
  | nothing => true
  | text s => s = ""
  | bytes bs => bs.isEmpty

/-- Bytes stand for a text if they are UTF-8. -/
def toText : FetchedText → Reading String
  | nothing => .fail .stringType
  | text s => .ok s
  | bytes bs =>
    match Text.ofUtf8? bs with
    | some s => .ok s
    | none => .fail .stringUnicode

def toOptionalText : FetchedText → Reading (Option String)
  | nothing => .ok none
  | c => c.toText.map some

def toTime : FetchedText → Except RecordFault (Option Stamp)
  | nothing => .ok none
  | text s => (ChoreRow.readTime s).mapError .row
  | bytes bs => if bs.isEmpty then .ok none else .error .timeInBytes

def shown : FetchedText → String
  | nothing => "None"
  | text s => s
  | bytes bs => Text.quotedBytes bs

end FetchedText

/-! ### Rows -/

structure ChoreRecord (τ : Type) where
  id : τ
  name : τ
  description : τ
  kind : String
  cron : τ
  days : Cell
  hour : Cell
  minute : Cell
  createdAt : τ
  updatedAt : τ
  deriving DecidableEq

/-- A completion as the list of the chores sees it. -/
structure CompletionRecord where
  choreId : TextCell
  completedAt : TextCell
  deriving DecidableEq

namespace ChoreRecord

def columns {τ : Type} (r : ChoreRecord τ) (cron : Option String) : ScheduleColumns :=
  ⟨r.kind, cron, r.days, r.hour, r.minute⟩

/-- The rules ask whether there is an expression, but not for what it says. -/
def brokenRule? (r : ChoreRecord TextCell) : Option Constraint :=
  (r.columns (if r.cron = .null then none else some "")).brokenRule?

def fetch (r : ChoreRecord TextCell) : Except RecordFault (ChoreRecord FetchedText) := do
  return { r with
    id := ← r.id.fetch, name := ← r.name.fetch, description := ← r.description.fetch, cron := ← r.cron.fetch,
    createdAt := ← r.createdAt.fetch, updatedAt := ← r.updatedAt.fetch }

def schedule (r : ChoreRecord FetchedText) : Except RowFault Schedule :=
  if r.kind = "cron" ∧ r.cron.isEmpty = false then
    match Reading.under "expression" r.cron.toText with
    | .ok e => .ok (.cron e)
    | .error cs => .error (.record "CronSchedule" cs)
  else (r.columns none).schedule

def present (column : String) : Option Stamp → Reading Stamp
  | some t => .ok t
  | none => .error [⟨[column], .datetimeType⟩]

def chore (r : ChoreRecord FetchedText) (schedule : Schedule) (created updated last : Option Stamp) : Reading Chore :=
  let build (id name : String) (description : Option String) (createdAt updatedAt : Stamp) : Chore :=
    { id, name, description, schedule, createdAt, updatedAt, lastCompletedAt := last }
  let named := Reading.ap ((Reading.under "id" r.id.toText).map build) (.under "name" r.name.toText)
  let told := Reading.ap named (.under "description" r.description.toOptionalText)
  .ap (.ap told (present "created_at" created)) (present "updated_at" updated)

def read (r : ChoreRecord FetchedText) (latest : FetchedText) : Except RecordFault Chore := do
  let schedule ← r.schedule.mapError .row
  let created ← r.createdAt.toTime
  let updated ← r.updatedAt.toTime
  let last ← latest.toTime
  ((r.chore schedule created updated last).mapError (.record "ChoreWithLastCompletion")).mapError .row

end ChoreRecord

/-! ### Tables -/

structure Tables where
  chores : List (ChoreRecord TextCell)
  completions : List CompletionRecord

/-- The chores that were read, unless the listing broke off, and the rows that were passed over until then. -/
structure Listing where
  chores : Except RecordFault (List Chore)
  skipped : List (FetchedText × RowFault)

def Listing.notices (l : Listing) : List Notice := l.skipped.map fun (id, f) => .choreSkipped id.shown f

namespace Tables

/-- The greatest time among the completions of a chore. Nothing refers to a chore without an id. -/
def latestCompletion (t : Tables) (id : TextCell) : TextCell :=
  if id = .null then .null
  else .greatest ((t.completions.filter (·.choreId = id)).map (·.completedAt))

def fetch (t : Tables) (r : ChoreRecord TextCell) : Except RecordFault (ChoreRecord FetchedText × FetchedText) := do
  return (← r.fetch, ← (t.latestCompletion r.id).fetch)

def read (t : Tables) (r : ChoreRecord TextCell) : Except RecordFault Chore := do
  let (row, latest) ← t.fetch r
  row.read latest

def listed : List (ChoreRecord FetchedText × FetchedText) → Listing
  | [] => ⟨.ok [], []⟩
  | (r, latest) :: rest =>
    match r.read latest with
    | .ok c => ⟨(listed rest).chores.map (c :: ·), (listed rest).skipped⟩
    | .error (.row f) => ⟨(listed rest).chores, (r.id, f) :: (listed rest).skipped⟩
    | .error f => ⟨.error f, []⟩

def candidates (t : Tables) : Listing :=
  match t.chores.mapM t.fetch with
  | .ok rows => listed (rows.mergeSort fun a b => a.1.name.isAtMost b.1.name)
  | .error f => ⟨.error f, []⟩

def chore? (t : Tables) (id : String) : Except RecordFault (Option Chore) :=
  match t.chores.find? (·.id = .text id) with
  | none => .ok none
  | some r => (t.read r).map some

end Tables

def ChoreRow.record (r : ChoreRow) : ChoreRecord TextCell where
  id := .text r.id
  name := .text r.name
  description := .ofOption r.description
  kind := r.kind
  cron := .ofOption r.cron
  days := r.days
  hour := r.hour
  minute := r.minute
  createdAt := .text r.createdAt
  updatedAt := .text r.updatedAt

def Ledger.tables (l : Ledger) : Tables where
  chores := l.chores.map ChoreRow.record
  completions := l.completions.map fun c => ⟨.text c.choreId, .text c.completedAt⟩

end ChoreReminder
