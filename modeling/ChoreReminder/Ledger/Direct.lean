import ChoreReminder.Ledger.Basic

/-! Rows of the chores that are written from outside, past the operations of the ledger. A value is
brought to the kind of its column as far as that loses nothing; the rules for a single row may be
switched off, but ids stay unique and columns that must be filled stay filled. -/

namespace ChoreReminder

namespace Cell

/-- An integral number becomes an integer if it has less than 64 bits. -/
def ofReal (x : Binary64) : Cell :=
  match x.toInt? with
  | some i => if fitsWord 64 (i - 1) ∧ fitsWord 64 (i + 1) then .int i else .real x
  | none => .real x

def ofText (s : String) : Cell :=
  let body := Text.trimBy Text.isAsciiBlank s.toList
  let (negative, digits) := Text.splitSign body
  match Text.readNat? digits with
  | some n =>
    let i := Text.signed negative n
    if fitsWord 64 i then .int i else .ofReal (.ofInt i)
  | none =>
    match Datum.decimal? negative digits with
    | some x => .ofReal x
    | none => .text s

def ofDatum : Datum → Cell
  | .int i => .int i
  | .bool b => .int (if b then 1 else 0)
  | .real x => .ofReal x
  | .str s => .ofText s
  | _ => .null

end Cell

namespace Ledger

def columnText : Datum → Option String
  | .str s => some s
  | .int i => some (toString i)
  | .bool b => some (if b then "1" else "0")
  | .real x => some x.text
  | _ => none

def defaultTime : String := "2024-01-01T00:00:00.000000+00:00"

def filled (columns : Datum) (name : String) : Except LedgerFault String :=
  match columnText (columns.get name) with
  | some s => .ok s
  | none => .error (.constraint (.notNull ("chores." ++ name)))

def integerColumn (columns : Datum) (name : String) : Except LedgerFault Cell :=
  match columns.get name with
  | .int i => (fitting i).map fun _ => .int i
  | d => .ok (.ofDatum d)

def timeColumn (columns : Datum) (name : String) : Except LedgerFault String :=
  match columns.get? name with
  | none => .ok defaultTime
  | some _ => filled columns name

def insertDirectly (l : Ledger) (columns : Datum) (checked : Bool) : Except LedgerFault Ledger := do
  let days ← integerColumn columns "interval_days"
  let hour ← integerColumn columns "interval_time_hour"
  let minute ← integerColumn columns "interval_time_minute"
  let row : ChoreRow := {
    id := ← filled columns "id"
    name := ← filled columns "name"
    description := columnText (columns.get "description")
    kind := ← filled columns "schedule_type"
    cron := columnText (columns.get "cron_schedule")
    days, hour, minute
    createdAt := ← timeColumn columns "created_at"
    updatedAt := ← timeColumn columns "updated_at" }
  if checked then
    return { l with chores := ← l.insertChore row }
  else if l.choreExists row.id then .error (.constraint (.unique "chores.id"))
  else return { l with chores := l.chores ++ [row] }

end Ledger

end ChoreReminder
