import ChoreReminder.Calendar.Date
import ChoreReminder.Text.Numeral

/-! Instants of time, in microseconds from the start of year 1 in universal time up to the end of year
9999. An instant is in that range by its type; what would leave it is an overflow. The stored form
has one width for all instants, so stored texts compare like the instants they denote. -/

namespace ChoreReminder

namespace Calendar

def second : Nat := 1000000

def minute : Nat := 60 * second

def hour : Nat := 60 * minute

def day : Nat := 24 * hour

def limit : Nat := dayLimit * day

end Calendar

structure Instant where
  micros : Nat
  inRange : micros < Calendar.limit
  deriving DecidableEq

namespace Instant

open Calendar

instance : Inhabited Instant := ⟨⟨0, by decide⟩⟩

instance : LE Instant := ⟨fun a b => a.micros ≤ b.micros⟩

instance : LT Instant := ⟨fun a b => a.micros < b.micros⟩

instance (a b : Instant) : Decidable (a ≤ b) := inferInstanceAs (Decidable (a.micros ≤ b.micros))

instance (a b : Instant) : Decidable (a < b) := inferInstanceAs (Decidable (a.micros < b.micros))

def ofMicros? (n : Int) : Option Instant :=
  if h : 0 ≤ n ∧ n.toNat < limit then some ⟨n.toNat, h.2⟩ else none

def dayNumber (i : Instant) : Nat := i.micros / day

def date (i : Instant) : Date := .ofNumber i.dayNumber

def hourOfDay (i : Instant) : Nat := i.micros % day / hour

def minuteOfHour (i : Instant) : Nat := i.micros % hour / minute

def secondOfMinute (i : Instant) : Nat := i.micros % minute / second

def fraction (i : Instant) : Nat := i.micros % second

def dateText (i : Instant) : String :=
  let d := i.date
  Text.padded 4 d.year ++ "-" ++ Text.padded 2 d.month ++ "-" ++ Text.padded 2 d.day

def clockText (i : Instant) : String :=
  Text.padded 2 i.hourOfDay ++ ":" ++ Text.padded 2 i.minuteOfHour ++ ":"
    ++ Text.padded 2 i.secondOfMinute

def wallText (i : Instant) : String :=
  i.dateText ++ "T" ++ i.clockText
    ++ if i.fraction = 0 then "" else "." ++ Text.padded 6 i.fraction

def text (i : Instant) : String := i.wallText ++ "+00:00"

def zulu (i : Instant) : String := i.wallText ++ "Z"

/-- The stored form: six digits of fraction always. -/
def stored (i : Instant) : String :=
  i.dateText ++ "T" ++ i.clockText ++ "." ++ Text.padded 6 i.fraction ++ "+00:00"

/-- Date and clock to the minute; the year is not filled up to four digits. -/
def minuteText (i : Instant) : String :=
  let d := i.date
  toString d.year ++ "-" ++ Text.padded 2 d.month ++ "-" ++ Text.padded 2 d.day ++ " "
    ++ Text.padded 2 i.hourOfDay ++ ":" ++ Text.padded 2 i.minuteOfHour

end Instant

end ChoreReminder
