import ChoreReminder.Calendar.Instant
import ChoreReminder.Number.Power
import ChoreReminder.Text.Quoted

/-! Times as they are given: a date and a clock, perhaps with an offset from universal time. A time
without an offset counts as universal time. The reader takes the forms of the ISO standard, basic
and extended, dates by month or by week, and any single character between date and clock. -/

namespace ChoreReminder

/-- A date and a clock as written; `offset` is in microseconds east of universal time. -/
structure Stamp where
  wall : Instant
  offset : Option Int
  deriving DecidableEq, Inhabited

namespace Stamp

open Calendar

/-- The instant that is meant, `none` if it falls outside the years 1 to 9999. -/
def instant? (s : Stamp) : Option Instant :=
  Instant.ofMicros? ((s.wall.micros : Int) - s.offset.getD 0)

def utc (i : Instant) : Stamp := ⟨i, some 0⟩

def offsetText (offset : Int) : String :=
  let n := offset.natAbs
  (if offset < 0 then "-" else "+") ++ Text.padded 2 (n / hour) ++ ":"
    ++ Text.padded 2 (n % hour / minute)
    ++ (if n % minute = 0 then "" else ":" ++ Text.padded 2 (n % minute / second))
    ++ (if n % second = 0 then "" else "." ++ Text.padded 6 (n % second))

def text (s : Stamp) : String := s.wall.wallText ++ (s.offset.map offsetText).getD ""

def zulu (s : Stamp) : String := if s.offset = some 0 then s.wall.zulu else s.text

end Stamp

inductive StampFault where
  | malformed (text : String)
  | year (y : Nat)
  | month
  | day
  | hour
  | minute
  | second
  /-- The offset, in microseconds, is a day or more. -/
  | offset (micros : Int)
  deriving DecidableEq

namespace StampFault


def deltaText (micros : Int) : String :=
  let days := micros / Calendar.day
  let rest := (micros % Calendar.day).toNat
  let parts := [("days", days), ("seconds", ((rest / Calendar.second : Nat) : Int)),
    ("microseconds", ((rest % Calendar.second : Nat) : Int))]
  ", ".intercalate ((parts.filter (·.2 != 0)).map fun p => p.1 ++ "=" ++ toString p.2)

def message : StampFault → String
  | malformed text => "Invalid isoformat string: " ++ Text.quoted text
  | year y => "year " ++ toString y ++ " is out of range"
  | month => "month must be in 1..12"
  | day => "day is out of range for month"
  | hour => "hour must be in 0..23"
  | minute => "minute must be in 0..59"
  | second => "second must be in 0..59"
  | offset micros => "offset must be a timedelta strictly between -timedelta(hours=24) and "
      ++ "timedelta(hours=24), not datetime.timedelta(" ++ deltaText micros ++ ")."

end StampFault

namespace Stamp

open Calendar

/-- A clock reading before its parts are checked; `micros` is below a second. -/
structure Clock where
  hour : Nat := 0
  minute : Nat := 0
  second : Nat := 0
  micros : Nat := 0

def takeNumber (n : Nat) (cs : List Char) : Option (Nat × List Char) :=
  if (cs.take n).length = n then (Text.readNat? (cs.take n)).map (·, cs.drop n) else none

def takeFraction (c : Clock) (cs : List Char) : Option (Clock × List Char) := do
  let width := min 6 cs.length
  let (n, rest) ← takeNumber width cs
  return ({ c with micros := n * tenPow (6 - width) },
    rest.dropWhile fun d => (Text.asciiDigit? d).isSome)

inductive ClockStep where
  /-- The clock ends here. -/
  | stop (rest : List Char)
  | next (rest : List Char)
  | fraction (rest : List Char)

/-- What follows the digits of a part. With colons, the next part needs one. A single ASCII character at the
end is left over. -/
def clockStep (colons : Bool) : List Char → Option ClockStep
  | [] => some (.stop [])
  | c :: rest =>
    if rest.isEmpty && c.toNat < 0x80 then some (.stop [c])
    else if colons && c == ':' then some (.next rest)
    else if c == '.' || c == ',' then some (.fraction rest)
    else if colons then none
    else some (.next (c :: rest))

def takeClock (cs : List Char) : Option (Clock × List Char) := do
  let (h, rest) ← takeNumber 2 cs
  let colons := rest.head? == some ':'
  let c : Clock := { hour := h }
  match ← clockStep colons rest with
  | .stop rest => return (c, rest)
  | .fraction rest => takeFraction c rest
  | .next rest =>
    let (m, rest) ← takeNumber 2 rest
    let c := { c with minute := m }
    match ← clockStep colons rest with
    | .stop rest => return (c, rest)
    | .fraction rest => takeFraction c rest
    | .next rest =>
      let (s, rest) ← takeNumber 2 rest
      let c := { c with second := s }
      match ← clockStep colons rest with
      | .stop rest => return (c, rest)
      | .fraction rest => takeFraction c rest
      | .next rest => takeFraction c rest

/-- An offset from universal time, in microseconds. A fraction of the first second does not count. -/
def readOffset? (negative : Bool) (cs : List Char) : Option Int :=
  match takeClock cs with
  | some (c, []) =>
    let seconds := c.hour * 3600 + c.minute * 60 + c.second
    some (if seconds = 0 then 0 else Text.signed negative (seconds * second + c.micros))
  | _ => none

def isOffsetMark (c : Char) : Bool := c == '+' || c == '-' || c == 'Z'

def readTime? (cs : List Char) : Option (Clock × Option Int) := do
  let (c, rest) ← takeClock (cs.takeWhile (!isOffsetMark ·))
  match cs.dropWhile (!isOffsetMark ·) with
  | [] => if rest.isEmpty then some (c, none) else none
  | 'Z' :: more => if more.isEmpty then some (c, some 0) else none
  | sign :: more => (readOffset? (sign == '-') more).map fun o => (c, some o)

/-- The Monday of the first week of a year: that week holds the first Thursday. -/
def firstMonday (y : Nat) : Int :=
  let first := daysBeforeYear y
  let w := first % 7
  (first : Int) - w + (if w > 3 then 7 else 0)

/-- The date of a day in a numbered week. A year has a 53rd week if it begins on a Thursday, or on a
Wednesday in a leap year. -/
def ofWeek? (y week weekday : Nat) : Option Date :=
  let w := daysBeforeYear y % 7
  let weeks := if w = 3 ∨ (w = 2 ∧ isLeap y) then 53 else 52
  let n := firstMonday y + ((week : Int) - 1) * 7 + weekday - 1
  if 1 ≤ y ∧ 1 ≤ week ∧ week ≤ weeks ∧ 1 ≤ weekday ∧ weekday ≤ 7 ∧ 0 ≤ n then
    some (.ofNumber n.toNat) else none

def readDate? (cs : List Char) : Option Date := do
  let (y, rest) ← takeNumber 4 cs
  let dashes := rest.head? == some '-'
  match (if dashes then rest.drop 1 else rest) with
  | 'W' :: rest =>
    let (week, rest) ← takeNumber 2 rest
    if rest.isEmpty then ofWeek? y week 1
    else
      let rest ← if dashes then (if rest.head? == some '-' then some (rest.drop 1) else none)
        else some rest
      let (d, _) ← takeNumber 1 rest
      ofWeek? y week d
  | rest =>
    let (m, rest) ← takeNumber 2 rest
    let rest ← if dashes then (if rest.head? == some '-' then some (rest.drop 1) else none)
      else some rest
    let (d, _) ← takeNumber 2 rest
    return ⟨y, m, d⟩

def isDigitAt (cs : List Char) (n : Nat) : Bool := (cs[n]?.bind Text.asciiDigit?).isSome

def dateLength? (cs : List Char) : Option Nat :=
  if cs.length < 7 then none
  else if cs.length = 7 then some 7
  else if cs[4]? = some '-' then
    if cs[5]? = some 'W' then
      if cs[8]? = some '-' then
        if cs.length = 9 then none
        else if isDigitAt cs 10 then some 8 else some 10
      else some 8
    else some 10
  else if cs[4]? = some 'W' then
    let run := 7 + ((cs.drop 7).takeWhile fun c => (Text.asciiDigit? c).isSome).length
    if run < 9 then some run else if run % 2 = 0 then some 7 else some 8
  else some 8

def scan? (cs : List Char) : Option (Date × Clock × Option Int) := do
  let n ← dateLength? cs
  let date ← readDate? (cs.take n)
  match cs.drop n with
  | [] => return (date, {}, none)
  | _ :: rest =>
    let (clock, offset) ← readTime? rest
    return (date, clock, offset)

def wallOf (d : Date) (c : Clock) : Except StampFault Instant :=
  if d.year < 1 ∨ maxYear < d.year then .error (.year d.year)
  else if d.month < 1 ∨ 12 < d.month then .error .month
  else if d.day < 1 ∨ daysInMonth d.year d.month < d.day then .error .day
  else if c.hour > 23 then .error .hour
  else if c.minute > 59 then .error .minute
  else if c.second > 59 then .error .second
  else
    let n := d.number * day + c.hour * hour + c.minute * minute + c.second * second + c.micros
    match Instant.ofMicros? n with
    | some i => .ok i
    | none => .error (.year d.year)

/-- The time that a text gives. The offset is checked before date and clock. -/
def read (s : String) : Except StampFault Stamp :=
  match scan? s.toList with
  | none => .error (.malformed s)
  | some (d, c, offset) =>
    match offset with
    | some o =>
      if o.natAbs < day then (wallOf d c).map (⟨·, some o⟩) else .error (.offset o)
    | none => (wallOf d c).map (⟨·, none⟩)

end Stamp

end ChoreReminder
