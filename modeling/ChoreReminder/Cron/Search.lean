import ChoreReminder.Cron.Reader
import ChoreReminder.Calendar.Instant

/-! The next date of a cron expression. Time is counted in whole seconds. Starting from the first
candidate after the given instant, the slots are looked at from the year down to the second; the
first that does not fit moves the candidate forward, and the look begins again. The search ends at
a candidate that fits, and gives up more than fifty years on. -/

namespace ChoreReminder.Cron

open Calendar

inductive Trouble where
  | fault (f : Fault)
  | overflow
  deriving DecidableEq

def daySeconds : Nat := 86400

def secondLimit : Nat := dayLimit * daySeconds

structure Moment where
  seconds : Nat
  date : Date

namespace Moment

def ofSeconds (n : Nat) : Moment := ⟨n, .ofNumber (n / daySeconds)⟩

def dayNumber (m : Moment) : Nat := m.seconds / daySeconds

def hour (m : Moment) : Nat := m.seconds % daySeconds / 3600

def minute (m : Moment) : Nat := m.seconds % 3600 / 60

def second (m : Moment) : Nat := m.seconds % 60

def weekday (m : Moment) : Nat := Calendar.weekday m.dayNumber

def monthLength (m : Moment) : Nat := daysInMonth m.date.year m.date.month

end Moment

def startOf (d : Date) : Nat := d.number * daySeconds

def isEvery (es : List Entry) : Bool := es.contains .every

def Entry.valueIn (range : Nat) : Entry → Option Nat
  | .value n => some n
  | .last => some range
  | .every => none

/-- How far on from `x` the next value is: values past the range are left out, and behind the last one
the first one follows a range later. -/
def distance (x : Nat) (es : List Entry) (range : Nat) : Nat :=
  let values := es.filterMap (Entry.valueIn range)
  match values.find? fun v => v ≤ range && x ≤ v with
  | some v => v - x
  | none => values.headD 0 + range - x

inductive Move where
  | stay
  | to (seconds : Nat)

def moveTo (seconds : Nat) : Except Trouble Move :=
  if seconds < secondLimit then .ok (.to seconds) else .error .overflow

def moveToMonth (year month : Nat) : Except Trouble Move :=
  let y := year + month / 12
  if y > maxYear then .error (.fault (.year y))
  else .ok (.to (startOf ⟨y, month % 12 + 1, 1⟩))

def nextMonth (m : Moment) : Except Trouble Move :=
  moveTo ((m.dayNumber + (m.monthLength - m.date.day + 1)) * daySeconds)

/-- The least of the given days of the month that is not past, or the next month. -/
def moveToDay (m : Moment) (days : List Nat) : Except Trouble Move :=
  match (days.filter (m.date.day ≤ ·)).min? with
  | none => nextMonth m
  | some d =>
    if d = m.date.day then .ok .stay else moveTo (startOf { m.date with day := d })

def nearestWorkday (m : Moment) (n : Nat) : Nat :=
  let length := m.monthLength
  let n := min n length
  let w := Calendar.weekday ({ m.date with day := n } : Date).number
  if w = 6 then (if n = 1 then 3 else n - 1)
  else if w = 0 then (if n = length then n - 2 else n + 1)
  else n

def occurrence? (m : Moment) (w : Nat) : Nth → Option Nat := fun n =>
  let first := 1 + (w + 7 - Calendar.weekday ({ m.date with day := 1 } : Date).number) % 7
  match n with
  | .nth k =>
    let d := first + 7 * (k - 1)
    if d ≤ m.monthLength then some d else none
  | .last => some (first + 7 * ((m.monthLength - first) / 7))

namespace Expression

def yearMove (e : Expression) (m : Moment) : Except Trouble Move :=
  match e.year with
  | none => .ok .stay
  | some es =>
    if isEvery es then .ok .stay
    else match (es.filterMap (Entry.valueIn 0)).find? (m.date.year ≤ ·) with
      | none => .error (.fault .noDate)
      | some y => if y = m.date.year then .ok .stay else moveTo (startOf ⟨y, 1, 1⟩)

def monthMove (e : Expression) (m : Moment) : Except Trouble Move :=
  if isEvery e.month then .ok .stay
  else
    let k := distance m.date.month e.month 12
    if k = 0 then .ok .stay else moveToMonth m.date.year (m.date.month - 1 + k)

def dayMove (e : Expression) (m : Moment) : Except Trouble Move :=
  if !e.nearest.isEmpty then moveToDay m (e.nearest.map (nearestWorkday m))
  else if isEvery e.day then .ok .stay
  else if e.day.contains .last && m.date.day == m.monthLength then .ok .stay
  else
    let k := distance m.date.day e.day m.monthLength
    if k = 0 then .ok .stay else moveTo ((m.dayNumber + k) * daySeconds)

def weekdayMove (e : Expression) (m : Moment) : Except Trouble Move :=
  if !e.nth.isEmpty then
    moveToDay m (e.nth.flatMap fun p => p.2.filterMap (occurrence? m p.1))
  else if isEvery e.weekday then .ok .stay
  else
    let k := distance m.weekday e.weekday 7
    if k = 0 then .ok .stay else moveTo ((m.dayNumber + k) * daySeconds)

def hourMove (e : Expression) (m : Moment) : Except Trouble Move :=
  if isEvery e.hour then .ok .stay
  else
    let k := distance m.hour e.hour 24
    if k = 0 then .ok .stay else moveTo ((m.seconds / 3600 + k) * 3600)

def minuteMove (e : Expression) (m : Moment) : Except Trouble Move :=
  if isEvery e.minute then .ok .stay
  else
    let k := distance m.minute e.minute 60
    if k = 0 then .ok .stay else moveTo ((m.seconds / 60 + k) * 60)

def secondMove (e : Expression) (m : Moment) : Except Trouble Move :=
  match e.second with
  | none => .ok .stay
  | some es =>
    if isEvery es then .ok .stay
    else
      let k := distance m.second es 60
      if k = 0 then .ok .stay else moveTo (m.seconds + k)

def moves (e : Expression) : List (Moment → Except Trouble Move) :=
  [e.yearMove, e.monthMove, e.dayMove, e.weekdayMove, e.hourMove, e.minuteMove, e.secondMove]

end Expression

def firstMove (m : Moment) : List (Moment → Except Trouble Move) → Except Trouble Move
  | [] => .ok .stay
  | f :: rest =>
    match f m with
    | .ok .stay => firstMove m rest
    | r => r

def horizon : Nat := 50

/-- Moves a candidate until it fits. Every move goes forward and stays in range, so the candidate's
distance from the end of time bounds the search. -/
def search (e : Expression) (startYear seconds : Nat) : Except Trouble Nat :=
  let m := Moment.ofSeconds seconds
  if m.date.year > startYear + horizon then .error (.fault .noDate)
  else match firstMove m e.moves with
    | .error t => .error t
    | .ok .stay => .ok seconds
    | .ok (.to next) =>
      if seconds < next ∧ next < secondLimit then search e startYear next
      else .error .overflow
termination_by secondLimit - seconds

/-- The first candidate after an instant: the next whole minute, or the next whole second if the
expression has a second slot. -/
def firstCandidate (e : Expression) (after : Instant) : Nat :=
  let seconds := after.micros / Calendar.second
  match e.second with
  | none => (seconds / 60 + 1) * 60
  | some _ => seconds + 1

def searchAfter (e : Expression) (after : Instant) : Except Trouble Nat :=
  let first := firstCandidate e after
  if first < secondLimit then search e (Moment.ofSeconds first).date.year first
  else .error .overflow

/-- Both day slots are restricted, so that a date has to fit one of them only. -/
def Expression.eitherDay (e : Expression) : Bool :=
  e.day.head? != some .every && e.weekday.head? != some .every

/-- The earlier of two searches. A search without a date gives way to the other one if `lenient`. -/
def earlier (lenient : Bool) (a b : Except Trouble Nat) : Except Trouble Nat :=
  match a with
  | .ok s =>
    match b with
    | .ok t => .ok (min s t)
    | .error (.fault .noDate) => if lenient then .ok s else .error (.fault .noDate)
    | .error t => .error t
  | .error (.fault .noDate) => if lenient then b else .error (.fault .noDate)
  | .error t => .error t

def Expression.nextSeconds (e : Expression) (after : Instant) : Except Trouble Nat :=
  if e.eitherDay then
    earlier (e.nth.isEmpty && e.nearest.isEmpty)
      (searchAfter { e with weekday := [.every] } after) (searchAfter { e with day := [.every] } after)
  else searchAfter e after

def Expression.next (e : Expression) (after : Instant) : Except Trouble Instant :=
  match e.nextSeconds after with
  | .error t => .error t
  | .ok s =>
    match Instant.ofMicros? (s * Calendar.second) with
    | some i => .ok i
    | none => .error .overflow

def next (expression : String) (after : Instant) : Except Trouble Instant :=
  match read expression with
  | .error f => .error (.fault f)
  | .ok e => e.next after

end ChoreReminder.Cron
