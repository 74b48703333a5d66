import ChoreReminder.Ledger.Tables
import ChoreReminder.Proofs.Number.Order
import ChoreReminder.Proofs.Outcome

/-! Rows that can be read as chores. The rules for a row leave much that cannot: an expression may be empty, a column of
an interval may hold a number with a fraction, a time may be any text, and where a text is meant there may be nothing,
or bytes that stand for none. A row that keeps the rules and has none of these is read, and one that has one of them is
not, whatever else it holds. Such a row is passed over, except in two cases, which end the listing: a text in it is not
UTF-8, or the schedule is fine and the first of the three times that is at fault is given by bytes. -/

namespace ChoreReminder

namespace Reading

theorem ap_ok_iff {α β : Type} {f : Reading (α → β)} {x : Reading α} :
    (∃ b, ap f x = .ok b) ↔ (∃ g, f = .ok g) ∧ ∃ a, x = .ok a := by
  cases f <;> cases x <;> simp [Reading.ap]

theorem under_ok_iff {α : Type} {name : String} {x : Reading α} :
    (∃ a, under name x = .ok a) ↔ ∃ a, x = .ok a := by
  cases x <;> simp [Reading.under]

theorem map_ok_iff {α β : Type} {f : α → β} {x : Reading α} : (∃ b, x.map f = .ok b) ↔ ∃ a, x = .ok a := by
  cases x <;> simp [Except.map]

end Reading

def IsTime (s : String) : Prop := ∃ t, Stamp.read s = .ok t

theorem not_isTime_empty : ¬ IsTime "" := by
  rintro ⟨t, read⟩
  have failed : Stamp.read "" = .error (.malformed "") := by decide +kernel
  cases failed.symm.trans read

namespace Cell

def IsFraction : Cell → Prop
  | .real x => x.toInt? = none
  | _ => False

variable {cell : Cell} {low high : Int}

structure Bounds (low high : Int) : Prop where
  least : (Binary64.ofInt low).toInt? = some low
  greatest : (Binary64.ofInt high).toInt? = some high
  small : 0 ≤ low ∧ high < 1000

theorem real_read_iff (bounds : Bounds low high) {x : Binary64} (within : (Cell.real x).isWithin low high = true) :
    (∃ n, (Datum.real x).toInt = .ok n) ↔ ¬ (Cell.real x).IsFraction := by
  obtain ⟨above, below⟩ := Bool.and_eq_true_iff.1 within
  simp only [IsFraction, Datum.toInt]
  cases x with
  | finite n m e =>
    dsimp only
    cases whole : (Binary64.finite n m e).toInt? with
    | none => simp [Reading.fail]
    | some i =>
      have half : (twoPow (64 - 1) : Int) = 2 ^ 63 := by decide
      have least := (Binary64.le_iff_of_toInt? bounds.least whole).1 above
      have most := (Binary64.le_iff_of_toInt? whole bounds.greatest).1 below
      have fits : (fitsWord 64 (i - 1) && fitsWord 64 i) = true := by
        have small := bounds.small
        simp only [fitsWord, half, Bool.and_eq_true, decide_eq_true_eq]
        omega
      simp [fits]
  | infinite negative =>
    rw [Binary64.le_infinite bounds.least] at above
    rw [Binary64.infinite_le bounds.greatest] at below
    cases negative
    · cases below
    · cases above
  | notANumber => cases below

theorem read_iff (bounds : Bounds low high) (within : cell.isWithin low high = true) (filled : cell ≠ .null) :
    (∃ n, cell.toDatum.toInt = .ok n) ↔ ¬ cell.IsFraction := by
  cases cell with
  | null => exact absurd rfl filled
  | int n => exact iff_of_true ⟨n, rfl⟩ id
  | real x => exact real_read_iff bounds within
  | text s => cases within

theorem read_optional_iff (bounds : Bounds low high) (within : cell.isWithin low high = true) :
    (∃ part, cell.toDatum.toOptionalInt = .ok part) ↔ ¬ cell.IsFraction := by
  by_cases empty : cell = .null
  · rw [empty]
    exact iff_of_true ⟨none, rfl⟩ id
  · rw [← read_iff bounds within empty]
    have given : cell.toDatum.toOptionalInt = cell.toDatum.toInt.map some := by
      cases cell <;> first | rfl | exact absurd rfl empty
    rw [given]
    cases cell.toDatum.toInt <;> simp [Except.map]

theorem bounds_days : Bounds 1 365 := ⟨by decide +kernel, by decide +kernel, by decide⟩

theorem bounds_hour : Bounds 0 23 := ⟨by decide +kernel, by decide +kernel, by decide⟩

theorem bounds_minute : Bounds 0 59 := ⟨by decide +kernel, by decide +kernel, by decide⟩

end Cell

namespace ScheduleColumns

variable {c : ScheduleColumns}

structure Rules (c : ScheduleColumns) : Prop where
  kind : c.kind = "cron" ∨ c.kind = "interval" ∨ c.kind = "once_in_a_while"
  days : c.days.isWithin 1 365 = true
  hour : c.hour.isWithin 0 23 = true
  minute : c.minute.isWithin 0 59 = true
  expression : c.kind = "cron" → c.cron ≠ none
  interval : c.kind = "interval" → c.days ≠ .null

theorem rules_of_brokenRule? (none' : c.brokenRule? = none) : c.Rules := by
  unfold brokenRule? at none'
  dsimp only at none'
  split at none'
  · cases none'
  split at none'
  · cases none'
  split at none'
  · cases none'
  split at none'
  · cases none'
  split at none'
  · cases none'
  split at none'
  · cases none'
  next known days hour minute cron interval =>
    have listed : c.kind ∈ ["cron", "interval", "once_in_a_while"] :=
      List.contains_iff_mem.1 (by simpa only [Bool.not_eq_true, Bool.not_eq_false'] using known)
    exact ⟨by simpa only [List.mem_cons, List.not_mem_nil, or_false] using listed, by simpa using days,
      by simpa using hour, by simpa using minute, fun kind none' => cron ⟨kind, none'⟩,
      fun kind null => interval ⟨kind, null⟩⟩

theorem interval_ok_iff (days : Reading Int) (hour minute : Reading (Option Int)) :
    (∃ s, Reading.ap (Reading.ap (days.map Schedule.interval) hour) minute = .ok s) ↔
      (∃ n, days = .ok n) ∧ (∃ h, hour = .ok h) ∧ ∃ m, minute = .ok m := by
  rw [Reading.ap_ok_iff, Reading.ap_ok_iff, Reading.map_ok_iff, and_assoc]

theorem schedule_interval_iff (rules : c.Rules) (kind : c.kind = "interval") :
    (∃ s, c.schedule = .ok s) ↔ ¬ c.days.IsFraction ∧ ¬ c.hour.IsFraction ∧ ¬ c.minute.IsFraction := by
  have filled := rules.interval kind
  rw [← Cell.read_iff Cell.bounds_days rules.days filled, ← Cell.read_optional_iff Cell.bounds_hour rules.hour,
    ← Cell.read_optional_iff Cell.bounds_minute rules.minute]
  have read := interval_ok_iff (.under "days" c.days.toDatum.toInt)
    (.under "hour" c.hour.toDatum.toOptionalInt) (.under "minute" c.minute.toDatum.toOptionalInt)
  rw [Reading.under_ok_iff, Reading.under_ok_iff, Reading.under_ok_iff] at read
  simp only [schedule, kind, filled, if_false, if_true, String.reduceEq]
  rw [← read]
  generalize Reading.ap _ _ = reading
  cases reading <;> simp

end ScheduleColumns

/-! ### Values -/

namespace TextCell

variable {c : TextCell}

def IsGarbled (c : TextCell) : Prop := ∃ g, c = .garbled g

/-- A text, or bytes that stand for one. -/
def IsText (c : TextCell) : Prop := (∃ s, c = .text s) ∨ ∃ bs s, c = .blob bs ∧ Text.ofUtf8? bs = some s

def IsEmpty (c : TextCell) : Prop := c = .null ∨ c = .text "" ∨ c = .blob []

def IsMoment (c : TextCell) : Prop := ∃ s, c = .text s ∧ IsTime s

def IsMomentOrEmpty (c : TextCell) : Prop := c.IsEmpty ∨ c.IsMoment

def IsBytes (c : TextCell) : Prop := ∃ bs, c = .blob bs ∧ bs ≠ []

/-- What is seen of a value that is fetched. A text that is not UTF-8 is never seen, as it cannot be fetched. -/
def seen : TextCell → FetchedText
  | null => .nothing
  | text s => .text s
  | garbled g => .bytes g.bytes
  | blob bs => .bytes bs

theorem toText_iff : (∃ s, c.seen.toText = .ok s) ↔ c.IsText := by
  cases c with
  | null => simp [seen, FetchedText.toText, Reading.fail, IsText]
  | text s => simp [seen, FetchedText.toText, IsText]
  | garbled g => simp [seen, FetchedText.toText, Reading.fail, IsText, g.undecodable]
  | blob bs => cases decoded : Text.ofUtf8? bs <;> simp [seen, FetchedText.toText, Reading.fail, IsText, decoded]

theorem toOptionalText_iff : (∃ s, c.seen.toOptionalText = .ok s) ↔ c = .null ∨ c.IsText := by
  cases c with
  | null => simp [seen, FetchedText.toOptionalText]
  | text s => simp [seen, FetchedText.toOptionalText, FetchedText.toText, Except.map, IsText]
  | garbled g =>
    rw [← toText_iff, or_iff_right (by simp)]
    exact Reading.map_ok_iff
  | blob bs =>
    rw [← toText_iff, or_iff_right (by simp)]
    exact Reading.map_ok_iff

theorem isEmpty_iff : c.seen.isEmpty = true ↔ c.IsEmpty := by
  cases c with
  | null => simp [seen, FetchedText.isEmpty, IsEmpty]
  | text s => simp [seen, FetchedText.isEmpty, IsEmpty]
  | garbled g =>
    have some' : g.bytes ≠ [] := by
      intro none'
      have unread := g.undecodable
      rw [none'] at unread
      exact absurd unread (by decide)
    simp [seen, FetchedText.isEmpty, IsEmpty, some']
  | blob bs => simp [seen, FetchedText.isEmpty, IsEmpty]

theorem toTime_text (s : String) : (text s).seen.toTime = (ChoreRow.readTime s).mapError .row := rfl

theorem toTime_blob (bs : List UInt8) :
    (blob bs).seen.toTime = if bs.isEmpty then .ok none else .error .timeInBytes := rfl

theorem no_time_iff (whole : ¬ c.IsGarbled) : c.seen.toTime = .ok none ↔ c.IsEmpty := by
  cases c with
  | null => simp [seen, FetchedText.toTime, IsEmpty]
  | text s =>
    rw [toTime_text, mapError_eq_ok, ChoreRow.readTime]
    by_cases empty : s = ""
    · simp [empty, IsEmpty]
    · cases Stamp.read s <;> simp [empty, IsEmpty]
  | garbled g => exact absurd ⟨g, rfl⟩ whole
  | blob bs => cases bs <;> simp [toTime_blob, IsEmpty]

theorem time_iff : (∃ t, c.seen.toTime = .ok (some t)) ↔ c.IsMoment := by
  cases c with
  | null => simp [seen, FetchedText.toTime, IsMoment]
  | text s =>
    simp only [toTime_text, mapError_eq_ok, IsMoment, text.injEq, exists_eq_left']
    unfold ChoreRow.readTime
    by_cases empty : s = ""
    · rw [if_pos empty, empty]
      exact iff_of_false (by simp) not_isTime_empty
    · rw [if_neg empty, IsTime]
      cases Stamp.read s <;> simp
  | garbled g => by_cases empty : g.bytes = [] <;> simp [seen, FetchedText.toTime, IsMoment, empty]
  | blob bs => cases bs <;> simp [toTime_blob, IsMoment]

theorem timeInBytes_iff (whole : ¬ c.IsGarbled) : c.seen.toTime = .error .timeInBytes ↔ c.IsBytes := by
  cases c with
  | null => simp [seen, FetchedText.toTime, IsBytes]
  | text s => simp [toTime_text, mapError_eq_error, IsBytes]
  | garbled g => exact absurd ⟨g, rfl⟩ whole
  | blob bs => cases bs <;> simp [toTime_blob, IsBytes]

theorem toTime_ne_undecodable : c.seen.toTime ≠ .error .undecodable := by
  cases c with
  | null => nofun
  | text s => simp [toTime_text, mapError_eq_error]
  | garbled g => simp only [seen, FetchedText.toTime]; split <;> nofun
  | blob bs => rw [toTime_blob]; split <;> nofun

theorem toTime_iff (whole : ¬ c.IsGarbled) : (∃ t, c.seen.toTime = .ok t) ↔ c.IsMomentOrEmpty := by
  rw [IsMomentOrEmpty, ← no_time_iff whole, ← time_iff]
  constructor
  · rintro ⟨_ | t, read⟩
    · exact .inl read
    · exact .inr ⟨t, read⟩
  · rintro (read | ⟨t, read⟩)
    · exact ⟨none, read⟩
    · exact ⟨some t, read⟩

end TextCell

/-! ### Rows -/

namespace ChoreRecord

variable {r : ChoreRecord TextCell} {latest : TextCell}

/-- The texts that are fetched with a row, given the latest completion of its chore. -/
def texts (r : ChoreRecord TextCell) (latest : TextCell) : List TextCell :=
  [r.id, r.name, r.description, r.cron, r.createdAt, r.updatedAt, latest]

def seen (r : ChoreRecord TextCell) : ChoreRecord FetchedText :=
  { r with
    id := r.id.seen, name := r.name.seen, description := r.description.seen, cron := r.cron.seen,
    createdAt := r.createdAt.seen, updatedAt := r.updatedAt.seen }

structure Scheduled (r : ChoreRecord TextCell) : Prop where
  expression : r.kind = "cron" → r.cron.IsText ∧ ¬ r.cron.IsEmpty
  interval : r.kind = "interval" → ¬ r.days.IsFraction ∧ ¬ r.hour.IsFraction ∧ ¬ r.minute.IsFraction

structure Legible (r : ChoreRecord TextCell) (latest : TextCell) : Prop where
  decodable : ∀ c ∈ r.texts latest, ¬ c.IsGarbled
  scheduled : r.Scheduled
  id : r.id.IsText
  name : r.name.IsText
  description : r.description = .null ∨ r.description.IsText
  createdAt : r.createdAt.IsMoment
  updatedAt : r.updatedAt.IsMoment
  latest : latest.IsMomentOrEmpty

/-- The first of the three times that is at fault is given by bytes. -/
def EndsInBytes (r : ChoreRecord TextCell) (latest : TextCell) : Prop :=
  r.createdAt.IsBytes ∨
    r.createdAt.IsMomentOrEmpty ∧ (r.updatedAt.IsBytes ∨ r.updatedAt.IsMomentOrEmpty ∧ latest.IsBytes)

/-- No list can be made of chores with this row among them. -/
def BreaksOff (r : ChoreRecord TextCell) (latest : TextCell) : Prop :=
  (∃ c ∈ r.texts latest, c.IsGarbled) ∨ r.Scheduled ∧ r.EndsInBytes latest

theorem schedule_cron {f : ChoreRecord FetchedText} (kind : f.kind = "cron") :
    (∃ s, f.schedule = .ok s) ↔ (∃ e, f.cron.toText = .ok e) ∧ f.cron.isEmpty = false := by
  unfold schedule
  by_cases empty : f.cron.isEmpty = false
  · rw [if_pos ⟨kind, empty⟩]
    cases f.cron.toText <;> simp [Reading.under, empty]
  · rw [if_neg fun both => empty both.2]
    simp [columns, ScheduleColumns.schedule, kind, empty]

theorem schedule_other (kind : r.kind ≠ "cron") : r.seen.schedule = (r.columns none).schedule := by
  rw [schedule, if_neg fun both => kind both.1]
  rfl

theorem schedule_iff (rules : r.brokenRule? = none) : (∃ s, r.seen.schedule = .ok s) ↔ r.Scheduled := by
  have kept := ScheduleColumns.rules_of_brokenRule? rules
  rcases kept.kind with kind | kind | kind
  · have given : (∃ s, r.seen.schedule = .ok s) ↔ r.cron.IsText ∧ ¬ r.cron.IsEmpty := by
      rw [schedule_cron (f := r.seen) kind, ← TextCell.toText_iff, ← TextCell.isEmpty_iff, Bool.not_eq_true]
      rfl
    rw [given]
    exact ⟨fun given => ⟨fun _ => given, fun interval => absurd (kind.symm.trans interval) (by decide)⟩,
      fun scheduled => scheduled.expression kind⟩
  · have other : r.kind ≠ "cron" := fun cron => absurd (cron.symm.trans kind) (by decide)
    have rules' : (r.columns none).Rules := { kept with expression := fun cron => absurd cron other }
    rw [schedule_other other, ScheduleColumns.schedule_interval_iff rules' kind]
    exact ⟨fun whole => ⟨fun cron => absurd cron other, fun _ => whole⟩, fun scheduled => scheduled.interval kind⟩
  · have other : r.kind ≠ "cron" := fun cron => absurd (cron.symm.trans kind) (by decide)
    have kind' : r.kind = "once_in_a_while" := kind
    have fine : (r.columns none).schedule = .ok .onceInAWhile := by simp [columns, ScheduleColumns.schedule, kind']
    rw [schedule_other other, fine]
    exact iff_of_true ⟨_, rfl⟩
      ⟨fun cron => absurd cron other, fun interval => absurd (kind.symm.trans interval) (by decide)⟩

theorem present_ok_iff {column : String} {time : Option Stamp} :
    (∃ t, present column time = .ok t) ↔ ∃ t, time = some t := by
  cases time <;> simp [present]

theorem chore_ok_iff {f : ChoreRecord FetchedText} {s : Schedule} {created updated last : Option Stamp} :
    (∃ c, f.chore s created updated last = .ok c) ↔
      (∃ id, f.id.toText = .ok id) ∧ (∃ name, f.name.toText = .ok name) ∧
      (∃ description, f.description.toOptionalText = .ok description) ∧
      (∃ t, created = some t) ∧ ∃ t, updated = some t := by
  simp only [chore, Reading.ap_ok_iff, Reading.map_ok_iff, Reading.under_ok_iff, present_ok_iff, and_assoc]

theorem read_ok_iff (rules : r.brokenRule? = none) (whole : ∀ c ∈ r.texts latest, ¬ c.IsGarbled) :
    (∃ c, r.seen.read latest.seen = .ok c) ↔ r.Legible latest := by
  obtain ⟨-, -, -, -, createdAt, updatedAt, latest', -⟩ := by simpa only [texts, List.forall_mem_cons] using whole
  simp only [read, bind_eq_ok, mapError_eq_ok]
  constructor
  · rintro ⟨c, s, schedule, created, created', updated, updated', last, last', made⟩
    obtain ⟨id, name, description, ⟨t, rfl⟩, ⟨u, rfl⟩⟩ := chore_ok_iff.1 ⟨c, made⟩
    exact ⟨whole, (schedule_iff rules).1 ⟨s, schedule⟩, TextCell.toText_iff.1 id, TextCell.toText_iff.1 name,
      TextCell.toOptionalText_iff.1 description, TextCell.time_iff.1 ⟨t, created'⟩, TextCell.time_iff.1 ⟨u, updated'⟩,
      (TextCell.toTime_iff latest').1 ⟨last, last'⟩⟩
  · intro legible
    obtain ⟨s, schedule⟩ := (schedule_iff rules).2 legible.scheduled
    obtain ⟨t, created⟩ := TextCell.time_iff.2 legible.createdAt
    obtain ⟨u, updated⟩ := TextCell.time_iff.2 legible.updatedAt
    obtain ⟨last, given⟩ := (TextCell.toTime_iff latest').2 legible.latest
    obtain ⟨c, made⟩ : ∃ c, r.seen.chore s (some t) (some u) last = .ok c :=
      chore_ok_iff.2 ⟨TextCell.toText_iff.2 legible.id, TextCell.toText_iff.2 legible.name,
        TextCell.toOptionalText_iff.2 legible.description, ⟨t, rfl⟩, ⟨u, rfl⟩⟩
    exact ⟨c, s, schedule, _, created, _, updated, _, given, made⟩

theorem read_breaks_iff (rules : r.brokenRule? = none) (whole : ∀ c ∈ r.texts latest, ¬ c.IsGarbled) :
    r.seen.read latest.seen = .error .timeInBytes ↔ r.Scheduled ∧ r.EndsInBytes latest := by
  obtain ⟨-, -, -, -, createdAt, updatedAt, latest', -⟩ := by simpa only [texts, List.forall_mem_cons] using whole
  have never {x : Except (List Complaint) Chore} :
      (x.mapError (RowFault.record "ChoreWithLastCompletion")).mapError RecordFault.row ≠ .error .timeInBytes := by
    simp [mapError_eq_error]
  have scheduled : r.seen.schedule.mapError RecordFault.row ≠ .error .timeInBytes := by simp [mapError_eq_error]
  rw [EndsInBytes, ← TextCell.timeInBytes_iff createdAt, ← TextCell.timeInBytes_iff updatedAt,
    ← TextCell.timeInBytes_iff latest', ← TextCell.toTime_iff createdAt, ← TextCell.toTime_iff updatedAt,
    ← schedule_iff rules]
  simp only [read, bind_eq_error, mapError_eq_ok, scheduled, never, false_or, or_false, and_false, exists_false]
  constructor
  · rintro ⟨s, schedule, first | ⟨t, created, second | ⟨u, updated, third⟩⟩⟩
    · exact ⟨⟨s, schedule⟩, .inl first⟩
    · exact ⟨⟨s, schedule⟩, .inr ⟨⟨t, created⟩, .inl second⟩⟩
    · exact ⟨⟨s, schedule⟩, .inr ⟨⟨t, created⟩, .inr ⟨⟨u, updated⟩, third⟩⟩⟩
  · rintro ⟨⟨s, schedule⟩, first | ⟨⟨t, created⟩, second | ⟨⟨u, updated⟩, third⟩⟩⟩
    · exact ⟨s, schedule, .inl first⟩
    · exact ⟨s, schedule, .inr ⟨t, created, .inl second⟩⟩
    · exact ⟨s, schedule, .inr ⟨t, created, .inr ⟨u, updated, third⟩⟩⟩

theorem read_ne_undecodable : r.seen.read latest.seen ≠ .error .undecodable := by
  intro failed
  simp only [read, bind_eq_error, mapError_eq_error] at failed
  rcases failed with ⟨f, -, absurd'⟩ | ⟨s, -, first | ⟨t, -, second | ⟨u, -, third | ⟨last, -, f, -, absurd'⟩⟩⟩⟩
  · cases absurd'
  · exact TextCell.toTime_ne_undecodable first
  · exact TextCell.toTime_ne_undecodable second
  · exact TextCell.toTime_ne_undecodable third
  · cases absurd'

end ChoreRecord

/-! ### What is fetched -/

/-- What is fetched is seen as this, unless there is a text in it that is not UTF-8. -/
def Fetches {α : Type} (x : Except RecordFault α) (seen : α) (garbled : Prop) : Prop :=
  garbled ∧ x = .error .undecodable ∨ ¬ garbled ∧ x = .ok seen

namespace Fetches

variable {α β : Type} {x : Except RecordFault α} {a : α} {b : β} {p q : Prop}

theorem pure (a : α) : Fetches (Pure.pure a) a False := .inr ⟨id, rfl⟩

theorem cell (c : TextCell) : Fetches c.fetch c.seen c.IsGarbled := by
  cases c <;> simp [Fetches, TextCell.fetch, TextCell.IsGarbled, TextCell.seen]

theorem bind {f : α → Except RecordFault β} (first : Fetches x a p) (rest : Fetches (f a) b q) :
    Fetches (x >>= f) b (p ∨ q) := by
  rcases first with ⟨garbled, rfl⟩ | ⟨whole, rfl⟩
  · exact .inl ⟨.inl garbled, rfl⟩
  · rcases rest with ⟨garbled, failed⟩ | ⟨whole', seen⟩
    · exact .inl ⟨.inr garbled, failed⟩
    · exact .inr ⟨fun either => either.elim whole whole', seen⟩

theorem row (r : ChoreRecord TextCell) :
    Fetches r.fetch r.seen (r.id.IsGarbled ∨ r.name.IsGarbled ∨ r.description.IsGarbled ∨ r.cron.IsGarbled ∨
      r.createdAt.IsGarbled ∨ r.updatedAt.IsGarbled ∨ False) :=
  (cell r.id).bind ((cell r.name).bind ((cell r.description).bind ((cell r.cron).bind ((cell r.createdAt).bind
    ((cell r.updatedAt).bind (pure r.seen))))))

end Fetches

/-! ### Rows in their tables -/

namespace Tables

variable {t : Tables} {r : ChoreRecord TextCell}

theorem fetches (t : Tables) (r : ChoreRecord TextCell) :
    Fetches (t.fetch r) (r.seen, (t.latestCompletion r.id).seen)
      (∃ c ∈ r.texts (t.latestCompletion r.id), c.IsGarbled) := by
  have chain : Fetches (t.fetch r) (r.seen, (t.latestCompletion r.id).seen) _ :=
    (Fetches.row r).bind ((Fetches.cell (t.latestCompletion r.id)).bind (.pure _))
  simpa only [ChoreRecord.texts, List.mem_cons, List.not_mem_nil, or_and_right, exists_or, exists_eq_left, or_false,
    or_assoc] using chain

/-- A row that keeps the rules is read, or it is passed over, or it makes a listing break off. -/
theorem read_cases (t : Tables) (rules : r.brokenRule? = none) :
    r.Legible (t.latestCompletion r.id) ∧ ¬ r.BreaksOff (t.latestCompletion r.id) ∧
        (∃ c, t.read r = .ok c) ∨
      r.BreaksOff (t.latestCompletion r.id) ∧ ¬ r.Legible (t.latestCompletion r.id) ∧
        (t.read r = .error .undecodable ∨ t.read r = .error .timeInBytes) ∨
      ¬ r.Legible (t.latestCompletion r.id) ∧ ¬ r.BreaksOff (t.latestCompletion r.id) ∧
        ∃ f, t.read r = .error (.row f) := by
  rcases t.fetches r with ⟨garbled, failed⟩ | ⟨whole, fetched⟩
  · have read : t.read r = .error .undecodable := by rw [read, failed]; rfl
    obtain ⟨c, member, bad⟩ := garbled
    exact .inr (.inl ⟨.inl ⟨c, member, bad⟩, fun legible => legible.decodable c member bad, .inl read⟩)
  have whole' : ∀ c ∈ r.texts (t.latestCompletion r.id), ¬ c.IsGarbled :=
    fun c member bad => whole ⟨c, member, bad⟩
  have read : t.read r = r.seen.read (t.latestCompletion r.id).seen := by rw [read, fetched]; rfl
  have breaks : r.BreaksOff (t.latestCompletion r.id) ↔ t.read r = .error .timeInBytes := by
    rw [read, ChoreRecord.read_breaks_iff rules whole', ChoreRecord.BreaksOff, or_iff_right whole]
  have legible : r.Legible (t.latestCompletion r.id) ↔ ∃ c, t.read r = .ok c := by
    rw [read, ChoreRecord.read_ok_iff rules whole']
  rw [breaks, legible]
  cases outcome : t.read r with
  | ok c => simp
  | error f =>
    cases f with
    | row f => simp
    | timeInBytes => simp
    | undecodable => exact absurd (read ▸ outcome) ChoreRecord.read_ne_undecodable

end Tables

end ChoreReminder
