import Mathlib.Data.List.Basic
import ChoreReminder.Calendar.Stamp
import ChoreReminder.Proofs.Calendar.Date
import ChoreReminder.Proofs.Text.Padded

/-! Stored times are read back. The stored form gives the date and the clock of an instant in digits of
fixed width, so the reader finds each part where the writer put it; and the parts of an instant make up
the instant again. -/

namespace ChoreReminder

theorem Instant.eq_iff {i j : Instant} : i = j ↔ i.micros = j.micros := by
  rw [mk.injEq]

theorem Instant.dayNumber_lt (i : Instant) : i.dayNumber < Calendar.dayLimit := by
  refine Nat.div_lt_of_lt_mul ?_
  rw [Nat.mul_comm]
  exact i.inRange

theorem Instant.hourOfDay_le (i : Instant) : i.hourOfDay ≤ 23 := by
  simp only [hourOfDay, Calendar.day, Calendar.hour, Calendar.minute, Calendar.second]
  omega

theorem Instant.minuteOfHour_le (i : Instant) : i.minuteOfHour ≤ 59 := by
  simp only [minuteOfHour, Calendar.hour, Calendar.minute, Calendar.second]
  omega

theorem Instant.secondOfMinute_le (i : Instant) : i.secondOfMinute ≤ 59 := by
  simp only [secondOfMinute, Calendar.minute, Calendar.second]
  omega

theorem Instant.fraction_lt (i : Instant) : i.fraction < 1000000 := Nat.mod_lt _ (by decide)

theorem Instant.ofMicros?_micros (i : Instant) : ofMicros? (i.micros : Int) = some i := by
  have range : 0 ≤ (i.micros : Int) ∧ (i.micros : Int).toNat < Calendar.limit := by
    simp only [Int.natCast_nonneg, Int.toNat_natCast, i.inRange, and_self]
  rw [ofMicros?, dif_pos range]
  simp only [Int.toNat_natCast]

theorem Instant.micros_of_ofMicros? {n : Nat} {i : Instant} (h : ofMicros? (n : Int) = some i) :
    i.micros = n := by
  unfold ofMicros? at h
  split at h
  · rw [← Option.some.inj h]
    exact Int.toNat_natCast n
  · cases h

namespace Stamp

open Calendar Text

theorem takeNumber_padded {w n : Nat} (positive : 0 < w) (fits : n < 10 ^ w)
    (rest : List Char) : takeNumber w ((padded w n).toList ++ rest) = some (n, rest) := by
  have length := length_padded positive fits
  rw [takeNumber, List.take_left' length, List.drop_left' length, if_pos length,
    readNat?_padded positive fits]
  rfl

theorem padded_two {n : Nat} (fits : n < 100) :
    ∃ a b, (padded 2 n).toList = [a, b] ∧ a.isDigit = true ∧ b.isDigit = true := by
  have length := length_padded (w := 2) (by decide) fits
  obtain ⟨a, b, same⟩ := List.length_eq_two.1 length
  have digits : ∀ c ∈ [a, b], c.isDigit = true := fun c hc => isDigit_of_mem_padded (same ▸ hc)
  exact ⟨a, b, same, digits a (by simp), digits b (by simp)⟩

theorem readDate?_dashes {y m d : Nat} (year : y < 10000) (month : m < 100) (day : d < 100) :
    readDate? ((padded 4 y).toList ++ '-' :: ((padded 2 m).toList ++ '-' :: (padded 2 d).toList)) =
      some ⟨y, m, d⟩ := by
  have takeYear := takeNumber_padded (w := 4) (by decide) year
    ('-' :: ((padded 2 m).toList ++ '-' :: (padded 2 d).toList))
  have takeMonth := takeNumber_padded (w := 2) (by decide) month ('-' :: (padded 2 d).toList)
  have takeDay := takeNumber_padded (w := 2) (by decide) day []
  rw [List.append_nil] at takeDay
  obtain ⟨a, b, same, digit, -⟩ := padded_two month
  rw [same] at takeMonth takeYear ⊢
  simp only [List.cons_append, List.nil_append] at takeYear takeMonth ⊢
  simp only [readDate?, takeYear, Option.bind_eq_bind, Option.bind_some, List.head?_cons,
    beq_self_eq_true, if_true, List.drop_succ_cons, List.drop_zero]
  split
  · next rest first =>
    obtain ⟨rfl, -⟩ := List.cons.inj first
    exact absurd digit (by decide)
  · simp only [takeMonth, Option.bind_some, List.head?_cons, beq_self_eq_true, if_true,
      List.drop_succ_cons, List.drop_zero, takeDay]
    rfl

theorem takeClock_colons {h m s f : Nat} (hour : h < 100) (minute : m < 100) (second : s < 100)
    (fraction : f < 1000000) :
    takeClock ((padded 2 h).toList ++ ':' :: ((padded 2 m).toList ++ ':' ::
      ((padded 2 s).toList ++ '.' :: (padded 6 f).toList))) = some (⟨h, m, s, f⟩, []) := by
  have takeHour := takeNumber_padded (w := 2) (by decide) hour (':' :: ((padded 2 m).toList ++
    ':' :: ((padded 2 s).toList ++ '.' :: (padded 6 f).toList)))
  have takeMinute := takeNumber_padded (w := 2) (by decide) minute
    (':' :: ((padded 2 s).toList ++ '.' :: (padded 6 f).toList))
  have takeSecond := takeNumber_padded (w := 2) (by decide) second
    ('.' :: (padded 6 f).toList)
  have takeMicros := takeNumber_padded (w := 6) (by decide) fraction []
  have width := length_padded (w := 6) (by decide) fraction
  have more : (padded 6 f).toList ≠ [] := by
    intro empty
    rw [empty] at width
    exact absurd width (by decide)
  rw [List.append_nil] at takeMicros
  have colon (rest : List Char) (more : rest ≠ []) :
      clockStep true (':' :: rest) = some (.next rest) := by
    simp [clockStep, more]
  have point (rest : List Char) (more : rest ≠ []) :
      clockStep true ('.' :: rest) = some (.fraction rest) := by
    simp [clockStep, more]
  simp only [takeClock, takeHour, Option.bind_eq_bind, Option.bind_some, List.head?_cons,
    beq_self_eq_true, colon _ (by simp : _ ++ _ :: _ ≠ []), takeMinute, takeSecond,
    point _ more, takeFraction, width, Nat.min_self, takeMicros, Nat.sub_self]
  simp [tenPow]

theorem scan?_full {y m d h n s f : Nat} (year : y < 10000) (month : m < 100) (day : d < 100)
    (hour : h < 100) (minute : n < 100) (second : s < 100) (fraction : f < 1000000) :
    scan? (((padded 4 y).toList ++ '-' :: ((padded 2 m).toList ++ '-' :: (padded 2 d).toList)) ++
      'T' :: (((padded 2 h).toList ++ ':' :: ((padded 2 n).toList ++ ':' ::
        ((padded 2 s).toList ++ '.' :: (padded 6 f).toList))) ++ "+00:00".toList)) =
      some (⟨y, m, d⟩, ⟨h, n, s, f⟩, some 0) := by
  have readDate := readDate?_dashes year month day
  have takeClock := takeClock_colons hour minute second fraction
  have marks : ∀ c ∈ (padded 2 h).toList ++ ':' :: ((padded 2 n).toList ++ ':' ::
      ((padded 2 s).toList ++ '.' :: (padded 6 f).toList)), (!isOffsetMark c) = true := by
    have digit {c : Char} (h : c.isDigit = true) : (!isOffsetMark c) = true := by
      by_contra mark
      simp only [isOffsetMark, Bool.not_eq_true', Bool.not_eq_false, Bool.or_eq_true,
        beq_iff_eq] at mark
      rcases mark with (rfl | rfl) | rfl <;> exact absurd h (by decide)
    intro c hc
    simp only [List.mem_append, List.mem_cons] at hc
    rcases hc with hc | rfl | hc | rfl | hc | rfl | hc
    · exact digit (isDigit_of_mem_padded hc)
    · rfl
    · exact digit (isDigit_of_mem_padded hc)
    · rfl
    · exact digit (isDigit_of_mem_padded hc)
    · rfl
    · exact digit (isDigit_of_mem_padded hc)
  have length : ((padded 4 y).toList ++ '-' :: ((padded 2 m).toList ++ '-' ::
      (padded 2 d).toList)).length = 10 := by
    simp only [List.length_append, List.length_cons, length_padded (w := 4) (by decide) year,
      length_padded (w := 2) (by decide) month, length_padded (w := 2) (by decide) day]
  have dash : ((padded 4 y).toList ++ '-' :: ((padded 2 m).toList ++ '-' ::
      (padded 2 d).toList))[4]? = some '-' := by
    rw [List.getElem?_append_right, length_padded (w := 4) (by decide) year]
    · rfl
    · exact Nat.le_of_eq (length_padded (by decide) year)
  have noWeek : ((padded 4 y).toList ++ '-' :: ((padded 2 m).toList ++ '-' ::
      (padded 2 d).toList))[5]? ≠ some 'W' := by
    obtain ⟨a, b, same, digit, -⟩ := padded_two month
    rw [List.getElem?_append_right, length_padded (w := 4) (by decide) year, same]
    · rintro week
      obtain rfl : a = 'W' := by simpa using week
      exact absurd digit (by decide)
    · rw [length_padded (w := 4) (by decide) year]
      decide
  generalize (padded 4 y).toList ++ '-' :: ((padded 2 m).toList ++ '-' ::
    (padded 2 d).toList) = date at readDate length dash noWeek
  generalize (padded 2 h).toList ++ ':' :: ((padded 2 n).toList ++ ':' ::
    ((padded 2 s).toList ++ '.' :: (padded 6 f).toList)) = clock at takeClock marks
  have dateLength : dateLength? (date ++ 'T' :: (clock ++ "+00:00".toList)) = some 10 := by
    have long : (date ++ 'T' :: (clock ++ "+00:00".toList)).length = clock.length + 17 := by
      simp [length]
      omega
    rw [dateLength?, if_neg (by omega), if_neg (by omega), List.getElem?_append_left (by omega),
      if_pos dash, List.getElem?_append_left (by omega), if_neg noWeek]
  have readTime : readTime? (clock ++ "+00:00".toList) = some (⟨h, n, s, f⟩, some 0) := by
    rw [readTime?, List.takeWhile_append_of_pos marks, List.dropWhile_append_of_pos marks]
    have stop : "+00:00".toList.takeWhile (!isOffsetMark ·) = [] := by decide
    have rest : "+00:00".toList.dropWhile (!isOffsetMark ·) = '+' :: "00:00".toList := by decide
    have nought : readOffset? ('+' == '-') "00:00".toList = some 0 := by decide
    simp only [stop, rest, List.append_nil, takeClock, Option.bind_eq_bind, Option.bind_some]
    show (readOffset? ('+' == '-') "00:00".toList).map _ = _
    rw [nought]
    rfl
  simp only [scan?, dateLength, Option.bind_eq_bind, Option.bind_some, List.take_left' length,
    List.drop_left' length, readDate, readTime]
  rfl

theorem wallOf_parts (i : Instant) :
    wallOf i.date ⟨i.hourOfDay, i.minuteOfHour, i.secondOfMinute, i.fraction⟩ = .ok i := by
  obtain ⟨year, month, month', day, day', number⟩ := Date.ofNumber_spec i.dayNumber
  have year' := Date.year_ofNumber_le i.dayNumber_lt
  have sum : i.date.number * Calendar.day + i.hourOfDay * Calendar.hour +
      i.minuteOfHour * Calendar.minute + i.secondOfMinute * Calendar.second + i.fraction =
      i.micros := by
    rw [Instant.date, number]
    simp only [Instant.dayNumber, Instant.hourOfDay, Instant.minuteOfHour, Instant.secondOfMinute,
      Instant.fraction, Calendar.day, Calendar.hour, Calendar.minute, Calendar.second]
    omega
  have hour := i.hourOfDay_le
  have minute := i.minuteOfHour_le
  have second := i.secondOfMinute_le
  rw [wallOf, if_neg (by rw [Instant.date]; omega), if_neg (by rw [Instant.date]; omega),
    if_neg (by rw [Instant.date]; omega), if_neg (by simp only; omega),
    if_neg (by simp only; omega), if_neg (by simp only; omega)]
  simp only [sum, Instant.ofMicros?_micros]

theorem read_stored (i : Instant) : read i.stored = .ok (utc i) := by
  obtain ⟨-, -, month, -, day, -⟩ := Date.ofNumber_spec i.dayNumber
  have year : i.date.year ≤ maxYear := Date.year_ofNumber_le i.dayNumber_lt
  have short := daysInMonth_le i.date.year i.date.month
  have hour := i.hourOfDay_le
  have minute := i.minuteOfHour_le
  have second := i.secondOfMinute_le
  have parts : i.stored.toList = ((padded 4 i.date.year).toList ++ '-' ::
      ((padded 2 i.date.month).toList ++ '-' :: (padded 2 i.date.day).toList)) ++
      'T' :: (((padded 2 i.hourOfDay).toList ++ ':' :: ((padded 2 i.minuteOfHour).toList ++ ':' ::
        ((padded 2 i.secondOfMinute).toList ++ '.' :: (padded 6 i.fraction).toList))) ++
          "+00:00".toList) := by
    simp [Instant.stored, Instant.dateText, Instant.clockText]
  have scanned := scan?_full (y := i.date.year) (m := i.date.month) (d := i.date.day)
    (h := i.hourOfDay) (n := i.minuteOfHour) (s := i.secondOfMinute)
    (Nat.lt_of_le_of_lt year (by decide)) (Nat.lt_of_le_of_lt month (by decide))
    (Nat.lt_of_le_of_lt (Nat.le_trans day short) (by decide)) (Nat.lt_of_le_of_lt hour (by decide))
    (Nat.lt_of_le_of_lt minute (by decide)) (Nat.lt_of_le_of_lt second (by decide)) i.fraction_lt
  rw [read, parts, scanned]
  show (if (0 : Int).natAbs < Calendar.day then _ else _) = _
  rw [if_pos (by decide), wallOf_parts]
  rfl

theorem read_stored_iff {i j : Instant} : read i.stored = .ok (utc j) ↔ i = j := by
  simp [read_stored, utc]

@[simp] theorem instant?_utc (i : Instant) : (utc i).instant? = some i := by
  simp only [instant?, utc, Option.getD_some, Int.sub_zero, Instant.ofMicros?_micros]

end Stamp

end ChoreReminder
