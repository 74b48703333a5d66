import ChoreReminder.Proofs.Calendar.Stamp

/-! Order of dates and of stored times. Dates with a number compare part by part, and so do clocks; since
the parts of a stored time stand in that order, each with its own width, stored texts compare like the
instants they denote. The greatest stored text of several is that of the latest instant. -/

namespace ChoreReminder

open Calendar

namespace Date

def Before (a b : Date) : Prop :=
  a.year < b.year ∨ a.year = b.year ∧ (a.month < b.month ∨ a.month = b.month ∧ a.day < b.day)

theorem number_lt_of_before {m n : Nat} (h : (ofNumber m).Before (ofNumber n)) : m < n := by
  obtain ⟨yearLow, -, monthHigh, dayLow, dayHigh, same⟩ := ofNumber_spec m
  obtain ⟨-, -, -, dayLow', -, same'⟩ := ofNumber_spec n
  rw [← same, ← same']
  generalize ofNumber m = a at *
  generalize ofNumber n = b at *
  unfold number
  unfold daysInMonth at dayHigh
  rcases h with year | ⟨year, month | ⟨month, day⟩⟩
  · have nextYear := daysBeforeYear_mono (Nat.le_add_left 1 a.year) year
    rw [daysBeforeYear_succ yearLow] at nextYear
    have wholeYear := daysBeforeMonth_mono (isLeap a.year) (show a.month + 1 ≤ 13 by omega)
    omega
  · have nextMonth : daysBeforeMonth (isLeap b.year) (a.month + 1) ≤
        daysBeforeMonth (isLeap b.year) b.month := daysBeforeMonth_mono _ month
    rw [year] at dayHigh ⊢
    omega
  · rw [year, month]
    omega

end Date

namespace Instant

variable {i j : Instant}

theorem lt_of_date_before (h : i.date.Before j.date) : i < j := by
  have less : i.micros / day < j.micros / day := Date.number_lt_of_before h
  show i.micros < j.micros
  exact Nat.lt_of_div_lt_div less

theorem stored_toList (i : Instant) :
    i.stored.toList = (Text.padded 4 i.date.year).toList ++ '-' ::
      ((Text.padded 2 i.date.month).toList ++ '-' :: ((Text.padded 2 i.date.day).toList ++ 'T' ::
        ((Text.padded 2 i.hourOfDay).toList ++ ':' :: ((Text.padded 2 i.minuteOfHour).toList ++ ':' ::
          ((Text.padded 2 i.secondOfMinute).toList ++ '.' :: ((Text.padded 6 i.fraction).toList ++
            "+00:00".toList)))))) := by
  simp [stored, dateText, clockText]

theorem lt_of_clock_lt (sameDate : i.date = j.date)
    (h : i.hourOfDay < j.hourOfDay ∨ i.hourOfDay = j.hourOfDay ∧
      (i.minuteOfHour < j.minuteOfHour ∨ i.minuteOfHour = j.minuteOfHour ∧
        (i.secondOfMinute < j.secondOfMinute ∨ i.secondOfMinute = j.secondOfMinute ∧
          i.fraction < j.fraction))) : i < j := by
  have number : i.dayNumber = j.dayNumber := by
    have back := (Date.ofNumber_spec i.dayNumber).2.2.2.2.2
    rw [show Date.ofNumber i.dayNumber = Date.ofNumber j.dayNumber from sameDate] at back
    exact back.symm.trans (Date.ofNumber_spec j.dayNumber).2.2.2.2.2
  show i.micros < j.micros
  simp only [dayNumber, hourOfDay, minuteOfHour, secondOfMinute, fraction, day, hour, minute,
    second] at number h
  omega

theorem date_fits (i : Instant) :
    i.date.year < 10 ^ 4 ∧ i.date.month < 10 ^ 2 ∧ i.date.day < 10 ^ 2 := by
  obtain ⟨-, -, month, -, day, -⟩ := Date.ofNumber_spec i.dayNumber
  have year : i.date.year ≤ 9999 := Date.year_ofNumber_le i.dayNumber_lt
  have short := daysInMonth_le i.date.year i.date.month
  exact ⟨by omega, Nat.lt_of_le_of_lt month (by decide),
    Nat.lt_of_le_of_lt (Nat.le_trans day short) (by decide)⟩

theorem clock_fits (i : Instant) :
    i.hourOfDay < 10 ^ 2 ∧ i.minuteOfHour < 10 ^ 2 ∧ i.secondOfMinute < 10 ^ 2 := by
  have hour := i.hourOfDay_le
  have minute := i.minuteOfHour_le
  have second := i.secondOfMinute_le
  omega

theorem lt_of_stored_lt (h : i.stored < j.stored) : i < j := by
  obtain ⟨year, month, day⟩ := i.date_fits
  obtain ⟨year', month', day'⟩ := j.date_fits
  obtain ⟨hour, minute, second⟩ := i.clock_fits
  obtain ⟨hour', minute', second'⟩ := j.clock_fits
  -- Behind a part that is the same in both texts, the same character follows.
  have next {c : Char} {rest rest' : List Char} (less : c :: rest < c :: rest') : rest < rest' := by
    rcases List.cons_lt_cons_iff.1 less with bad | ⟨-, less⟩
    · exact absurd bad (Char.lt_irrefl c)
    · exact less
  change i.stored.toList < j.stored.toList at h
  rw [stored_toList, stored_toList] at h
  rcases Text.lt_of_padded_append_lt (by decide) year year' h with less | ⟨sameYear, h⟩
  · exact lt_of_date_before (.inl less)
  rcases Text.lt_of_padded_append_lt (by decide) month month' (next h) with less | ⟨sameMonth, h⟩
  · exact lt_of_date_before (.inr ⟨sameYear, .inl less⟩)
  rcases Text.lt_of_padded_append_lt (by decide) day day' (next h) with less | ⟨sameDay, h⟩
  · exact lt_of_date_before (.inr ⟨sameYear, .inr ⟨sameMonth, less⟩⟩)
  have sameDate : i.date = j.date := by
    cases hi : i.date
    cases hj : j.date
    simp only [hi, hj] at sameYear sameMonth sameDay
    rw [sameYear, sameMonth, sameDay]
  refine lt_of_clock_lt sameDate ?_
  rcases Text.lt_of_padded_append_lt (by decide) hour hour' (next h) with less | ⟨sameHour, h⟩
  · exact .inl less
  rcases Text.lt_of_padded_append_lt (by decide) minute minute' (next h) with less | ⟨sameMinute, h⟩
  · exact .inr ⟨sameHour, .inl less⟩
  rcases Text.lt_of_padded_append_lt (by decide) second second' (next h) with less | ⟨sameSecond, h⟩
  · exact .inr ⟨sameHour, .inr ⟨sameMinute, .inl less⟩⟩
  rcases Text.lt_of_padded_append_lt (by decide) i.fraction_lt j.fraction_lt (next h) with less | ⟨-, h⟩
  · exact .inr ⟨sameHour, .inr ⟨sameMinute, .inr ⟨sameSecond, less⟩⟩⟩
  · exact absurd h (List.lt_irrefl _)

theorem stored_inj : i.stored = j.stored ↔ i = j := by
  constructor
  · intro same
    have read := Stamp.read_stored i
    rw [same, Stamp.read_stored j] at read
    have stamps : Stamp.utc j = Stamp.utc i := Except.ok.inj read
    exact (congrArg Stamp.wall stamps).symm
  · rintro rfl
    rfl

theorem stored_le_stored : i.stored ≤ j.stored ↔ i ≤ j := by
  constructor
  · intro le
    show i.micros ≤ j.micros
    by_contra later
    have less : j < i := Nat.lt_of_not_le later
    have notAfter : j.stored ≤ i.stored := by
      rw [← String.not_lt]
      intro before
      have : i.micros < j.micros := lt_of_stored_lt before
      omega
    have same := stored_inj.1 (String.le_antisymm le notAfter)
    rw [same] at less
    exact Nat.lt_irrefl _ less
  · intro le
    rw [← String.not_lt]
    intro before
    have less : j.micros < i.micros := lt_of_stored_lt before
    exact absurd le (Nat.not_le.2 less)

end Instant

end ChoreReminder
