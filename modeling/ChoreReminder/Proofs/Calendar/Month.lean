import ChoreReminder.Proofs.Calendar.Date

/-! The months of the calendar in a row. Months are counted through all years, so a day lies in one month of
the row, the later of two days lies in a later month or in the same one, and the days of a month follow
each other from the first to the last. -/

namespace ChoreReminder

open Calendar

namespace Calendar

def monthStart (i : Nat) : Nat := (⟨i / 12, i % 12 + 1, 1⟩ : Date).number

def monthLength (i : Nat) : Nat := daysInMonth (i / 12) (i % 12 + 1)

theorem monthStart_succ {i : Nat} (counted : 12 ≤ i) : monthStart (i + 1) = monthStart i + monthLength i := by
  have grows := daysBeforeMonth_succ_le (isLeap (i / 12)) (i % 12 + 1)
  unfold monthStart monthLength daysInMonth Date.number
  by_cases december : i % 12 = 11
  · have year : (i + 1) / 12 = i / 12 + 1 := by omega
    have month : (i + 1) % 12 = 0 := by omega
    have start : daysBeforeMonth (isLeap (i / 12 + 1)) (0 + 1) = 0 := by
      cases isLeap (i / 12 + 1) <;> rfl
    simp only [year, month, december, start, Nat.reduceAdd] at grows ⊢
    rw [daysBeforeYear_succ (by omega)]
    omega
  · have year : (i + 1) / 12 = i / 12 := by omega
    have month : (i + 1) % 12 = i % 12 + 1 := by omega
    simp only [year, month]
    omega

theorem monthStart_mono {i j : Nat} (counted : 12 ≤ i) (h : i ≤ j) : monthStart i ≤ monthStart j := by
  induction j, h using Nat.le_induction with
  | base => exact Nat.le_refl _
  | succ j le ih =>
    rw [monthStart_succ (Nat.le_trans counted le)]
    exact Nat.le_trans ih (Nat.le_add_right _ _)

theorem daysInMonth_ge {y m : Nat} (low : 1 ≤ m) (high : m ≤ 12) : 28 ≤ daysInMonth y m := by
  unfold daysInMonth
  cases isLeap y <;> interval_cases m <;> decide

end Calendar

namespace Date

/-- The month of a date, counted through all years. -/
def monthIndex (d : Date) : Nat := 12 * d.year + (d.month - 1)

variable {m n i : Nat}

theorem monthIndex_parts (n : Nat) :
    12 ≤ (ofNumber n).monthIndex ∧ (ofNumber n).year = (ofNumber n).monthIndex / 12 ∧
      (ofNumber n).month = (ofNumber n).monthIndex % 12 + 1 := by
  obtain ⟨year, low, high, -⟩ := ofNumber_spec n
  unfold monthIndex
  omega

theorem number_of_index (d : Date) (low : 1 ≤ d.month) (high : d.month ≤ 12) :
    d.number = monthStart d.monthIndex + (d.day - 1) := by
  have year : d.monthIndex / 12 = d.year := by
    unfold monthIndex
    omega
  have month : d.monthIndex % 12 + 1 = d.month := by
    unfold monthIndex
    omega
  simp only [monthStart, number, year, month]
  omega

theorem day_ofNumber (n : Nat) :
    n + 1 = monthStart (ofNumber n).monthIndex + (ofNumber n).day ∧
      (ofNumber n).day ≤ monthLength (ofNumber n).monthIndex := by
  obtain ⟨-, low, high, first, last, same⟩ := ofNumber_spec n
  obtain ⟨-, year, month⟩ := monthIndex_parts n
  have number := number_of_index (ofNumber n) low high
  rw [same] at number
  rw [monthLength, ← year, ← month]
  omega

theorem number_day {d : Nat} (positive : 1 ≤ d) :
    ({ ofNumber n with day := d } : Date).number + (ofNumber n).day = n + d := by
  obtain ⟨-, low, high, first, -⟩ := ofNumber_spec n
  obtain ⟨at', -⟩ := day_ofNumber n
  have number := number_of_index { ofNumber n with day := d } low high
  change _ = monthStart (ofNumber n).monthIndex + (d - 1) at number
  omega

theorem monthStart_le (n : Nat) :
    monthStart (ofNumber n).monthIndex ≤ n ∧ n < monthStart ((ofNumber n).monthIndex + 1) := by
  obtain ⟨at', last⟩ := day_ofNumber n
  obtain ⟨-, -, -, first, -⟩ := ofNumber_spec n
  rw [monthStart_succ (monthIndex_parts n).1]
  omega

theorem lt_monthStart_iff (counted : 12 ≤ i) : n < monthStart i ↔ (ofNumber n).monthIndex < i := by
  obtain ⟨start, next⟩ := monthStart_le n
  constructor
  · intro before
    by_contra late
    have := monthStart_mono counted (Nat.not_lt.1 late)
    omega
  · intro before
    have counted' : 12 ≤ (ofNumber n).monthIndex + 1 := Nat.le_trans (monthIndex_parts n).1 (Nat.le_succ _)
    exact Nat.lt_of_lt_of_le next (monthStart_mono counted' before)

theorem monthIndex_mono (h : m ≤ n) : (ofNumber m).monthIndex ≤ (ofNumber n).monthIndex := by
  by_contra late
  have before := (lt_monthStart_iff (monthIndex_parts m).1).2 (Nat.not_le.1 late)
  have := (monthStart_le m).1
  omega

theorem year_mono (h : m ≤ n) : (ofNumber m).year ≤ (ofNumber n).year := by
  rw [(monthIndex_parts m).2.1, (monthIndex_parts n).2.1]
  exact Nat.div_le_div_right (monthIndex_mono h)

theorem yearStart_eq (y : Nat) : (⟨y, 1, 1⟩ : Date).number = monthStart (12 * y) :=
  number_of_index ⟨y, 1, 1⟩ (Nat.le_refl 1) (Nat.le_add_left 1 11)

theorem lt_yearStart_iff {y : Nat} (positive : 1 ≤ y) :
    n < (⟨y, 1, 1⟩ : Date).number ↔ (ofNumber n).year < y := by
  rw [yearStart_eq, lt_monthStart_iff (by omega)]
  have := (monthIndex_parts n).2.1
  omega

theorem ofNumber_within (within : (ofNumber n).day + i ≤ monthLength (ofNumber n).monthIndex) :
    ofNumber (n + i) = { ofNumber n with day := (ofNumber n).day + i } := by
  obtain ⟨counted, year, month⟩ := monthIndex_parts n
  obtain ⟨-, year', month'⟩ := monthIndex_parts (n + i)
  obtain ⟨at', -⟩ := day_ofNumber n
  obtain ⟨at'', -⟩ := day_ofNumber (n + i)
  have least := monthIndex_mono (Nat.le_add_right n i)
  have most : (ofNumber (n + i)).monthIndex < (ofNumber n).monthIndex + 1 := by
    refine (lt_monthStart_iff (by omega)).1 ?_
    rw [monthStart_succ counted]
    omega
  have same : (ofNumber (n + i)).monthIndex = (ofNumber n).monthIndex := by omega
  rw [same] at year' month' at''
  cases hm : ofNumber (n + i)
  simp only [hm] at year' month' at'' ⊢
  rw [year', month', ← year, ← month, Date.mk.injEq]
  exact ⟨rfl, rfl, by omega⟩

theorem day_le_since (counted : 12 ≤ i) (h : monthStart i ≤ n) : (ofNumber n).day ≤ n - monthStart i + 1 := by
  obtain ⟨at', -⟩ := day_ofNumber n
  have later : i ≤ (ofNumber n).monthIndex := Nat.not_lt.1 (mt (lt_monthStart_iff counted).2 (Nat.not_lt.2 h))
  have := monthStart_mono counted later
  omega

end Date

end ChoreReminder
