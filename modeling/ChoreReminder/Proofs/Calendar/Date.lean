import Mathlib.Data.Nat.Init
import Mathlib.Tactic.IntervalCases
import ChoreReminder.Calendar.Date

/-! Dates and the numbers of days. The estimate of the year is off by one at most, and the months of a
year divide its days; so every day within the calendar has a date that exists, and the date gives the
number of the day back. -/

namespace ChoreReminder

namespace Calendar

theorem daysBeforeYear_succ {y : Nat} (h : 1 ≤ y) :
    daysBeforeYear (y + 1) = daysBeforeYear y + daysBeforeMonth (isLeap y) 13 := by
  have year : daysBeforeMonth (isLeap y) 13 = if isLeap y then 366 else 365 := by
    cases isLeap y <;> rfl
  rw [year]
  unfold daysBeforeYear isLeap
  by_cases four : y % 4 = 0
  · by_cases hundred : y % 100 = 0
    · by_cases fourHundred : y % 400 = 0
      · simp [four, hundred, fourHundred]
        omega
      · simp [four, hundred, fourHundred]
        omega
    · simp [four, hundred]
      omega
  · have quarter : y / 4 = (y - 1) / 4 := by omega
    have century : y / 100 = (y - 1) / 100 := by omega
    have cycle : y / 400 = (y - 1) / 400 := by omega
    simp [four, quarter, century, cycle]
    omega

theorem daysBeforeYear_mono {y z : Nat} (positive : 1 ≤ y) (h : y ≤ z) :
    daysBeforeYear y ≤ daysBeforeYear z := by
  induction z, h using Nat.le_induction with
  | base => exact Nat.le_refl _
  | succ z le ih =>
    rw [daysBeforeYear_succ (Nat.le_trans positive le)]
    omega

/-- The days before a year are its share of the 146097 days of 400 years, to less than two days. -/
theorem daysBeforeYear_share (y : Nat) :
    146097 * (y - 1) ≤ 400 * daysBeforeYear y + 699 ∧
      400 * daysBeforeYear y ≤ 146097 * (y - 1) + 396 := by
  unfold daysBeforeYear
  generalize y - 1 = k
  have quarter := Nat.div_add_mod k 4
  have century := Nat.div_add_mod k 100
  have cycle := Nat.div_add_mod k 400
  have quarterRest := Nat.mod_lt k (show 0 < 4 by decide)
  have centuryRest := Nat.mod_lt k (show 0 < 100 by decide)
  have cycleRest := Nat.mod_lt k (show 0 < 400 by decide)
  generalize k / 4 = a, k % 4 = r, k / 100 = b, k % 100 = s, k / 400 = c, k % 400 = t at *
  constructor <;> omega

theorem yearOf_spec (n : Nat) :
    1 ≤ yearOf n ∧ daysBeforeYear (yearOf n) ≤ n ∧ n < daysBeforeYear (yearOf n + 1) := by
  have estimate : 146097 * (n * 400 / 146097) ≤ n * 400 ∧
      n * 400 < 146097 * (n * 400 / 146097) + 146097 := by omega
  unfold yearOf
  generalize n * 400 / 146097 = k at estimate
  have before := (daysBeforeYear_share k).2
  have after : 146097 * (k + 2) ≤ 400 * daysBeforeYear (k + 1 + 1 + 1) + 699 :=
    (daysBeforeYear_share (k + 3)).1
  have first : daysBeforeYear 1 = 0 := rfl
  simp only
  split
  · next late =>
    have positive : 1 ≤ k := by
      by_contra zero
      obtain rfl : k = 0 := by omega
      rw [Nat.zero_add, first] at late
      omega
    rw [Nat.add_sub_cancel]
    exact ⟨positive, by omega, late⟩
  · next begun =>
    split
    · next later => exact ⟨by omega, later, by omega⟩
    · next within => exact ⟨by omega, by omega, by omega⟩

theorem yearOf_le_maxYear {n : Nat} (h : n < dayLimit) : yearOf n ≤ maxYear := by
  obtain ⟨-, starts, -⟩ := yearOf_spec n
  by_contra late
  have later : daysBeforeYear (maxYear + 1) ≤ daysBeforeYear (yearOf n) :=
    daysBeforeYear_mono (by decide) (by omega)
  have all : daysBeforeYear (maxYear + 1) = dayLimit := by decide
  omega

theorem daysBeforeMonth_succ_le (leap : Bool) (m : Nat) :
    daysBeforeMonth leap m ≤ daysBeforeMonth leap (m + 1) := by
  by_cases past : 13 ≤ m
  · obtain ⟨k, rfl⟩ : ∃ k, m = k + 13 := ⟨m - 13, by omega⟩
    cases leap <;> simp [daysBeforeMonth]
  · have inside : m < 13 := by omega
    cases leap <;> interval_cases m <;> decide

theorem daysBeforeMonth_mono (leap : Bool) {m n : Nat} (h : m ≤ n) :
    daysBeforeMonth leap m ≤ daysBeforeMonth leap n := by
  induction n, h using Nat.le_induction with
  | base => exact Nat.le_refl _
  | succ n _ ih => exact Nat.le_trans ih (daysBeforeMonth_succ_le leap n)

theorem daysInMonth_le (y m : Nat) : daysInMonth y m ≤ 31 := by
  by_cases past : 13 ≤ m
  · obtain ⟨k, rfl⟩ : ∃ k, m = k + 13 := ⟨m - 13, by omega⟩
    simp [daysInMonth, daysBeforeMonth]
  · have inside : m < 13 := by omega
    unfold daysInMonth
    cases isLeap y <;> interval_cases m <;> decide

theorem exists_month {leap : Bool} {n k : Nat} (h : n < daysBeforeMonth leap (k + 1)) :
    ∃ m, 1 ≤ m ∧ m ≤ k ∧ daysBeforeMonth leap m ≤ n ∧ n < daysBeforeMonth leap (m + 1) := by
  induction k with
  | zero =>
    have start : daysBeforeMonth leap (0 + 1) = 0 := by cases leap <;> rfl
    omega
  | succ k ih =>
    by_cases earlier : n < daysBeforeMonth leap (k + 1)
    · obtain ⟨m, low, high, within⟩ := ih earlier
      exact ⟨m, low, by omega, within⟩
    · exact ⟨k + 1, by omega, by omega, by omega, h⟩

theorem monthOf_eq {leap : Bool} {n m : Nat} (low : 1 ≤ m) (high : m ≤ 12)
    (starts : daysBeforeMonth leap m ≤ n) (ends : n < daysBeforeMonth leap (m + 1)) :
    monthOf leap n = m := by
  have begun : ∀ k, daysBeforeMonth leap (k + 2) ≤ n ↔ k + 2 ≤ m := by
    intro k
    constructor
    · intro before
      by_contra later
      have after := daysBeforeMonth_mono leap (show m + 1 ≤ k + 2 by omega)
      omega
    · intro le
      exact Nat.le_trans (daysBeforeMonth_mono leap le) starts
  simp only [monthOf, begun]
  interval_cases m <;> decide

theorem monthOf_spec {leap : Bool} {n : Nat} (h : n < daysBeforeMonth leap 13) :
    1 ≤ monthOf leap n ∧ monthOf leap n ≤ 12 ∧ daysBeforeMonth leap (monthOf leap n) ≤ n ∧
      n < daysBeforeMonth leap (monthOf leap n + 1) := by
  obtain ⟨m, low, high, starts, ends⟩ := exists_month h
  rw [monthOf_eq low high starts ends]
  exact ⟨low, high, starts, ends⟩

end Calendar

namespace Date

open Calendar

theorem ofNumber_spec (n : Nat) :
    1 ≤ (ofNumber n).year ∧ 1 ≤ (ofNumber n).month ∧ (ofNumber n).month ≤ 12 ∧
      1 ≤ (ofNumber n).day ∧
      (ofNumber n).day ≤ daysInMonth (ofNumber n).year (ofNumber n).month ∧
      (ofNumber n).number = n := by
  obtain ⟨positive, starts, ends⟩ := yearOf_spec n
  rw [daysBeforeYear_succ positive] at ends
  have rest : n - daysBeforeYear (yearOf n) < daysBeforeMonth (isLeap (yearOf n)) 13 := by omega
  obtain ⟨low, high, first, last⟩ := monthOf_spec rest
  simp only [ofNumber, number, daysInMonth]
  refine ⟨positive, low, high, ?_, ?_, ?_⟩ <;> omega

theorem year_ofNumber_le {n : Nat} (h : n < dayLimit) : (ofNumber n).year ≤ maxYear :=
  yearOf_le_maxYear h

end Date

end ChoreReminder
