import Mathlib.Logic.Function.Iterate
import ChoreReminder.Proofs.Calendar.Month

/-! Dates that follow each other. The day after a date is told by the civil calendar alone, by the length of the
month and the end of the year, and to add days to the number of a date is to take that step so many times. -/

namespace ChoreReminder

open Calendar

namespace Date

/-- The day after a date: a later day of its month, the first of the next month, or New Year. -/
def next (d : Date) : Date :=
  if d.day < daysInMonth d.year d.month then { d with day := d.day + 1 }
  else if d.month < 12 then ⟨d.year, d.month + 1, 1⟩
  else ⟨d.year + 1, 1, 1⟩

theorem ofNumber_monthStart {i : Nat} (counted : 12 ≤ i) : ofNumber (monthStart i) = ⟨i / 12, i % 12 + 1, 1⟩ := by
  obtain ⟨-, year, month⟩ := monthIndex_parts (monthStart i)
  obtain ⟨day, -⟩ := day_ofNumber (monthStart i)
  have begun : i ≤ (ofNumber (monthStart i)).monthIndex :=
    Nat.not_lt.1 (mt (lt_monthStart_iff counted).2 (Nat.lt_irrefl _))
  have within : (ofNumber (monthStart i)).monthIndex < i + 1 := by
    refine (lt_monthStart_iff (by omega)).1 ?_
    have length : 28 ≤ monthLength i := daysInMonth_ge (by omega) (by omega)
    rw [monthStart_succ counted]
    omega
  have same : (ofNumber (monthStart i)).monthIndex = i := by omega
  rw [same] at year month day
  rw [← year, ← month]
  cases hd : ofNumber (monthStart i)
  simp only [hd, Date.mk.injEq, true_and] at day ⊢
  omega

theorem ofNumber_succ (n : Nat) : ofNumber (n + 1) = (ofNumber n).next := by
  obtain ⟨counted, year, month⟩ := monthIndex_parts n
  obtain ⟨at', last⟩ := day_ofNumber n
  have length : monthLength (ofNumber n).monthIndex = daysInMonth (ofNumber n).year (ofNumber n).month := by
    rw [monthLength, ← year, ← month]
  by_cases inMonth : (ofNumber n).day < daysInMonth (ofNumber n).year (ofNumber n).month
  · rw [next, if_pos inMonth]
    exact ofNumber_within (i := 1) (by omega)
  · have first : n + 1 = monthStart ((ofNumber n).monthIndex + 1) := by
      rw [monthStart_succ counted]
      omega
    rw [first, ofNumber_monthStart (by omega), next, if_neg inMonth]
    by_cases inYear : (ofNumber n).month < 12
    · rw [if_pos inYear, Date.mk.injEq]
      omega
    · rw [if_neg inYear, Date.mk.injEq]
      omega

theorem ofNumber_add (n k : Nat) : ofNumber (n + k) = next^[k] (ofNumber n) := by
  induction k with
  | zero => rfl
  | succ k ih => rw [← Nat.add_assoc, ofNumber_succ, ih, Function.iterate_succ_apply']

theorem lt_dayLimit_iff {n : Nat} : n < dayLimit ↔ (ofNumber n).year ≤ maxYear := by
  have whole : (⟨maxYear + 1, 1, 1⟩ : Date).number = dayLimit := by decide
  rw [← whole, lt_yearStart_iff (Nat.le_add_left 1 maxYear), Nat.lt_succ_iff]

end Date

end ChoreReminder
