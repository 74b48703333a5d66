import Mathlib.Algebra.Group.Nat.Defs
import ChoreReminder.Text.Numeral

/-! Padded numerals. The zeros in front change nothing about the number that a numeral denotes, so
padded texts of one width differ as soon as their numbers do, and a number that fits the width is read
back from its digits. Digit strings of one length compare like the numbers they denote, also with more
text behind them. -/

namespace ChoreReminder.Text

theorem ofDigitChars_padded (w n : Nat) :
    Nat.ofDigitChars 10 (padded w n).toList 0 = n := by
  simp only [padded, String.toList_ofList, Nat.ofDigitChars_append,
    Nat.ofDigitChars_replicate_zero, Nat.mul_zero]
  exact Nat.ofDigitChars_ten_toDigits

theorem padded_inj {w m n : Nat} : padded w m = padded w n ↔ m = n := by
  constructor
  · intro h
    rw [← ofDigitChars_padded w m, h, ofDigitChars_padded]
  · rintro rfl
    rfl

theorem length_padded {w n : Nat} (positive : 0 < w) (fits : n < 10 ^ w) :
    (padded w n).toList.length = w := by
  have short := (Nat.length_toDigits_le_iff (by decide) positive).2 fits
  simp only [padded, String.toList_ofList, List.length_append, List.length_replicate]
  omega

theorem isDigit_of_mem_padded {w n : Nat} {c : Char} (h : c ∈ (padded w n).toList) :
    c.isDigit = true := by
  simp only [padded, String.toList_ofList, List.mem_append, List.mem_replicate] at h
  rcases h with ⟨-, rfl⟩ | h
  · rfl
  · exact Nat.isDigit_of_mem_toDigits (by decide) (by decide) h

theorem asciiDigit?_of_isDigit {c : Char} (h : c.isDigit = true) :
    asciiDigit? c = some (c.toNat - '0'.toNat) := by
  have range : '0' ≤ c ∧ c ≤ '9' := by
    simp only [Char.isDigit, ge_iff_le, Bool.and_eq_true, decide_eq_true_eq] at h
    exact h
  rw [asciiDigit?, if_pos range]
  rfl

theorem readNat?_of_digits {cs : List Char} (nonempty : cs ≠ [])
    (digits : ∀ c ∈ cs, c.isDigit = true) :
    readNat? cs = some (Nat.ofDigitChars 10 cs 0) := by
  have values : cs.mapM asciiDigit? = some (cs.map fun c => c.toNat - '0'.toNat) := by
    clear nonempty
    induction cs with
    | nil => rfl
    | cons c cs ih =>
      rw [List.mapM_cons, asciiDigit?_of_isDigit (digits c List.mem_cons_self),
        ih fun d hd => digits d (List.mem_cons_of_mem _ hd)]
      rfl
  rw [readNat?, if_neg (by simpa using nonempty), values, Option.map_some, ofDigits,
    Nat.ofDigitChars_eq_foldl, List.foldl_map]
  simp only [Nat.mul_comm]

theorem readNat?_padded {w n : Nat} (positive : 0 < w) (fits : n < 10 ^ w) :
    readNat? (padded w n).toList = some n := by
  have nonempty : (padded w n).toList ≠ [] := by
    intro empty
    have length := length_padded positive fits
    rw [empty, List.length_nil] at length
    omega
  rw [readNat?_of_digits nonempty fun c hc => isDigit_of_mem_padded hc, ofDigitChars_padded]

/-! ### Order -/

theorem lt_of_append_lt {a b rest rest' : List Char} (width : a.length = b.length)
    (h : a ++ rest < b ++ rest') : a < b ∨ a = b ∧ rest < rest' := by
  induction a generalizing b with
  | nil =>
    obtain rfl : b = [] := List.length_eq_zero_iff.1 width.symm
    exact .inr ⟨rfl, h⟩
  | cons c a ih =>
    cases b with
    | nil => cases width
    | cons d b =>
      rw [List.cons_append, List.cons_append, List.cons_lt_cons_iff] at h
      rcases h with first | ⟨rfl, later⟩
      · exact .inl (List.cons_lt_cons_iff.2 (.inl first))
      · rcases ih (Nat.succ.inj width) later with less | ⟨rfl, less⟩
        · exact .inl (List.cons_lt_cons_iff.2 (.inr ⟨rfl, less⟩))
        · exact .inr ⟨rfl, less⟩

theorem digit_range {c : Char} (digit : c.isDigit = true) : 48 ≤ c.toNat ∧ c.toNat ≤ 57 := by
  simp only [Char.isDigit, ge_iff_le, Bool.and_eq_true, decide_eq_true_eq] at digit
  exact digit

theorem ofDigitChars_lt_pow {cs : List Char} (digits : ∀ c ∈ cs, c.isDigit = true) :
    Nat.ofDigitChars 10 cs 0 < 10 ^ cs.length := by
  induction cs with
  | nil => exact Nat.one_pos
  | cons c cs ih =>
    have range := digit_range (digits c List.mem_cons_self)
    have rest := ih fun d hd => digits d (List.mem_cons_of_mem _ hd)
    have value : c.toNat - '0'.toNat ≤ 9 := by
      show c.toNat - 48 ≤ 9
      omega
    rw [Nat.ofDigitChars_cons, Nat.mul_zero, Nat.zero_add, Nat.ofDigitChars_eq_ofDigitChars_zero,
      List.length_cons, Nat.pow_succ]
    have scaled := Nat.mul_le_mul_left (10 ^ cs.length) value
    omega

theorem ofDigitChars_lt_of_lt {cs ds : List Char} (width : cs.length = ds.length)
    (digits : ∀ c ∈ cs, c.isDigit = true) (digits' : ∀ d ∈ ds, d.isDigit = true) (h : cs < ds) :
    Nat.ofDigitChars 10 cs 0 < Nat.ofDigitChars 10 ds 0 := by
  induction cs generalizing ds with
  | nil =>
    obtain rfl : ds = [] := List.length_eq_zero_iff.1 width.symm
    exact absurd h (List.lt_irrefl [])
  | cons c cs ih =>
    cases ds with
    | nil => cases width
    | cons d ds =>
      have same : cs.length = ds.length := Nat.succ.inj width
      have rest : ∀ c ∈ cs, c.isDigit = true := fun c hc => digits c (List.mem_cons_of_mem _ hc)
      rw [Nat.ofDigitChars_cons, Nat.ofDigitChars_cons, Nat.mul_zero, Nat.zero_add, Nat.zero_add,
        Nat.ofDigitChars_eq_ofDigitChars_zero, @Nat.ofDigitChars_eq_ofDigitChars_zero ds, ← same]
      rcases List.cons_lt_cons_iff.1 h with first | ⟨rfl, later⟩
      · have below : c.toNat < d.toNat := first
        have low := (digit_range (digits c List.mem_cons_self)).1
        have step : c.toNat - '0'.toNat + 1 ≤ d.toNat - '0'.toNat := by
          show c.toNat - 48 + 1 ≤ d.toNat - 48
          omega
        have scaled := Nat.mul_le_mul_left (10 ^ cs.length) step
        have bound := ofDigitChars_lt_pow rest
        rw [Nat.mul_add, Nat.mul_one] at scaled
        omega
      · have less := ih same rest (fun d hd => digits' d (List.mem_cons_of_mem _ hd)) later
        omega

theorem lt_of_padded_append_lt {w m n : Nat} {rest rest' : List Char} (positive : 0 < w)
    (fits : m < 10 ^ w) (fits' : n < 10 ^ w)
    (h : (padded w m).toList ++ rest < (padded w n).toList ++ rest') :
    m < n ∨ m = n ∧ rest < rest' := by
  have width : (padded w m).toList.length = (padded w n).toList.length := by
    rw [length_padded positive fits, length_padded positive fits']
  rcases lt_of_append_lt width h with front | ⟨same, later⟩
  · have less := ofDigitChars_lt_of_lt width (fun c hc => isDigit_of_mem_padded hc)
      (fun c hc => isDigit_of_mem_padded hc) front
    rw [ofDigitChars_padded, ofDigitChars_padded] at less
    exact .inl less
  · exact .inr ⟨padded_inj.1 (String.toList_inj.1 same), later⟩

end ChoreReminder.Text
