import Mathlib.Tactic.Ring
import Mathlib.Data.Int.Order.Basic
import ChoreReminder.Number.Binary64

/-! The order of numbers that are integers. Two finite numbers are compared in units that both are multiples of;
for numbers without a fraction this is the order of the integers that they equal. -/

namespace ChoreReminder.Binary64

open Text (signed)

theorem signed_mul (negative : Bool) (a b : Nat) : signed negative (a * b) = signed negative a * b := by
  unfold signed
  split <;> push_cast <;> ring

theorem pow2_pos (e : Int) : 0 < pow2 e := Nat.two_pow_pos _

theorem pow2_add {a b : Int} (ha : 0 ≤ a) (hb : 0 ≤ b) : pow2 (a + b) = pow2 a * pow2 b := by
  unfold pow2 twoPow
  rw [Int.toNat_add ha hb]
  exact Nat.pow_add ..

theorem inUnits_finer {low lower e : Int} (negative : Bool) (m : Nat) (le : low ≤ e) (finer : lower ≤ low) :
    inUnits negative m e lower = inUnits negative m e low * pow2 (low - lower) := by
  have split : e - lower = (e - low) + (low - lower) := by omega
  rw [inUnits, inUnits, split, pow2_add (by omega) (by omega), ← Nat.mul_assoc, signed_mul]

theorem inUnits_of_toInt? {negative : Bool} {m : Nat} {e low i : Int}
    (whole : (finite negative m e).toInt? = some i) (le : low ≤ e) (fine : low ≤ 0) :
    inUnits negative m e low = i * pow2 (-low) := by
  unfold toInt? at whole
  rw [inUnits]
  dsimp only at whole
  split at whole
  · next large =>
    obtain rfl := Option.some.inj whole
    rw [show e - low = e + -low by omega, pow2_add large (by omega), ← Nat.mul_assoc, signed_mul]
  · next small =>
    split at whole
    · next divisible =>
      obtain rfl := Option.some.inj whole
      have exact' : m / pow2 (-e) * pow2 (-e) = m := Nat.div_mul_cancel (Nat.dvd_of_mod_eq_zero divisible)
      rw [← signed_mul, show -low = -e + (e - low) by omega, pow2_add (by omega) (by omega), ← Nat.mul_assoc,
        exact']
    · cases whole

theorem le_iff_of_toInt? {x y : Binary64} {i j : Int} (hx : x.toInt? = some i) (hy : y.toInt? = some j) :
    x.le y = true ↔ i ≤ j := by
  cases x with
  | finite n m e =>
    cases y with
    | finite n' m' e' =>
      let low := min e e'
      let fine := min low 0
      have below : fine ≤ low := min_le_left low 0
      have units : 0 < (pow2 (low - fine) : Int) := Int.natCast_pos.2 (pow2_pos _)
      have units' : 0 < (pow2 (-fine) : Int) := Int.natCast_pos.2 (pow2_pos _)
      have left : low ≤ e := min_le_left e e'
      have right : low ≤ e' := min_le_right e e'
      have hx := inUnits_of_toInt? hx (below.trans left) (min_le_right low 0)
      have hy := inUnits_of_toInt? hy (below.trans right) (min_le_right low 0)
      rw [inUnits_finer n m left below] at hx
      rw [inUnits_finer n' m' right below] at hy
      calc (finite n m e).le (finite n' m' e') = true
          ↔ inUnits n m e low ≤ inUnits n' m' e' low := decide_eq_true_iff
        _ ↔ i * pow2 (-fine) ≤ j * pow2 (-fine) := by rw [← hx, ← hy, Int.mul_le_mul_right units]
        _ ↔ i ≤ j := Int.mul_le_mul_right units'
    | infinite => cases hy
    | notANumber => cases hy
  | infinite => cases hx
  | notANumber => cases hx

theorem infinite_le {negative : Bool} {y : Binary64} {j : Int} (hy : y.toInt? = some j) :
    (infinite negative).le y = negative := by
  cases y with
  | finite => rfl
  | infinite => cases hy
  | notANumber => cases hy

theorem le_infinite {negative : Bool} {x : Binary64} {i : Int} (hx : x.toInt? = some i) :
    x.le (infinite negative) = !negative := by
  cases x with
  | finite => rfl
  | infinite => cases hx
  | notANumber => cases hx

end ChoreReminder.Binary64
