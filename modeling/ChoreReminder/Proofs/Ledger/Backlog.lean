import Mathlib.Algebra.Order.Ring.Int
import ChoreReminder.Proofs.Ledger.Mark
import ChoreReminder.Proofs.Ledger.Pending

/-! The attempts that are left. Each delivery that may be attempted has some attempts left under a limit; a
mark that is meant for it uses up one of them at least, and no mark gives any back. Among the rows of a
ledger the marks of a batch use up one attempt each, if no two are meant for the same delivery. -/

namespace ChoreReminder

namespace Delivery

def remaining (maxAttempts : Int) (d : Delivery) : Nat :=
  if Ledger.isEligible maxAttempts d then (maxAttempts - d.attemptCount).toNat else 0

variable {maxAttempts : Int} {d : Delivery}

theorem remaining_of_open (open' : d.status ≠ .delivered) :
    d.remaining maxAttempts = (maxAttempts - d.attemptCount).toNat := by
  simp only [remaining, Ledger.isEligible, Bool.and_eq_true, bne_iff_ne, decide_eq_true_eq]
  by_cases below : (d.attemptCount : Int) < maxAttempts
  · rw [if_pos ⟨open', below⟩]
  · rw [if_neg fun eligible => below eligible.2]
    omega

theorem remaining_of_delivered (done : d.status = .delivered) : d.remaining maxAttempts = 0 :=
  if_neg (by simp [Ledger.isEligible, done])

theorem remaining_pos : 0 < d.remaining maxAttempts ↔ Ledger.isEligible maxAttempts d = true := by
  by_cases done : d.status = .delivered
  · simp [remaining_of_delivered done, Ledger.isEligible, done]
  · rw [remaining_of_open done]
    simp only [Ledger.isEligible, Bool.and_eq_true, bne_iff_ne, decide_eq_true_eq]
    constructor
    · exact fun positive => ⟨done, by omega⟩
    · rintro ⟨-, below⟩
      omega

theorem remaining_marked_le (m : Mark) :
    (d.marked m).remaining maxAttempts ≤ d.remaining maxAttempts := by
  unfold marked
  split
  · next applies =>
    rw [remaining_of_open applies.2]
    split
    · rw [remaining_of_delivered rfl]
      exact Nat.zero_le _
    · rw [remaining_of_open (by simp)]
      dsimp only
      omega
  · exact Nat.le_refl _

theorem remaining_marked_lt {m : Mark} (eligible : Ledger.isEligible maxAttempts d = true)
    (meant : d.id = m.deliveryId) : (d.marked m).remaining maxAttempts < d.remaining maxAttempts := by
  have positive := remaining_pos.2 eligible
  have open' : d.status ≠ .delivered := fun done => by
    rw [remaining_of_delivered done] at positive
    exact Nat.lt_irrefl 0 positive
  rw [remaining_of_open open'] at positive ⊢
  unfold marked
  rw [if_pos ⟨meant, open'⟩]
  split
  · rwa [remaining_of_delivered rfl]
  · rw [remaining_of_open (by simp)]
    dsimp only
    omega

theorem remaining_foldl_le (ms : List Mark) :
    (ms.foldl (fun d m => d.marked m) d).remaining maxAttempts ≤ d.remaining maxAttempts := by
  induction ms generalizing d with
  | nil => exact Nat.le_refl _
  | cons m ms ih => exact Nat.le_trans ih (remaining_marked_le m)

theorem remaining_foldl_lt {ms : List Mark} (eligible : Ledger.isEligible maxAttempts d = true)
    (meant : d.id ∈ ms.map (·.deliveryId)) :
    (ms.foldl (fun d m => d.marked m) d).remaining maxAttempts < d.remaining maxAttempts := by
  induction ms with
  | nil => cases meant
  | cons m ms ih =>
    rw [List.foldl_cons]
    rcases List.mem_cons.1 meant with first | later
    · exact Nat.lt_of_le_of_lt (remaining_foldl_le ms) (remaining_marked_lt eligible first)
    · by_cases first : d.id = m.deliveryId
      · exact Nat.lt_of_le_of_lt (remaining_foldl_le ms) (remaining_marked_lt eligible first)
      · rw [marked_of_ne first]
        exact ih later

end Delivery

namespace Ledger

variable {l : Ledger} {maxAttempts : Int}

/-- The attempts that are left under a limit, over all deliveries. -/
def backlog (maxAttempts : Int) (l : Ledger) : Nat :=
  (l.deliveries.map (·.remaining maxAttempts)).sum

theorem backlog_foldl_mark (ms : List Mark) :
    (ms.foldl (fun l m => (l.mark m).2) l).backlog maxAttempts +
        l.deliveries.countP (fun d => isEligible maxAttempts d ∧ d.id ∈ ms.map (·.deliveryId)) ≤
      l.backlog maxAttempts := by
  unfold backlog
  rw [foldl_mark_deliveries, List.map_map]
  induction l.deliveries with
  | nil => exact Nat.le_refl 0
  | cons d rest ih =>
    rw [List.map_cons, List.map_cons, List.sum_cons, List.sum_cons, List.countP_cons]
    have one : (ms.foldl (fun d m => d.marked m) d).remaining maxAttempts +
        (if decide (isEligible maxAttempts d = true ∧ d.id ∈ ms.map (·.deliveryId)) = true then 1
          else 0) ≤ d.remaining maxAttempts := by
      split
      · next hit =>
        obtain ⟨eligible, meant⟩ := of_decide_eq_true hit
        exact Delivery.remaining_foldl_lt eligible meant
      · exact Delivery.remaining_foldl_le ms
    dsimp only [Function.comp_apply]
    omega

theorem backlog_eq_zero :
    l.backlog maxAttempts = 0 ↔ l.deliveries.countP (isEligible maxAttempts) = 0 := by
  rw [backlog, List.sum_eq_zero_iff_forall_eq_nat, List.forall_mem_map, List.countP_eq_zero]
  refine forall₂_congr fun d _ => ?_
  rw [← Delivery.remaining_pos, Nat.pos_iff_ne_zero, not_not]

/-! ### The batch of a tick -/

theorem fitsWord_iff {n : Int} : fitsWord 64 n = true ↔ n < 2 ^ 63 ∧ -2 ^ 63 ≤ n := by
  have half : (twoPow (64 - 1) : Int) = 2 ^ 63 := by decide
  simp only [fitsWord, half, Bool.and_eq_true, decide_eq_true_eq]

theorem fitting_ok {n : Int} (low : -2 ^ 63 ≤ n) (high : n < 2 ^ 63) : fitting n = .ok () := by
  have fits : fitsWord 64 n = true := fitsWord_iff.2 ⟨high, low⟩
  simp only [fitting, Overflow.ofStored, fits, if_true]

theorem fitting_error {n : Int} (high : 2 ^ 63 ≤ n) : fitting n = .error (.overflow .stored) := by
  have wide : ¬ fitsWord 64 n = true := fun fits => Int.not_le.2 (fitsWord_iff.1 fits).1 high
  simp only [fitting, Overflow.ofStored, if_neg wide]

theorem Sound.pending_length (sound : Sound l) {limit : Int} (batch : 1 ≤ limit ∧ limit < 2 ^ 63)
    (attempts : 1 ≤ maxAttempts ∧ maxAttempts < 2 ^ 63) :
    ∃ ps, l.pending limit maxAttempts = .ok ps ∧
      ps.length = min limit.toNat (l.deliveries.countP (isEligible maxAttempts)) := by
  let rows := (l.deliveries.filter (isEligible maxAttempts)).filterMap fun d =>
    (l.joined? d).map (·, d.createdAt)
  refine ⟨(limited limit (rows.mergeSort attemptedBefore)).map (·.1), ?_, ?_⟩
  · simp only [pending, fitting_ok (n := maxAttempts) (by omega) attempts.2,
      fitting_ok (n := limit) (by omega) batch.2]
    rfl
  · have joined : ∀ d ∈ l.deliveries.filter (isEligible maxAttempts),
        ((l.joined? d).map (·, d.createdAt)).isSome = true := by
      intro d hd
      obtain ⟨e, he, event⟩ := sound.deliveryEvent d (List.mem_filter.1 hd).1
      have found : (l.event? d.eventId).isSome = true :=
        List.find?_isSome.2 ⟨e, he, decide_eq_true event⟩
      rw [joined?, Option.isSome_map, Option.isSome_map, found]
    have all : rows.length = l.deliveries.countP (isEligible maxAttempts) := by
      rw [List.length_filterMap_eq_countP, List.countP_eq_length.2 joined,
        List.countP_eq_length_filter]
    have short : ¬ limit < 0 := by omega
    rw [List.length_map, limited, if_neg short, List.length_take, List.length_mergeSort, all]

end Ledger

end ChoreReminder
