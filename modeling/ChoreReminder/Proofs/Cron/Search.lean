import ChoreReminder.Proofs.Cron.Moves

/-! Where a search ends. It ends at a candidate that fits, and has passed over no time of that hour at
which minute and second fit; and if some later time of the hour in which it stands fits, it ends there
at the latest. -/

namespace ChoreReminder.Cron

open Calendar

variable {e : Expression} {startYear s t r : Nat}

/-! ### The search -/

/-- What holds of a candidate and is kept by every move forward holds of the date that is found. -/
theorem search_invariant {P : Nat → Prop} (start : P s) (inside : s < secondLimit)
    (step : ∀ c c', P c → firstMove (.ofSeconds c) e.moves = .ok (.to c') → c < c' → P c')
    (h : search e startYear s = .ok r) :
    P r ∧ firstMove (.ofSeconds r) e.moves = .ok .stay ∧ s ≤ r ∧ r < secondLimit := by
  induction left : secondLimit - s using Nat.strongRecOn generalizing s with
  | ind n ih =>
    rw [search] at h
    split at h
    · cases h
    · cases move : firstMove (.ofSeconds s) e.moves with
      | error => simp [move] at h
      | ok m =>
        cases m with
        | stay =>
          simp only [move, Except.ok.injEq] at h
          exact h ▸ ⟨start, move, Nat.le_refl _, inside⟩
        | «to» next =>
          simp only [move] at h
          split at h
          · next forward =>
            obtain ⟨kept, fits, later, within⟩ :=
              ih _ (by omega) (step s next start move forward.1) forward.2 h rfl
            exact ⟨kept, fits, by omega, within⟩
          · cases h

/-- A candidate of a search from `first`: it passed over no time of its hour at which minute and second
fit. -/
structure Expression.Candidate (e : Expression) (first c : Nat) : Prop where
  aligned : e.Aligned c
  passed : ∀ t, t / 3600 = c / 3600 → first ≤ t → t < c → ¬ e.FiresAt t

theorem Expression.Candidate.first (aligned : e.Aligned s) : e.Candidate s s :=
  ⟨aligned, fun t _ from' before => by omega⟩

theorem Expression.moves_stay {m : Moment} (h : firstMove m e.moves = .ok .stay) :
    e.coarse m = .ok .stay ∧ e.fine m = .ok .stay := by
  rw [e.firstMove_moves] at h
  split at h
  · next stay => exact ⟨stay, h⟩
  · next moved => exact absurd h moved

theorem Expression.Candidate.move (timed : e.Timed) {first c c' : Nat} (cand : e.Candidate first c)
    (move : firstMove (.ofSeconds c) e.moves = .ok (.to c')) (forward : c < c') :
    e.Candidate first c' := by
  rw [e.firstMove_moves] at move
  split at move
  · rcases timed.fine_cases cand.aligned with ⟨stay, -⟩ | ⟨n, fine, -, aligned, skipped⟩
    · rw [stay] at move
      cases move
    · rw [fine] at move
      obtain ⟨-, rfl⟩ := moveTo_eq_to.1 move
      refine ⟨aligned, fun t hour from' before => ?_⟩
      by_cases ahead : c ≤ t
      · exact skipped t ahead before
      · -- The candidate before the move lies between the two times, so it was of the same hour.
        exact cand.passed t (by omega) from' (by omega)
  · have hour := Expression.coarse_eq_to move
    exact ⟨fun _ => by omega, fun t same _ before => by omega⟩

theorem search_ok (timed : e.Timed) (aligned : e.Aligned s) (inside : s < secondLimit)
    (h : search e startYear s = .ok r) :
    e.coarse (.ofSeconds r) = .ok .stay ∧ e.FiresAt r ∧ s ≤ r ∧ r < secondLimit ∧
      ∀ t, t / 3600 = r / 3600 → s ≤ t → t < r → ¬ e.FiresAt t := by
  obtain ⟨cand, fits, later, within⟩ := search_invariant (P := e.Candidate s) (.first aligned) inside
    (fun _ _ cand move forward => cand.move timed move forward) h
  obtain ⟨coarse, fine⟩ := Expression.moves_stay fits
  refine ⟨coarse, ?_, later, within, cand.passed⟩
  rcases timed.fine_cases cand.aligned with ⟨-, fires⟩ | ⟨n, moved, -, -, -⟩
  · exact fires
  · rw [moved] at fine
    unfold moveTo at fine
    split at fine <;> cases fine

/-- A search that stands in the hour of a time that fits, not behind it, ends there at the latest. -/
theorem search_le (timed : e.Timed) (aligned : e.Aligned s) (hour : s / 3600 = t / 3600) (le : s ≤ t)
    (inside : t < secondLimit) (coarse : e.coarse (.ofSeconds t) = .ok .stay) (fires : e.FiresAt t)
    (year : (Moment.ofSeconds t).date.year ≤ startYear + horizon) :
    ∃ r, search e startYear s = .ok r ∧ r ≤ t := by
  induction left : t - s using Nat.strongRecOn generalizing s with
  | ind n ih =>
    rw [search]
    have sameYear : ¬ (Moment.ofSeconds s).date.year > startYear + horizon := by
      rw [Moment.ofSeconds_eq hour]
      exact Nat.not_lt.2 year
    rw [if_neg sameYear, e.firstMove_moves, e.coarse_congr hour, coarse]
    rcases timed.fine_cases aligned with ⟨stay, -⟩ | ⟨c, moved, forward, aligned', skipped⟩
    · rw [stay]
      exact ⟨s, rfl, le⟩
    · have ahead : c ≤ t := by
        by_cases passed : t < c
        · exact absurd fires (skipped t le passed)
        · omega
      have within : c < secondLimit := by omega
      have move : moveTo c = .ok (.to c) := moveTo_eq_to.2 ⟨within, rfl⟩
      rw [moved, move]
      dsimp only
      rw [if_pos ⟨forward, within⟩]
      exact ih _ (by omega) aligned' (by omega) ahead rfl

/-! ### From an instant -/

section After

variable {after : Instant}

theorem firstCandidate_aligned (e : Expression) (after : Instant) :
    e.Aligned (firstCandidate e after) := by
  intro none'
  rw [firstCandidate, none']
  exact Nat.mul_mod_left _ _

theorem lt_firstCandidate (e : Expression) (after : Instant) :
    after.micros / second < firstCandidate e after := by
  unfold firstCandidate
  dsimp only
  split <;> omega

theorem firstCandidate_le (fires : e.FiresAt t) (later : after.micros / second < t) :
    firstCandidate e after ≤ t := by
  unfold firstCandidate
  dsimp only
  split
  · next none' =>
    have whole := (Expression.admitsSecond_none none').1 fires.2
    omega
  · omega

theorem searchAfter_ok (timed : e.Timed) (h : searchAfter e after = .ok r) :
    e.coarse (.ofSeconds r) = .ok .stay ∧ e.FiresAt r ∧ after.micros / second < r ∧
      r < secondLimit ∧
      ∀ t, t / 3600 = r / 3600 → after.micros / second < t → t < r → ¬ e.FiresAt t := by
  unfold searchAfter at h
  dsimp only at h
  split at h
  · next inside =>
    obtain ⟨coarse, fires, later, within, passed⟩ :=
      search_ok timed (firstCandidate_aligned e after) inside h
    refine ⟨coarse, fires, Nat.lt_of_lt_of_le (lt_firstCandidate e after) later, within, ?_⟩
    exact fun t hour from' before fires =>
      passed t hour (firstCandidate_le fires from') before fires
  · cases h

theorem searchAfter_le (timed : e.Timed) (hour : after.micros / second / 3600 = t / 3600)
    (later : after.micros / second < t) (inside : t < secondLimit)
    (coarse : e.coarse (.ofSeconds t) = .ok .stay) (fires : e.FiresAt t) :
    ∃ r, searchAfter e after = .ok r ∧ r ≤ t := by
  have low := lt_firstCandidate e after
  have high := firstCandidate_le fires later
  have sameHour : firstCandidate e after / 3600 = t / 3600 := by omega
  unfold searchAfter
  dsimp only
  rw [if_pos (by omega)]
  refine search_le timed (firstCandidate_aligned e after) sameHour high inside coarse fires ?_
  rw [Moment.ofSeconds_eq sameHour]
  exact Nat.le_add_right _ _

end After

end ChoreReminder.Cron
