import ChoreReminder.Proofs.Cron.Search
import ChoreReminder.Proofs.Calendar.Stamp

/-! The next date of an expression. Where both day slots are restricted it is the earlier one of two
searches; these differ in their days only, so minute and second fit the date whichever of them has
found it. -/

namespace ChoreReminder.Cron

open Calendar

variable {e b : Expression} {after : Instant} {r s t : Nat}

def Expression.branches (e : Expression) : List Expression :=
  if e.eitherDay then [{ e with weekday := [.every] }, { e with day := [.every] }] else [e]

theorem Expression.branches_clock (member : b ∈ e.branches) :
    b.minute = e.minute ∧ b.second = e.second := by
  unfold branches at member
  split at member
  · simp only [List.mem_cons, List.not_mem_nil, or_false] at member
    rcases member with rfl | rfl <;> exact ⟨rfl, rfl⟩
  · rw [List.mem_singleton.1 member]
    exact ⟨rfl, rfl⟩

theorem Expression.Timed.branch (timed : e.Timed) (member : b ∈ e.branches) : b.Timed := by
  obtain ⟨minute, second⟩ := Expression.branches_clock member
  exact ⟨minute ▸ timed.minute, fun es given => timed.second es (second ▸ given)⟩

theorem Expression.firesAt_branch (member : b ∈ e.branches) : b.FiresAt t ↔ e.FiresAt t := by
  obtain ⟨minute, second⟩ := Expression.branches_clock member
  unfold FiresAt AdmitsSecond
  rw [minute, second]

theorem earlier_ok {lenient : Bool} {x y : Except Trouble Nat} (h : earlier lenient x y = .ok r) :
    (x = .ok r ∨ y = .ok r) ∧ (∀ s, x = .ok s → r ≤ s) ∧ ∀ s, y = .ok s → r ≤ s := by
  unfold earlier at h
  split at h
  · next m =>
    split at h
    · next n =>
      simp only [Except.ok.injEq] at h
      subst h
      refine ⟨?_, fun s same => ?_, fun s same => ?_⟩
      · rcases Nat.le_total m n with le | le
        · exact .inl (by rw [Nat.min_eq_left le])
        · exact .inr (by rw [Nat.min_eq_right le])
      · exact Except.ok.inj same ▸ Nat.min_le_left m n
      · exact Except.ok.inj same ▸ Nat.min_le_right m n
    · split at h
      · simp only [Except.ok.injEq] at h
        subst h
        exact ⟨.inl rfl, fun s same => Nat.le_of_eq (Except.ok.inj same), nofun⟩
      · cases h
    · cases h
  · split at h
    · subst h
      exact ⟨.inr rfl, nofun, fun s same => Nat.le_of_eq (Except.ok.inj same)⟩
    · cases h
  · cases h

theorem Expression.nextSeconds_ok (h : e.nextSeconds after = .ok r) :
    (∃ b ∈ e.branches, searchAfter b after = .ok r) ∧
      ∀ b ∈ e.branches, ∀ s, searchAfter b after = .ok s → r ≤ s := by
  unfold nextSeconds at h
  unfold branches
  split at h
  · next either =>
    rw [if_pos either]
    obtain ⟨found, first, second⟩ := earlier_ok h
    refine ⟨?_, fun b member s found => ?_⟩
    · rcases found with found | found
      · exact ⟨_, List.mem_cons_self, found⟩
      · exact ⟨_, List.mem_cons_of_mem _ List.mem_cons_self, found⟩
    · simp only [List.mem_cons, List.not_mem_nil, or_false] at member
      rcases member with rfl | rfl
      · exact first s found
      · exact second s found
  · next one =>
    rw [if_neg one]
    refine ⟨⟨e, List.mem_singleton.2 rfl, h⟩, fun b member s found => ?_⟩
    rw [List.mem_singleton.1 member, h] at found
    exact Nat.le_of_eq (Except.ok.inj found)

theorem Expression.nextSeconds_fires (timed : e.Timed) (h : e.nextSeconds after = .ok r) :
    e.FiresAt r ∧ after.micros / Calendar.second < r ∧ r < secondLimit ∧
      ∀ t, t / 3600 = r / 3600 → after.micros / Calendar.second < t → t < r → ¬ e.FiresAt t := by
  obtain ⟨⟨b, member, found⟩, -⟩ := nextSeconds_ok h
  obtain ⟨-, fires, later, within, passed⟩ := searchAfter_ok (timed.branch member) found
  refine ⟨(firesAt_branch member).1 fires, later, within, fun t hour from' before fires => ?_⟩
  exact passed t hour from' before ((firesAt_branch member).2 fires)

theorem Expression.nextSeconds_again {again : Instant} (timed : e.Timed)
    (h : e.nextSeconds after = .ok r) (from' : again.micros / Calendar.second = r)
    (hour : t / 3600 = r / 3600) (later : r < t) (fires : e.FiresAt t) :
    ∃ b ∈ e.branches, ∃ s, searchAfter b again = .ok s ∧ s ≤ t := by
  obtain ⟨⟨b, member, found⟩, -⟩ := nextSeconds_ok h
  obtain ⟨coarse, -, -, within, -⟩ := searchAfter_ok (timed.branch member) found
  refine ⟨b, member, ?_⟩
  have inside : t < secondLimit := by
    -- The end of time is the end of an hour.
    have whole : secondLimit = 3600 * (24 * dayLimit) := by
      unfold secondLimit daySeconds
      omega
    omega
  refine searchAfter_le (timed.branch member) (by rw [from', hour]) (from' ▸ later) inside ?_
    ((firesAt_branch member).2 fires)
  rw [Expression.coarse_congr hour]
  exact coarse

-- Search and length of a second are variables in the next two lemmas, so that no step computes with
-- the microseconds of a date.
theorem seconds_of_instant {x : Except Trouble Nat} {length : Nat} {o : Instant}
    (h : (match x with
      | .error t => .error t
      | .ok s =>
        match Instant.ofMicros? (s * length) with
        | some i => .ok i
        | none => .error .overflow) = (.ok o : Except Trouble Instant)) :
    ∃ r, x = .ok r ∧ o.micros = r * length := by
  cases x with
  | error t => cases h
  | ok r =>
    dsimp only at h
    rw [← Int.natCast_mul] at h
    cases at' : Instant.ofMicros? ((r * length : Nat) : Int) with
    | none =>
      rw [at'] at h
      cases h
    | some i =>
      rw [at'] at h
      exact ⟨r, rfl, Except.ok.inj h ▸ Instant.micros_of_ofMicros? at'⟩

theorem instant_of_seconds {x : Except Trouble Nat} {length : Nat} {o : Instant}
    (micros : o.micros = r * length) : x = .ok r → (match x with
      | .error t => .error t
      | .ok s =>
        match Instant.ofMicros? (s * length) with
        | some i => .ok i
        | none => .error .overflow) = (.ok o : Except Trouble Instant) := by
  rintro rfl
  dsimp only
  rw [← Int.natCast_mul, ← micros, Instant.ofMicros?_micros]

theorem Expression.next_ok {o : Instant} (h : e.next after = .ok o) :
    ∃ r, e.nextSeconds after = .ok r ∧ o.micros = r * Calendar.second := by
  unfold next at h
  exact seconds_of_instant h

theorem Expression.next_of_nextSeconds {o : Instant} (found : e.nextSeconds after = .ok r)
    (micros : o.micros = r * Calendar.second) : e.next after = .ok o := by
  unfold next
  exact instant_of_seconds micros found

theorem secondLimit_micros : secondLimit * second = limit := by decide

theorem exists_instant (inside : r < secondLimit) : ∃ o : Instant, o.micros = r * second := by
  have within : r * second < limit := by
    rw [← secondLimit_micros]
    exact Nat.mul_lt_mul_of_pos_right inside (by decide)
  exact ⟨⟨r * second, within⟩, rfl⟩

end ChoreReminder.Cron
