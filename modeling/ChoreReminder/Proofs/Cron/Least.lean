import ChoreReminder.Proofs.Cron.Next
import ChoreReminder.Proofs.Cron.Passed

/-! The next date is the first one. A search passes over no time at which all slots let a candidate stand,
and where it gives up no such time lies within the years that it covers. So of two instants the later one
has the later next date, although the two searches do not meet the same candidates. -/

namespace ChoreReminder.Cron

open Calendar

variable {e b : Expression} {startYear s s' t r : Nat} {after : Instant}

def Expression.FitsAt (e : Expression) (t : Nat) : Prop :=
  e.coarse (.ofSeconds t) = .ok .stay ∧ e.FiresAt t

/-! ### One move -/

/-- The slots let a candidate stand, or lead to a later one over times that do not fit; where they say that there is
no date, the calendar has no time left that fits. -/
theorem Expression.WellRead.move_cases (wellRead : e.WellRead) (aligned : e.Aligned s) :
    firstMove (.ofSeconds s) e.moves = .ok .stay ∨ ∃ n, s < n ∧ (∀ t, s ≤ t → t < n → ¬ e.FitsAt t) ∧
      (firstMove (.ofSeconds s) e.moves = .ok (.to n) ∧ e.Aligned n ∨
        secondLimit ≤ n ∧ ∃ x, firstMove (.ofSeconds s) e.moves = .error x) := by
  rw [e.firstMove_moves]
  rcases wellRead.coarse_leads s with stay | ⟨n, later, passes, moved⟩
  · rw [stay]
    rcases wellRead.timed.fine_cases aligned with ⟨fine, -⟩ | ⟨n, fine, later, aligned', skipped⟩
    · exact .inl fine
    · refine .inr ⟨n, later, fun t from' before fits => skipped t from' before fits.2, ?_⟩
      dsimp only
      rw [fine, moveTo]
      by_cases inside : n < secondLimit
      · exact .inl ⟨if_pos inside, aligned'⟩
      · exact .inr ⟨Nat.le_of_not_lt inside, _, if_neg inside⟩
  · refine .inr ⟨n, later, fun t from' before fits => passes t from' before fits.1, ?_⟩
    rcases moved with move | ⟨past, x, failed⟩
    · have hour := Expression.coarse_eq_to move
      rw [move]
      exact .inl ⟨rfl, fun _ => by omega⟩
    · rw [failed]
      exact .inr ⟨past, x, rfl⟩

theorem Expression.WellRead.move_passes (wellRead : e.WellRead) (aligned : e.Aligned s)
    (move : firstMove (.ofSeconds s) e.moves = .ok (.to s')) :
    s < s' ∧ e.Aligned s' ∧ ∀ t, s ≤ t → t < s' → ¬ e.FitsAt t := by
  rcases wellRead.move_cases aligned with stay | ⟨n, later, passes, ⟨moved, aligned'⟩ | ⟨-, x, failed⟩⟩
  · cases stay.symm.trans move
  · obtain rfl := Move.to.inj (Except.ok.inj (moved.symm.trans move))
    exact ⟨later, aligned', passes⟩
  · cases failed.symm.trans move

theorem Expression.WellRead.move_error (wellRead : e.WellRead) (aligned : e.Aligned s) {x : Trouble}
    (failed : firstMove (.ofSeconds s) e.moves = .error x) (from' : s ≤ t) (inside : t < secondLimit) :
    ¬ e.FitsAt t := by
  rcases wellRead.move_cases aligned with stay | ⟨n, -, passes, ⟨moved, -⟩ | ⟨past, -⟩⟩
  · cases stay.symm.trans failed
  · cases moved.symm.trans failed
  · exact passes t from' (Nat.lt_of_lt_of_le inside past)

theorem Expression.WellRead.fitsAt_of_stay (wellRead : e.WellRead) (aligned : e.Aligned s)
    (stay : firstMove (.ofSeconds s) e.moves = .ok .stay) : e.FitsAt s := by
  obtain ⟨coarse, fine⟩ := Expression.moves_stay stay
  rcases wellRead.timed.fine_cases aligned with ⟨-, fires⟩ | ⟨n, moved, -⟩
  · exact ⟨coarse, fires⟩
  · exact absurd (moved ▸ fine) (moveTo_ne_stay n)

@[simp]
theorem moveTo_ne_noDate (n : Nat) : moveTo n ≠ .error (.fault .noDate) := by
  unfold moveTo
  split <;> nofun

@[simp]
theorem moveToDay_ne_noDate (m : Moment) (days : List Nat) : moveToDay m days ≠ .error (.fault .noDate) := by
  unfold moveToDay nextMonth
  split
  · exact moveTo_ne_noDate _
  · split
    · nofun
    · exact moveTo_ne_noDate _

theorem Expression.ne_noDate_of_mem_tail {m : Moment} {f : Moment → Except Trouble Move}
    (below : f ∈ e.moves.tail) : f m ≠ .error (.fault .noDate) := by
  simp only [Expression.moves, List.tail_cons, List.mem_cons, List.not_mem_nil, or_false] at below
  rcases below with rfl | rfl | rfl | rfl | rfl | rfl
  · unfold Expression.monthMove moveToMonth
    dsimp only
    split_ifs <;> simp
  · unfold Expression.dayMove
    dsimp only
    split_ifs <;> simp
  · unfold Expression.weekdayMove
    dsimp only
    split_ifs <;> simp
  · unfold Expression.hourMove
    dsimp only
    split_ifs <;> simp
  · unfold Expression.minuteMove
    dsimp only
    split_ifs <;> simp
  · unfold Expression.secondMove
    split
    · nofun
    · dsimp only
      split_ifs <;> simp

theorem Expression.yearMove_of_noDate {m : Moment}
    (h : firstMove m e.moves = .error (.fault .noDate)) : e.yearMove m = .error (.fault .noDate) := by
  obtain ⟨f, member, move⟩ := exists_of_firstMove h nofun
  rcases List.mem_cons.1 member with rfl | below
  · exact move
  · exact absurd move (ne_noDate_of_mem_tail below)

/-! ### The search -/

/-- What the end of a search from a time says about the times that fit: the first one has been found, or
they all lie beyond the years it covers. -/
def Expression.Ends (e : Expression) (startYear s : Nat) : Except Trouble Nat → Prop
  | .ok r => e.FitsAt r ∧ s ≤ r ∧ (Moment.ofSeconds r).date.year ≤ startYear + horizon ∧
      ∀ t, s ≤ t → t < r → ¬ e.FitsAt t
  | .error (.fault .noDate) =>
      ∀ t, s ≤ t → e.FitsAt t → startYear + horizon < (Moment.ofSeconds t).date.year
  | .error _ => True

theorem Expression.Ends.of_passed {result : Except Trouble Nat} (ends : e.Ends startYear s' result)
    (le : s ≤ s') (passed : ∀ t, s ≤ t → t < s' → ¬ e.FitsAt t) : e.Ends startYear s result := by
  unfold Ends at ends ⊢
  split at ends
  · obtain ⟨fits, later, year, least⟩ := ends
    refine ⟨fits, Nat.le_trans le later, year, fun t from' before fits => ?_⟩
    have ahead : s' ≤ t := Nat.le_of_not_lt fun early => passed t from' early fits
    exact least t ahead before fits
  · intro t from' fits
    exact ends t (Nat.le_of_not_lt fun early => passed t from' early fits) fits
  · trivial

theorem Expression.ends_error {x : Trouble} (other : x ≠ .fault .noDate) :
    e.Ends startYear s (.error x) := by
  unfold Ends
  split
  · next found => cases found
  · next same => exact absurd (Except.error.inj same) other
  · trivial

theorem search_ends (wellRead : e.WellRead) (aligned : e.Aligned s) :
    e.Ends startYear s (search e startYear s) := by
  fun_induction search e startYear s with
  | case1 s m far => exact fun t from' _ => Nat.lt_of_lt_of_le far (ofSeconds_year_mono from')
  | case2 s m near x move =>
    by_cases noDate : x = .fault .noDate
    · subst noDate
      intro t from' fits
      have stay := firstMove_eq_stay.1 fits.1 e.yearMove List.mem_cons_self
      exact absurd stay (yearMove_noDate (Expression.yearMove_of_noDate move) from')
    · exact Expression.ends_error noDate
  | case3 s m near stay =>
    exact ⟨wellRead.fitsAt_of_stay aligned stay, Nat.le_refl s, Nat.le_of_not_lt near, fun t _ _ => by omega⟩
  | case4 s m near next move forward ih =>
    obtain ⟨-, aligned', passed⟩ := wellRead.move_passes aligned move
    exact (ih aligned').of_passed (Nat.le_of_lt forward.1) passed
  | case5 => exact Expression.ends_error (by decide)

/-! ### From an instant -/

theorem searchAfter_ends (wellRead : e.WellRead) (after : Instant) :
    e.Ends (Moment.ofSeconds (firstCandidate e after)).date.year (firstCandidate e after)
      (searchAfter e after) := by
  unfold searchAfter
  dsimp only
  split
  · exact search_ends wellRead (firstCandidate_aligned e after)
  · exact Expression.ends_error (by decide)

theorem Expression.WellRead.branch (wellRead : e.WellRead) (member : b ∈ e.branches) : b.WellRead := by
  have free (slot : Slot) : slot.Holds [.every] := .singleton (Slot.Fits.nil slot).every
  unfold branches at member
  split at member
  · simp only [List.mem_cons, List.not_mem_nil, or_false] at member
    rcases member with rfl | rfl
    · exact { wellRead with weekday := free _ }
    · exact { wellRead with day := free _ }
  · exact List.mem_singleton.1 member ▸ wellRead

theorem firstCandidate_branch (member : b ∈ e.branches) (after : Instant) :
    firstCandidate b after = firstCandidate e after := by
  unfold firstCandidate
  rw [(Expression.branches_clock member).2]

/-- A date of the expression. Where both day slots are restricted it has to fit one of them only. -/
def Expression.FallsAt (e : Expression) (t : Nat) : Prop := ∃ b ∈ e.branches, b.FitsAt t

theorem earlier_searched {lenient : Bool} {x y z : Except Trouble Nat} (h : earlier lenient x y = .ok r)
    (one : z = x ∨ z = y) : (∃ s, z = .ok s ∧ r ≤ s) ∨ z = .error (.fault .noDate) := by
  obtain ⟨-, first, second⟩ := earlier_ok h
  unfold earlier at h
  rcases one with rfl | rfl
  · split at h
    · exact .inl ⟨_, rfl, first _ rfl⟩
    · exact .inr rfl
    · cases h
  · split at h
    · split at h
      · exact .inl ⟨_, rfl, second _ rfl⟩
      · exact .inr rfl
      · cases h
    · split at h
      · exact .inl ⟨_, h, Nat.le_refl r⟩
      · cases h
    · cases h

/-- A search that has not found the next date has found a later one, or has given up. -/
theorem Expression.nextSeconds_searched (h : e.nextSeconds after = .ok r) (member : b ∈ e.branches) :
    (∃ s, searchAfter b after = .ok s ∧ r ≤ s) ∨ searchAfter b after = .error (.fault .noDate) := by
  unfold nextSeconds at h
  unfold branches at member
  split at h
  · next either =>
    rw [if_pos either] at member
    simp only [List.mem_cons, List.not_mem_nil, or_false] at member
    refine earlier_searched h ?_
    rcases member with rfl | rfl
    · exact .inl rfl
    · exact .inr rfl
  · next one =>
    rw [if_neg one] at member
    exact .inl ⟨r, List.mem_singleton.1 member ▸ h, Nat.le_refl r⟩

theorem Expression.WellRead.nextSeconds_least (wellRead : e.WellRead) (h : e.nextSeconds after = .ok r) :
    e.FallsAt r ∧ after.micros / Calendar.second < r ∧
      ∀ t, after.micros / Calendar.second < t → t < r → ¬ e.FallsAt t := by
  obtain ⟨⟨b, member, found⟩, -⟩ := nextSeconds_ok h
  have ends := searchAfter_ends (wellRead.branch member) after
  rw [found] at ends
  obtain ⟨fits, later, year, -⟩ := ends
  refine ⟨⟨b, member, fits⟩, Nat.lt_of_lt_of_le (lt_firstCandidate b after) later, ?_⟩
  rintro t from' before ⟨b', member', fits'⟩
  have ends := searchAfter_ends (wellRead.branch member') after
  have ahead := firstCandidate_le fits'.2 from'
  rcases nextSeconds_searched h member' with ⟨s, found', le⟩ | noDate
  · rw [found'] at ends
    exact ends.2.2.2 t ahead (Nat.lt_of_lt_of_le before le) fits'
  · -- What the other search did not meet lies beyond the years that both searches cover.
    rw [noDate] at ends
    have far := ends t ahead fits'
    rw [firstCandidate_branch member'] at far
    rw [firstCandidate_branch member] at year
    have := ofSeconds_year_mono (Nat.le_of_lt before)
    omega

theorem Expression.WellRead.nextSeconds_mono {i j : Instant} {r r' : Nat} (wellRead : e.WellRead)
    (le : i ≤ j) (h : e.nextSeconds i = .ok r) (h' : e.nextSeconds j = .ok r') : r ≤ r' := by
  obtain ⟨falls, after, -⟩ := wellRead.nextSeconds_least h'
  have seconds : i.micros / Calendar.second ≤ j.micros / Calendar.second := Nat.div_le_div_right le
  by_contra before
  exact (wellRead.nextSeconds_least h).2.2 r' (Nat.lt_of_le_of_lt seconds after) (Nat.not_le.1 before) falls

theorem next_mono {expression : String} {i j o o' : Instant} (le : i ≤ j)
    (h : next expression i = .ok o) (h' : next expression j = .ok o') : o ≤ o' := by
  unfold next at h h'
  cases read : read expression with
  | error f =>
    rw [read] at h
    cases h
  | ok e =>
    rw [read] at h h'
    obtain ⟨r, found, micros⟩ := Expression.next_ok h
    obtain ⟨r', found', micros'⟩ := Expression.next_ok h'
    show o.micros ≤ o'.micros
    rw [micros, micros']
    exact Nat.mul_le_mul_right _ ((read_ok read).nextSeconds_mono le found found')

end ChoreReminder.Cron
