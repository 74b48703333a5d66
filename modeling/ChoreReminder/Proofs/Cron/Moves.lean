import ChoreReminder.Cron.Search
import ChoreReminder.Proofs.Cron.Reader

/-! What the slots do to a candidate. The coarse slots, from the year down to the hour, see no more of
it than the hour in which it lies, and send it to the start of an hour. The minute and the second
send it forward over times that do not fit only, so that no time of an hour is passed over at which
both fit. -/

namespace ChoreReminder.Cron

open Calendar

variable {e : Expression} {s s' t : Nat}

def Admits (es : List Entry) (n : Nat) : Prop := isEvery es = true ∨ .value n ∈ es

def Expression.AdmitsSecond (e : Expression) (n : Nat) : Prop :=
  match e.second with
  | none => n = 0
  | some es => Admits es n

def Expression.FiresAt (e : Expression) (t : Nat) : Prop :=
  Admits e.minute (t / 60 % 60) ∧ e.AdmitsSecond (t % 60)

theorem Expression.admitsSecond_some {es : List Entry} {n : Nat} (given : e.second = some es) :
    e.AdmitsSecond n ↔ Admits es n := by
  rw [AdmitsSecond, given]

theorem Expression.admitsSecond_none {n : Nat} (absent : e.second = none) :
    e.AdmitsSecond n ↔ n = 0 := by
  rw [AdmitsSecond, absent]

structure Expression.Timed (e : Expression) : Prop where
  minute : Slot.minute.Holds e.minute
  second : ∀ es, e.second = some es → Slot.second.Holds es

theorem Expression.WellRead.timed (h : e.WellRead) : e.Timed := ⟨h.minute, h.second⟩

/-- A candidate is a whole minute unless there is a second slot. -/
def Expression.Aligned (e : Expression) (s : Nat) : Prop := e.second = none → s % 60 = 0

/-! ### Distances -/

section Distance

variable {es : List Entry} {range x : Nat}

theorem mem_values {v : Nat} :
    v ∈ es.filterMap (Entry.valueIn range) ↔ .value v ∈ es ∨ .last ∈ es ∧ v = range := by
  rw [List.mem_filterMap]
  constructor
  · rintro ⟨e, member, value⟩
    cases e with
    | every => cases value
    | value n => exact .inl (Option.some.inj value ▸ member)
    | last => exact .inr ⟨member, (Option.some.inj value).symm⟩
  · rintro (member | ⟨member, rfl⟩)
    · exact ⟨_, member, rfl⟩
    · exact ⟨_, member, rfl⟩

theorem pairwise_values (range : Nat) (sorted : es.Pairwise fun a b => a.le b = true) :
    (es.filterMap (Entry.valueIn range)).Pairwise fun v w => (v ≤ range ∨ .last ∉ es) → v ≤ w := by
  rw [List.pairwise_filterMap]
  refine sorted.imp_of_mem ?_
  intro a b ha hb order v hv w hw low
  cases a with
  | every => cases hv
  | last =>
    obtain rfl := Option.some.inj hv
    cases b with
    | every => cases hw
    | last => exact Nat.le_of_eq (Option.some.inj hw)
    | value n => cases order
  | value m =>
    obtain rfl := Option.some.inj hv
    cases b with
    | every => cases hw
    | last =>
      obtain rfl := Option.some.inj hw
      exact low.resolve_right fun none => none hb
    | value n =>
      obtain rfl := Option.some.inj hw
      simpa [Entry.le] using order

theorem distance_cases (x range : Nat) (sorted : es.Pairwise fun a b => a.le b = true) :
    let values := es.filterMap (Entry.valueIn range)
    (∃ v ∈ values, v ≤ range ∧ x ≤ v ∧ (∀ w ∈ values, w ≤ range → x ≤ w → v ≤ w) ∧
        distance x es range = v - x) ∨
      ((∀ w ∈ values, w ≤ range → w < x) ∧ distance x es range = values.headD 0 + range - x) := by
  unfold distance
  dsimp only
  have order := pairwise_values range sorted
  generalize es.filterMap (Entry.valueIn range) = values at order ⊢
  cases found : values.find? fun v => v ≤ range && x ≤ v with
  | some v =>
    obtain ⟨fits, before, after, split, behind⟩ := List.find?_eq_some_iff_append.1 found
    simp only [Bool.and_eq_true, decide_eq_true_eq] at fits
    rw [split] at order ⊢
    refine .inl ⟨v, by simp, fits.1, fits.2, fun w member close ahead => ?_, rfl⟩
    rcases List.mem_append.1 member with h | h
    · have left := behind w h
      simp [close, ahead] at left
    · rcases List.mem_cons.1 h with rfl | h
      · exact Nat.le_refl _
      · exact List.rel_of_pairwise_cons (List.pairwise_append.1 order).2.1 h (.inl fits.1)
  | none =>
    rw [List.find?_eq_none] at found
    refine .inr ⟨fun w member close => ?_, rfl⟩
    have left := found w member
    simpa [close] using left

/-- A distance of nothing leads to a value: the wrap to the first one takes a step at least, unless that one
is 0 and the end of the range counts as well. -/
theorem mem_of_distance_eq_zero (sorted : es.Pairwise fun a b => a.le b = true)
    (first : x < range ∨ x = range ∧ 0 < (es.filterMap (Entry.valueIn range)).headD 0)
    (h : distance x es range = 0) : x ∈ es.filterMap (Entry.valueIn range) := by
  rcases distance_cases x range sorted with ⟨v, member, -, ahead, -, far⟩ | ⟨-, far⟩
  · have same : v = x := by omega
    exact same ▸ member
  · omega

theorem not_mem_of_lt_distance (sorted : es.Pairwise fun a b => a.le b = true) {j : Nat}
    (near : j < distance x es range) :
    (x + j ≤ range → x + j ∉ es.filterMap (Entry.valueIn range)) ∧
      (x ≤ range → range ≤ x + j → .last ∉ es ∧ ∀ w, .value w ∈ es → x + j < w + range) := by
  rcases distance_cases x range sorted with ⟨v, -, close, ahead, least, far⟩ | ⟨behind, far⟩
  · refine ⟨fun within member => ?_, fun _ past => by omega⟩
    have := least _ member within (Nat.le_add_right x j)
    omega
  · refine ⟨fun within member => ?_, fun within past => ?_⟩
    · have := behind _ member within
      omega
    · -- Every value is behind, and the last day never is.
      have noLast : .last ∉ es := fun last => by
        have := behind range (mem_values.2 (.inr ⟨last, rfl⟩)) (Nat.le_refl _)
        omega
      refine ⟨noLast, fun w member => ?_⟩
      have order := pairwise_values range sorted
      have present : w ∈ es.filterMap (Entry.valueIn range) := mem_values.2 (.inl member)
      generalize es.filterMap (Entry.valueIn range) = values at *
      cases values with
      | nil => cases present
      | cons v rest =>
        have least : v ≤ w := by
          rcases List.mem_cons.1 present with rfl | h
          · exact Nat.le_refl _
          · exact List.rel_of_pairwise_cons order h (.inr noLast)
        rw [List.headD_cons] at far
        omega

theorem value_of_distance_eq_zero (noLast : .last ∉ es)
    (sorted : es.Pairwise fun a b => a.le b = true) (within : x < range)
    (h : distance x es range = 0) : .value x ∈ es :=
  (mem_values.1 (mem_of_distance_eq_zero sorted (.inl within) h)).resolve_right fun last =>
    noLast last.1

theorem not_value_of_lt_distance (sorted : es.Pairwise fun a b => a.le b = true)
    (inRange : ∀ v, .value v ∈ es → v < range) (within : x < range) {j : Nat}
    (near : j < distance x es range) : .value ((x + j) % range) ∉ es := by
  intro member
  obtain ⟨ahead, again⟩ := not_mem_of_lt_distance sorted near
  by_cases wrapped : x + j < range
  · rw [Nat.mod_eq_of_lt wrapped] at member
    exact ahead (Nat.le_of_lt wrapped) (mem_values.2 (.inl member))
  · -- Past the end of the range the values begin again, and the least one has not been met.
    have close := inRange _ member
    have before := (again (Nat.le_of_lt within) (Nat.not_lt.1 wrapped)).2 _ member
    have wraps := Nat.div_add_mod (x + j) range
    have once : range * 1 ≤ range * ((x + j) / range) :=
      Nat.mul_le_mul_left range (Nat.div_pos (Nat.not_lt.1 wrapped) (by omega))
    omega

end Distance

/-! ### Minute and second -/

section Fine

variable {slot : Slot} {es : List Entry} {range x j : Nat}

theorem Slot.Holds.admits_of_distance (holds : slot.Holds es) (other : slot ≠ .day)
    (within : x < range) (h : distance x es range = 0) : Admits es x :=
  .inr (value_of_distance_eq_zero (mt holds.last other) holds.sorted within h)

theorem Slot.Holds.not_admits_of_distance (holds : slot.Holds es) (many : slot.high < range)
    (some' : isEvery es ≠ true) (within : x < range)
    (near : j < distance x es range) : ¬ Admits es ((x + j) % range) := by
  have inRange (v : Nat) (member : .value v ∈ es) : v < range :=
    Nat.lt_of_le_of_lt (holds.range v member).2 many
  rintro (every | member)
  · exact some' every
  · exact not_value_of_lt_distance holds.sorted inRange within near member

theorem Expression.Timed.minuteMove_cases (timed : e.Timed) (s : Nat) :
    (e.minuteMove (.ofSeconds s) = .ok .stay ∧ Admits e.minute (s / 60 % 60)) ∨
      ∃ s', e.minuteMove (.ofSeconds s) = moveTo s' ∧ s < s' ∧ s' % 60 = 0 ∧
        ∀ t, s ≤ t → t < s' → ¬ Admits e.minute (t / 60 % 60) := by
  have minute : (Moment.ofSeconds s).minute = s / 60 % 60 := by
    show s % 3600 / 60 = _
    omega
  unfold Expression.minuteMove
  rw [minute]
  dsimp only
  by_cases every : isEvery e.minute = true
  · exact .inl ⟨if_pos every, .inl every⟩
  · rw [if_neg every]
    by_cases here : distance (s / 60 % 60) e.minute 60 = 0
    · rw [if_pos here]
      exact .inl ⟨rfl, timed.minute.admits_of_distance (by decide)
        (Nat.mod_lt _ (by decide)) here⟩
    · rw [if_neg here]
      refine .inr ⟨_, rfl, ?_, Nat.mul_mod_left _ _, fun t from' before => ?_⟩
      · show s < (s / 60 + _) * 60
        omega
      · change t < (s / 60 + _) * 60 at before
        have near : t / 60 - s / 60 < distance (s / 60 % 60) e.minute 60 := by omega
        have same : (s / 60 % 60 + (t / 60 - s / 60)) % 60 = t / 60 % 60 := by omega
        exact same ▸ timed.minute.not_admits_of_distance (by decide) every
          (Nat.mod_lt _ (by decide)) near

theorem Expression.Timed.secondMove_cases (timed : e.Timed) (s : Nat) :
    (e.secondMove (.ofSeconds s) = .ok .stay ∧
        ∀ es, e.second = some es → Admits es (s % 60)) ∨
      ∃ s' es, e.secondMove (.ofSeconds s) = moveTo s' ∧ e.second = some es ∧ s < s' ∧
        ∀ t, s ≤ t → t < s' → ¬ Admits es (t % 60) := by
  have second : (Moment.ofSeconds s).second = s % 60 := rfl
  unfold Expression.secondMove
  rw [second]
  cases seconds : e.second with
  | none => exact .inl ⟨rfl, fun es given => by cases given⟩
  | some es =>
    have holds := timed.second es seconds
    dsimp only
    by_cases every : isEvery es = true
    · refine .inl ⟨if_pos every, fun es' given => ?_⟩
      exact Option.some.inj given ▸ .inl every
    · rw [if_neg every]
      by_cases here : distance (s % 60) es 60 = 0
      · refine .inl ⟨if_pos here, fun es' given => ?_⟩
        exact Option.some.inj given ▸ holds.admits_of_distance (by decide)
          (Nat.mod_lt _ (by decide)) here
      · rw [if_neg here]
        refine .inr ⟨s + distance (s % 60) es 60, es, rfl, rfl, by omega, fun t from' before => ?_⟩
        have near : t - s < distance (s % 60) es 60 := by omega
        have same : (s % 60 + (t - s)) % 60 = t % 60 := by omega
        exact same ▸ holds.not_admits_of_distance (by decide) every
          (Nat.mod_lt _ (by decide)) near

end Fine

/-! ### Year to hour -/

def Expression.coarse (e : Expression) (m : Moment) : Except Trouble Move :=
  firstMove m [e.yearMove, e.monthMove, e.dayMove, e.weekdayMove, e.hourMove]

theorem firstMove_append (m : Moment) (fs gs : List (Moment → Except Trouble Move)) :
    firstMove m (fs ++ gs) =
      match firstMove m fs with
      | .ok .stay => firstMove m gs
      | r => r := by
  induction fs with
  | nil => rfl
  | cons f rest ih =>
    rw [List.cons_append, firstMove, firstMove]
    cases f m with
    | error => rfl
    | ok move =>
      cases move with
      | stay => exact ih
      | «to» => rfl

theorem firstMove_congr {m m' : Moment} {fs : List (Moment → Except Trouble Move)}
    (same : ∀ f ∈ fs, f m = f m') : firstMove m fs = firstMove m' fs := by
  induction fs with
  | nil => rfl
  | cons f rest ih =>
    rw [firstMove, firstMove, same f List.mem_cons_self,
      ih fun g member => same g (List.mem_cons_of_mem _ member)]

theorem exists_of_firstMove {m : Moment} {fs : List (Moment → Except Trouble Move)}
    {r : Except Trouble Move} (h : firstMove m fs = r) (moved : r ≠ .ok .stay) : ∃ f ∈ fs, f m = r := by
  induction fs with
  | nil => exact absurd h.symm moved
  | cons f rest ih =>
    rw [firstMove] at h
    split at h
    · obtain ⟨g, member, move⟩ := ih h
      exact ⟨g, List.mem_cons_of_mem _ member, move⟩
    · exact ⟨f, List.mem_cons_self, h⟩

section Coarse

variable {d : Date}

theorem moveToDay_congr (day : s / daySeconds = s' / daySeconds) (days : List Nat) :
    moveToDay ⟨s, d⟩ days = moveToDay ⟨s', d⟩ days := by
  have number : (⟨s, d⟩ : Moment).dayNumber = (⟨s', d⟩ : Moment).dayNumber := day
  unfold moveToDay nextMonth
  rw [number]
  rfl

theorem dayMove_congr (day : s / daySeconds = s' / daySeconds) :
    e.dayMove ⟨s, d⟩ = e.dayMove ⟨s', d⟩ := by
  have number : (⟨s, d⟩ : Moment).dayNumber = (⟨s', d⟩ : Moment).dayNumber := day
  unfold Expression.dayMove
  rw [moveToDay_congr day, number]
  rfl

theorem weekdayMove_congr (day : s / daySeconds = s' / daySeconds) :
    e.weekdayMove ⟨s, d⟩ = e.weekdayMove ⟨s', d⟩ := by
  have number : (⟨s, d⟩ : Moment).dayNumber = (⟨s', d⟩ : Moment).dayNumber := day
  unfold Expression.weekdayMove Moment.weekday
  rw [moveToDay_congr day, number]
  rfl

theorem hourMove_congr (hour : s / 3600 = s' / 3600) :
    e.hourMove ⟨s, d⟩ = e.hourMove ⟨s', d⟩ := by
  have same : (⟨s, d⟩ : Moment).hour = (⟨s', d⟩ : Moment).hour := by
    show s % daySeconds / 3600 = s' % daySeconds / 3600
    unfold daySeconds
    omega
  unfold Expression.hourMove
  rw [same]
  dsimp only
  rw [hour]

theorem Moment.ofSeconds_eq (hour : s / 3600 = s' / 3600) :
    Moment.ofSeconds s = ⟨s, (Moment.ofSeconds s').date⟩ := by
  have day : s / daySeconds = s' / daySeconds := by
    unfold daySeconds
    omega
  unfold Moment.ofSeconds
  rw [day]

theorem Expression.coarse_congr (hour : s / 3600 = s' / 3600) :
    e.coarse (.ofSeconds s) = e.coarse (.ofSeconds s') := by
  have day : s / daySeconds = s' / daySeconds := by
    unfold daySeconds
    omega
  rw [Moment.ofSeconds_eq hour]
  refine firstMove_congr fun f member => ?_
  simp only [List.mem_cons, List.not_mem_nil, or_false] at member
  rcases member with rfl | rfl | rfl | rfl | rfl
  · rfl
  · rfl
  · exact dayMove_congr day
  · exact weekdayMove_congr day
  · exact hourMove_congr hour

theorem moveTo_eq_to {n : Nat} : moveTo n = .ok (.to s') ↔ n < secondLimit ∧ n = s' := by
  unfold moveTo
  split
  · next inside => simp [inside]
  · next outside => simp [outside]

theorem moveToDay_eq_to {m : Moment} {days : List Nat} (h : moveToDay m days = .ok (.to s')) :
    s' % daySeconds = 0 := by
  unfold moveToDay at h
  split at h
  · rw [← (moveTo_eq_to.1 h).2]
    exact Nat.mul_mod_left _ _
  · split at h
    · cases h
    · rw [← (moveTo_eq_to.1 h).2]
      exact Nat.mul_mod_left _ _

theorem yearMove_eq_to {m : Moment} (h : e.yearMove m = .ok (.to s')) : s' % daySeconds = 0 := by
  unfold Expression.yearMove at h
  split at h
  · cases h
  · split at h
    · cases h
    · split at h
      · cases h
      · split at h
        · cases h
        · rw [← (moveTo_eq_to.1 h).2]
          exact Nat.mul_mod_left _ _

theorem monthMove_eq_to {m : Moment} (h : e.monthMove m = .ok (.to s')) : s' % daySeconds = 0 := by
  unfold Expression.monthMove moveToMonth at h
  dsimp only at h
  split at h
  · cases h
  · split at h
    · cases h
    · split at h
      · cases h
      · simp only [Except.ok.injEq, Move.to.injEq] at h
        rw [← h]
        exact Nat.mul_mod_left _ _

theorem dayMove_eq_to {m : Moment} (h : e.dayMove m = .ok (.to s')) : s' % daySeconds = 0 := by
  unfold Expression.dayMove at h
  split at h
  · exact moveToDay_eq_to h
  · split at h
    · cases h
    · split at h
      · cases h
      · dsimp only at h
        split at h
        · cases h
        · rw [← (moveTo_eq_to.1 h).2]
          exact Nat.mul_mod_left _ _

theorem weekdayMove_eq_to {m : Moment} (h : e.weekdayMove m = .ok (.to s')) :
    s' % daySeconds = 0 := by
  unfold Expression.weekdayMove at h
  split at h
  · exact moveToDay_eq_to h
  · split at h
    · cases h
    · dsimp only at h
      split at h
      · cases h
      · rw [← (moveTo_eq_to.1 h).2]
        exact Nat.mul_mod_left _ _

theorem hourMove_eq_to {m : Moment} (h : e.hourMove m = .ok (.to s')) : s' % 3600 = 0 := by
  unfold Expression.hourMove at h
  split at h
  · cases h
  · dsimp only at h
    split at h
    · cases h
    · rw [← (moveTo_eq_to.1 h).2]
      exact Nat.mul_mod_left _ _

theorem Expression.coarse_eq_to {m : Moment} (h : e.coarse m = .ok (.to s')) : s' % 3600 = 0 := by
  have hourOfDay (midnight : s' % daySeconds = 0) : s' % 3600 = 0 := by
    unfold daySeconds at midnight
    omega
  obtain ⟨f, member, move⟩ := exists_of_firstMove h nofun
  simp only [List.mem_cons, List.not_mem_nil, or_false] at member
  rcases member with rfl | rfl | rfl | rfl | rfl
  · exact hourOfDay (yearMove_eq_to move)
  · exact hourOfDay (monthMove_eq_to move)
  · exact hourOfDay (dayMove_eq_to move)
  · exact hourOfDay (weekdayMove_eq_to move)
  · exact hourMove_eq_to move

end Coarse

/-! ### All slots -/

def Expression.fine (e : Expression) (m : Moment) : Except Trouble Move :=
  firstMove m [e.minuteMove, e.secondMove]

theorem Expression.firstMove_moves (e : Expression) (m : Moment) :
    firstMove m e.moves =
      match e.coarse m with
      | .ok .stay => e.fine m
      | r => r :=
  firstMove_append m [e.yearMove, e.monthMove, e.dayMove, e.weekdayMove, e.hourMove]
    [e.minuteMove, e.secondMove]

theorem firstMove_of_stay {m : Moment} {f : Moment → Except Trouble Move}
    {rest : List (Moment → Except Trouble Move)} (h : f m = .ok .stay) :
    firstMove m (f :: rest) = firstMove m rest := by
  rw [firstMove, h]

theorem firstMove_of_moveTo {m : Moment} {f : Moment → Except Trouble Move}
    {rest : List (Moment → Except Trouble Move)} {n : Nat} (h : f m = moveTo n) :
    firstMove m (f :: rest) = moveTo n := by
  rw [firstMove, h]
  by_cases inside : n < secondLimit
  · rw [moveTo, if_pos inside]
  · rw [moveTo, if_neg inside]

theorem Expression.Timed.fine_cases (timed : e.Timed) (aligned : e.Aligned s) :
    (e.fine (.ofSeconds s) = .ok .stay ∧ e.FiresAt s) ∨
      ∃ s', e.fine (.ofSeconds s) = moveTo s' ∧ s < s' ∧ e.Aligned s' ∧
        ∀ t, s ≤ t → t < s' → ¬ e.FiresAt t := by
  unfold Expression.fine
  rcases timed.minuteMove_cases s with ⟨stay, minute⟩ | ⟨s', move, forward, whole, skipped⟩
  · rw [firstMove_of_stay stay]
    rcases timed.secondMove_cases s with ⟨stay, second⟩ | ⟨s', es, move, given, forward, skipped⟩
    · rw [firstMove_of_stay stay]
      refine .inl ⟨rfl, minute, ?_⟩
      cases seconds : e.second with
      | none => exact (Expression.admitsSecond_none seconds).2 (aligned seconds)
      | some es => exact (Expression.admitsSecond_some seconds).2 (second es seconds)
    · rw [firstMove_of_moveTo move]
      refine .inr ⟨s', rfl, forward, fun none' => ?_, fun t from' before fires => ?_⟩
      · rw [given] at none'
        cases none'
      · exact skipped t from' before ((Expression.admitsSecond_some given).1 fires.2)
  · rw [firstMove_of_moveTo move]
    exact .inr ⟨s', rfl, forward, fun _ => whole, fun t from' before fires =>
      skipped t from' before fires.1⟩

end ChoreReminder.Cron
