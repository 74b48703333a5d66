import ChoreReminder.Proofs.Cron.Least

/-! When there is a next date. A search that covers a time that fits does not miss it, so it ends at a date. Where both
day slots are restricted two searches are made, and the one that finds no date must not leave the calendar: it
gives up in time if the years that it covers end before the last one. -/

namespace ChoreReminder.Cron

open Calendar

variable {e b : Expression} {startYear s t r : Nat} {after : Instant}

/-! ### One search -/

theorem search_finds (wellRead : e.WellRead) (aligned : e.Aligned s) (from' : s ≤ t) (inside : t < secondLimit)
    (fits : e.FitsAt t) (near : (Moment.ofSeconds t).date.year ≤ startYear + horizon) :
    ∃ r, search e startYear s = .ok r := by
  -- What a move passes over does not fit, so the time stays ahead of the search.
  fun_induction search e startYear s with
  | case1 s m far =>
    have later : m.date.year ≤ (Moment.ofSeconds t).date.year := ofSeconds_year_mono from'
    omega
  | case2 s m close x failed => exact absurd fits (wellRead.move_error aligned failed from' inside)
  | case3 s m close stay => exact ⟨s, rfl⟩
  | case4 s m close next move forward ih =>
    obtain ⟨-, aligned', passes⟩ := wellRead.move_passes aligned move
    exact ih aligned' (Nat.le_of_not_lt fun before => passes t from' before fits)
  | case5 s m close next move stuck =>
    obtain ⟨later, -, passes⟩ := wellRead.move_passes aligned move
    have ahead : next ≤ t := Nat.le_of_not_lt fun before => passes t from' before fits
    exact absurd ⟨later, Nat.lt_of_le_of_lt ahead inside⟩ stuck

def Expression.firstYear (e : Expression) (after : Instant) : Nat :=
  (Moment.ofSeconds (firstCandidate e after)).date.year

theorem firstYear_mono {i j : Instant} (e : Expression) (le : i ≤ j) : e.firstYear i ≤ e.firstYear j := by
  refine ofSeconds_year_mono ?_
  have seconds : i.micros / Calendar.second ≤ j.micros / Calendar.second := Nat.div_le_div_right le
  unfold firstCandidate
  dsimp only
  split <;> omega

structure Expression.Within (e : Expression) (after : Instant) (t : Nat) : Prop where
  later : after.micros / Calendar.second < t
  inside : t < secondLimit
  fits : e.FitsAt t
  near : (Moment.ofSeconds t).date.year ≤ e.firstYear after + horizon

theorem searchAfter_finds (wellRead : e.WellRead) (within : e.Within after t) :
    ∃ r, searchAfter e after = .ok r := by
  have ahead := firstCandidate_le within.fits.2 within.later
  unfold searchAfter
  dsimp only
  rw [if_pos (Nat.lt_of_le_of_lt ahead within.inside)]
  exact search_finds wellRead (firstCandidate_aligned e after) ahead within.inside within.fits within.near

theorem searchAfter_within (wellRead : e.WellRead) (found : searchAfter e after = .ok r) : e.Within after r := by
  have ends := searchAfter_ends wellRead after
  obtain ⟨-, -, -, inside, -⟩ := searchAfter_ok wellRead.timed found
  rw [found] at ends
  exact ⟨Nat.lt_of_lt_of_le (lt_firstCandidate e after) ends.2.1, inside, ends.1, ends.2.2.1⟩

/-! ### Searches that give up in time -/

def InTime : Except Trouble Move → Prop
  | .ok .stay => True
  | .ok (.to n) => n < secondLimit
  | .error x => x = .fault .noDate

theorem inTime_moveTo {n : Nat} (inside : n < secondLimit) : InTime (moveTo n) := by
  rw [moveTo, if_pos inside]
  exact inside

theorem inTime_stay_or {k n : Nat} (inside : n < secondLimit) :
    InTime (if k = 0 then .ok .stay else moveTo n) := by
  split
  · trivial
  · exact inTime_moveTo inside

theorem distance_le {es : List Entry} {x range high : Nat} (sorted : es.Pairwise fun a b => a.le b = true)
    (bound : ∀ v ∈ es.filterMap (Entry.valueIn range), v ≤ high) : distance x es range ≤ high + range := by
  rcases distance_cases x range sorted with ⟨v, -, close, -, -, far⟩ | ⟨-, far⟩
  · omega
  · have first : (es.filterMap (Entry.valueIn range)).headD 0 ≤ high := by
      cases values : es.filterMap (Entry.valueIn range) with
      | nil => exact Nat.zero_le high
      | cons v rest => exact bound v (values ▸ List.mem_cons_self)
    omega

theorem Slot.Holds.distance_le_range {slot : Slot} {es : List Entry} {x range : Nat} (holds : slot.Holds es)
    (other : slot ≠ .day) (many : slot.high ≤ range) : distance x es range ≤ range := by
  rcases distance_cases x range holds.sorted with ⟨v, -, close, -, -, far⟩ | ⟨behind, far⟩
  · omega
  · have first : (es.filterMap (Entry.valueIn range)).headD 0 ≤ x := by
      cases values : es.filterMap (Entry.valueIn range) with
      | nil => exact Nat.zero_le x
      | cons v rest =>
        have member : v ∈ es.filterMap (Entry.valueIn range) := values ▸ List.mem_cons_self
        have value := (mem_values.1 member).resolve_right fun last => other (holds.last last.1)
        exact Nat.le_of_lt (behind v member (Nat.le_trans (holds.range v value).2 many))
    omega

section Early

theorem monthStart_lt_dayLimit {i : Nat} (counted : 12 ≤ i) (before : i < 120000) : monthStart i < dayLimit := by
  have last : monthStart 119999 < dayLimit := by decide
  exact Nat.lt_of_le_of_lt (monthStart_mono counted (Nat.le_of_lt_succ before)) last

theorem lt_secondLimit (early : (Moment.ofSeconds s).date.year < maxYear) : s + 365 * daySeconds ≤ secondLimit := by
  have start : (⟨maxYear, 1, 1⟩ : Date).number + 365 = dayLimit := by decide
  have before := (Date.lt_yearStart_iff (show 1 ≤ maxYear by decide)).2 early
  unfold secondLimit daySeconds at *
  omega

theorem inTime_units {slot : Slot} {es : List Entry} {x range unit : Nat}
    (early : (Moment.ofSeconds s).date.year < maxYear) (holds : slot.Holds es) (other : slot ≠ .day)
    (many : slot.high ≤ range) (short : range * unit ≤ 7 * daySeconds) :
    InTime (if isEvery es then .ok .stay else
      let k := distance x es range
      if k = 0 then .ok .stay else moveTo ((s / unit + k) * unit)) := by
  split
  · trivial
  · refine inTime_stay_or ?_
    have left := lt_secondLimit early
    have far : distance x es range * unit ≤ range * unit :=
      Nat.mul_le_mul_right unit (holds.distance_le_range other many)
    have whole := Nat.div_mul_le_self s unit
    rw [Nat.add_mul]
    unfold daySeconds at *
    omega

theorem inTime_yearMove (wellRead : e.WellRead) (s : Nat) : InTime (e.yearMove (.ofSeconds s)) := by
  by_cases free : ∀ es, e.year = some es → isEvery es = true
  · rw [yearMove_free free]
    trivial
  simp only [not_forall] at free
  obtain ⟨es, given, some'⟩ := free
  rw [yearMove_some given some']
  split
  · rfl
  · next y found =>
    have holds := wellRead.year es given
    have value : .value y ∈ es := (mem_values.1 (List.mem_of_find?_eq_some found)).resolve_right fun last =>
      nomatch holds.last last.1
    obtain ⟨low, high⟩ := holds.range y value
    split
    · trivial
    · have first : 1970 ≤ y := low
      have last : y ≤ 2099 := high
      refine inTime_moveTo (Nat.mul_lt_mul_of_pos_right ?_ (by decide))
      rw [Date.yearStart_eq]
      exact monthStart_lt_dayLimit (by omega) (by omega)

variable (wellRead : e.WellRead) (early : (Moment.ofSeconds s).date.year < maxYear)
include wellRead early

theorem inTime_monthMove : InTime (e.monthMove (.ofSeconds s)) := by
  by_cases every : isEvery e.month = true
  · rw [Expression.monthMove, if_pos every]
    trivial
  by_cases here : distance (Moment.ofSeconds s).date.month e.month 12 = 0
  · rw [Expression.monthMove, if_neg every]
    dsimp only
    rw [if_pos here]
    trivial
  have move : e.monthMove (.ofSeconds s) = moveToMonth (Moment.ofSeconds s).date.year
      ((Moment.ofSeconds s).date.month - 1 + distance (Moment.ofSeconds s).date.month e.month 12) :=
    (if_neg every).trans (if_neg here)
  have near := wellRead.month.distance_le_range (x := (Moment.ofSeconds s).date.month) (by decide) (Nat.le_refl 12)
  obtain ⟨counted, year, -⟩ := Date.monthIndex_parts (s / daySeconds)
  change (Moment.ofSeconds s).date.year = _ at year
  rw [year] at early
  unfold maxYear at early
  have inside : monthStart ((Moment.ofSeconds s).date.monthIndex +
      distance (Moment.ofSeconds s).date.month e.month 12) * daySeconds < secondLimit := by
    refine Nat.mul_lt_mul_of_pos_right (monthStart_lt_dayLimit ?_ ?_) (by decide)
    · exact Nat.le_trans counted (Nat.le_add_right _ _)
    · show (Date.ofNumber (s / daySeconds)).monthIndex + _ < 120000
      omega
  rcases moveToMonth_ahead _ move rfl with moved | ⟨past, -⟩
  · rw [moved]
    exact inside
  · exact absurd inside (Nat.not_lt.2 past)

theorem inTime_dayMove (plain : e.nearest = []) : InTime (e.dayMove (.ofSeconds s)) := by
  have free : ¬(!e.nearest.isEmpty) = true := by simp [plain]
  by_cases every : isEvery e.day = true
  · rw [Expression.dayMove, if_neg free, if_pos every]
    trivial
  rw [dayMove_plain free every]
  split
  · trivial
  · have short : (Moment.ofSeconds s).monthLength ≤ 31 := daysInMonth_le _ _
    have far : distance (Moment.ofSeconds s).date.day e.day (Moment.ofSeconds s).monthLength ≤
        31 + (Moment.ofSeconds s).monthLength := by
      refine distance_le wellRead.day.sorted fun v member => ?_
      rcases mem_values.1 member with value | ⟨-, rfl⟩
      · exact (wellRead.day.range v value).2
      · exact short
    refine inTime_stay_or ?_
    have left := lt_secondLimit early
    show (s / daySeconds + _) * daySeconds < secondLimit
    unfold daySeconds at *
    omega

theorem inTime_weekdayMove (plain : e.nth = []) : InTime (e.weekdayMove (.ofSeconds s)) := by
  rw [Expression.weekdayMove, if_neg (by simp [plain])]
  exact inTime_units early wellRead.weekday (by decide) (by decide) (by decide)

theorem inTime_hourMove : InTime (e.hourMove (.ofSeconds s)) :=
  inTime_units early wellRead.hour (by decide) (by decide) (by decide)

theorem inTime_minuteMove : InTime (e.minuteMove (.ofSeconds s)) :=
  inTime_units early wellRead.minute (by decide) (by decide) (by decide)

theorem inTime_secondMove : InTime (e.secondMove (.ofSeconds s)) := by
  unfold Expression.secondMove
  split
  · trivial
  · next es given =>
    have inTime : InTime (if isEvery es then .ok .stay else
        let k := distance (Moment.ofSeconds s).second es 60
        if k = 0 then .ok .stay else moveTo ((s / 1 + k) * 1)) :=
      inTime_units early (wellRead.second es given) (by decide) (by decide) (by decide)
    simp only [Nat.div_one, Nat.mul_one] at inTime
    exact inTime

theorem firstMove_inTime (nth : e.nth = []) (nearest : e.nearest = []) :
    InTime (firstMove (.ofSeconds s) e.moves) := by
  by_cases stay : firstMove (.ofSeconds s) e.moves = .ok .stay
  · rw [stay]
    trivial
  obtain ⟨f, member, move⟩ := exists_of_firstMove rfl stay
  rw [← move]
  simp only [Expression.moves, List.mem_cons, List.not_mem_nil, or_false] at member
  rcases member with rfl | rfl | rfl | rfl | rfl | rfl | rfl
  · exact inTime_yearMove wellRead s
  · exact inTime_monthMove wellRead early
  · exact inTime_dayMove wellRead early nearest
  · exact inTime_weekdayMove wellRead early nth
  · exact inTime_hourMove wellRead early
  · exact inTime_minuteMove wellRead early
  · exact inTime_secondMove wellRead early

end Early

theorem search_gives_up (wellRead : e.WellRead) (nth : e.nth = []) (nearest : e.nearest = []) (aligned : e.Aligned s)
    (early : startYear + horizon < maxYear) :
    (∃ r, search e startYear s = .ok r) ∨ search e startYear s = .error (.fault .noDate) := by
  fun_induction search e startYear s with
  | case1 s m far => exact .inr rfl
  | case2 s m close x failed =>
    have inTime := firstMove_inTime wellRead (s := s) (Nat.lt_of_le_of_lt (Nat.le_of_not_lt close) early) nth nearest
    rw [failed] at inTime
    exact .inr (congrArg Except.error inTime)
  | case3 s m close stay => exact .inl ⟨s, rfl⟩
  | case4 s m close next move forward ih => exact ih (wellRead.move_passes aligned move).2.1
  | case5 s m close next move stuck =>
    have inTime := firstMove_inTime wellRead (s := s) (Nat.lt_of_le_of_lt (Nat.le_of_not_lt close) early) nth nearest
    rw [move] at inTime
    exact absurd ⟨(wellRead.move_passes aligned move).1, inTime⟩ stuck

theorem searchAfter_gives_up (wellRead : e.WellRead) (nth : e.nth = []) (nearest : e.nearest = [])
    (early : e.firstYear after + horizon < maxYear) :
    (∃ r, searchAfter e after = .ok r) ∨ searchAfter e after = .error (.fault .noDate) := by
  have inside : firstCandidate e after < secondLimit := by
    have left := lt_secondLimit (s := firstCandidate e after) (Nat.lt_of_le_of_lt (Nat.le_add_right _ _) early)
    have some' : 0 < 365 * daySeconds := by decide
    omega
  unfold searchAfter
  dsimp only
  rw [if_pos inside]
  exact search_gives_up wellRead nth nearest (firstCandidate_aligned e after) early

/-- Without values for the years there is always one more to look at: a search that covers the last year of the
calendar does not give up before it leaves it. -/
theorem search_ne_noDate (free : e.year = none) (inside : s < secondLimit) (late : maxYear ≤ startYear + horizon) :
    search e startYear s ≠ .error (.fault .noDate) := by
  fun_induction search e startYear s with
  | case1 s m far =>
    have last : m.date.year ≤ maxYear := Date.year_ofNumber_le ((Nat.div_lt_iff_lt_mul (by decide)).2 inside)
    omega
  | case2 s m close x failed =>
    intro noDate
    obtain rfl := Except.error.inj noDate
    have stay : e.yearMove m = .ok .stay := by
      refine yearMove_free fun es given => ?_
      cases free.symm.trans given
    cases stay.symm.trans (Expression.yearMove_of_noDate failed)
  | case3 =>
    intro noDate
    cases noDate
  | case4 s m close next move forward ih => exact ih forward.2
  | case5 =>
    intro noDate
    cases noDate

theorem searchAfter_ne_noDate (free : e.year = none) (late : maxYear ≤ e.firstYear after + horizon) :
    searchAfter e after ≠ .error (.fault .noDate) := by
  unfold searchAfter
  dsimp only
  split
  · next inside => exact search_ne_noDate free inside late
  · nofun

/-! ### The next date -/

structure Expression.Plain (e : Expression) : Prop where
  nth : e.nth = []
  nearest : e.nearest = []

theorem firstYear_branch (member : b ∈ e.branches) (after : Instant) : b.firstYear after = e.firstYear after := by
  rw [Expression.firstYear, firstCandidate_branch member, Expression.firstYear]

theorem Expression.plain_iff : (e.nth.isEmpty && e.nearest.isEmpty) = true ↔ e.Plain := by
  rw [Bool.and_eq_true, List.isEmpty_iff, List.isEmpty_iff]
  exact ⟨fun h => ⟨h.1, h.2⟩, fun h => ⟨h.nth, h.nearest⟩⟩

theorem Expression.Plain.branch (plain : e.Plain) (member : b ∈ e.branches) : b.Plain := by
  unfold Expression.branches at member
  split at member
  · simp only [List.mem_cons, List.not_mem_nil, or_false] at member
    rcases member with rfl | rfl <;> exact ⟨plain.nth, plain.nearest⟩
  · exact List.mem_singleton.1 member ▸ plain

theorem exists_earlier {lenient : Bool} {x y : Except Trouble Nat}
    (left : (∃ r, x = .ok r) ∨ lenient = true ∧ x = .error (.fault .noDate))
    (right : (∃ r, y = .ok r) ∨ lenient = true ∧ y = .error (.fault .noDate))
    (one : (∃ r, x = .ok r) ∨ ∃ r, y = .ok r) : ∃ r, earlier lenient x y = .ok r := by
  rcases left with ⟨r, rfl⟩ | ⟨rfl, rfl⟩
  · rcases right with ⟨r', rfl⟩ | ⟨rfl, rfl⟩
    · exact ⟨_, rfl⟩
    · exact ⟨r, rfl⟩
  · exact one.resolve_left nofun

theorem Expression.nextSeconds_finds (wellRead : e.WellRead)
    (some' : (∀ b ∈ e.branches, ∃ t, b.Within after t) ∨
      e.Plain ∧ e.firstYear after + horizon < maxYear ∧ ∃ b ∈ e.branches, ∃ t, b.Within after t) :
    ∃ r, e.nextSeconds after = .ok r := by
  have found {b : Expression} (member : b ∈ e.branches) :
      (∃ t, b.Within after t) → ∃ r, searchAfter b after = .ok r :=
    fun ⟨t, within⟩ => searchAfter_finds (wellRead.branch member) within
  by_cases either : e.eitherDay = true
  · have branches : e.branches = [{ e with weekday := [.every] }, { e with day := [.every] }] := if_pos either
    have ends : ∀ b ∈ e.branches, (∃ r, searchAfter b after = .ok r) ∨
        (e.nth.isEmpty && e.nearest.isEmpty) = true ∧ searchAfter b after = .error (.fault .noDate) := by
      intro b member
      rcases some' with each | ⟨plain, early, -⟩
      · exact .inl (found member (each b member))
      · have free := plain.branch member
        have early' : b.firstYear after + horizon < maxYear := firstYear_branch member after ▸ early
        refine (searchAfter_gives_up (wellRead.branch member) free.nth free.nearest early').imp_right fun noDate => ?_
        exact ⟨plain_iff.2 plain, noDate⟩
    have one : ∃ b ∈ e.branches, ∃ r, searchAfter b after = .ok r := by
      rcases some' with each | ⟨-, -, b, member, within⟩
      · have first : _ ∈ e.branches := branches ▸ List.mem_cons_self
        exact ⟨_, first, found first (each _ first)⟩
      · exact ⟨b, member, found member within⟩
    rw [branches] at ends one
    simp only [List.forall_mem_cons, List.not_mem_nil, false_implies, implies_true, and_true] at ends
    simp only [List.mem_cons, List.not_mem_nil, or_false, exists_eq_or_imp, exists_eq_left] at one
    rw [nextSeconds, if_pos either]
    exact exists_earlier ends.1 ends.2 one
  · have branches : e.branches = [e] := if_neg either
    have self : e ∈ e.branches := branches ▸ List.mem_cons_self
    rw [nextSeconds, if_neg either]
    rcases some' with each | ⟨-, -, b, member, within⟩
    · exact found self (each e self)
    · rw [branches, List.mem_singleton] at member
      subst member
      exact found self within

theorem earlier_strict {x y : Except Trouble Nat} (h : earlier false x y = .ok r) :
    x ≠ .error (.fault .noDate) ∧ y ≠ .error (.fault .noDate) := by
  constructor
  · rintro rfl
    cases h
  · rintro rfl
    cases x with
    | ok s => cases h
    | error t =>
      unfold earlier at h
      split at h <;> cases h

theorem Expression.nextSeconds_strict (h : e.nextSeconds after = .ok r) (strict : ¬ (e.eitherDay = true ∧ e.Plain)) :
    ∀ b ∈ e.branches, ∃ s, searchAfter b after = .ok s ∧ r ≤ s := by
  intro b member
  refine (nextSeconds_searched h member).resolve_right fun noDate => ?_
  by_cases either : e.eitherDay = true
  · have closed : (e.nth.isEmpty && e.nearest.isEmpty) = false :=
      Bool.eq_false_iff.2 fun free => strict ⟨either, plain_iff.1 free⟩
    rw [nextSeconds, if_pos either, closed] at h
    rw [branches, if_pos either] at member
    simp only [List.mem_cons, List.not_mem_nil, or_false] at member
    rcases member with rfl | rfl
    · exact (earlier_strict h).1 noDate
    · exact (earlier_strict h).2 noDate
  · rw [nextSeconds, if_neg either] at h
    rw [branches, if_neg either, List.mem_singleton] at member
    subst member
    cases h.symm.trans noDate

theorem Expression.Within.again {again : Instant} (within : e.Within after t) (le : after ≤ again)
    (later : again.micros / Calendar.second < t) : e.Within again t :=
  ⟨later, within.inside, within.fits, Nat.le_trans within.near (Nat.add_le_add_right (firstYear_mono e le) horizon)⟩

/-- Up to the next date the next date stays the same. It is found again as well, unless one of two plain searches
runs into the last year. -/
theorem Expression.WellRead.nextSeconds_same {again : Instant} (wellRead : e.WellRead)
    (h : e.nextSeconds after = .ok r) (le : after ≤ again) (before : again.micros / Calendar.second < r) :
    (∀ r', e.nextSeconds again = .ok r' → r' = r) ∧
      (¬ (e.eitherDay = true ∧ e.Plain) ∨ e.firstYear again + horizon < maxYear →
        e.nextSeconds again = .ok r) := by
  have seconds : after.micros / Calendar.second ≤ again.micros / Calendar.second := Nat.div_le_div_right le
  have same : ∀ r', e.nextSeconds again = .ok r' → r' = r := by
    intro r' h'
    obtain ⟨falls, -, least⟩ := wellRead.nextSeconds_least h
    obtain ⟨falls', later, least'⟩ := wellRead.nextSeconds_least h'
    refine Nat.le_antisymm (Nat.le_of_not_lt fun early => least' r before early falls) ?_
    exact Nat.le_of_not_lt fun early => least r' (Nat.lt_of_le_of_lt seconds later) early falls'
  refine ⟨same, fun safe => ?_⟩
  -- What the searches found before lies ahead of the later start as well, and no more years away from it.
  have within {b : Expression} {s : Nat} (member : b ∈ e.branches) (found : searchAfter b after = .ok s)
      (le' : r ≤ s) : b.Within again s :=
    (searchAfter_within (wellRead.branch member) found).again le (Nat.lt_of_lt_of_le before le')
  have some' : ∃ r', e.nextSeconds again = .ok r' := by
    refine nextSeconds_finds wellRead ?_
    by_cases strict : e.eitherDay = true ∧ e.Plain
    · obtain ⟨⟨b, member, found⟩, -⟩ := nextSeconds_ok h
      have early := safe.resolve_left (not_not_intro strict)
      exact .inr ⟨strict.2, early, b, member, r, within member found (Nat.le_refl r)⟩
    · refine .inl fun b member => ?_
      obtain ⟨s, found, le'⟩ := nextSeconds_strict h strict b member
      exact ⟨s, within member found le'⟩
  obtain ⟨r', found⟩ := some'
  rw [found, same r' found]

end ChoreReminder.Cron
