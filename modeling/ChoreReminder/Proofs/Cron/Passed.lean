import ChoreReminder.Proofs.Calendar.Month
import ChoreReminder.Proofs.Cron.Moves

/-! What the slots from the year down to the hour pass over. A slot lets a candidate stand or leads on, and it passes
over no time that it would have let stand: neither in the month of the candidate nor in the months between. Where
it says that there is no date, the calendar has no such time left. -/

namespace ChoreReminder.Cron

open Calendar

variable {e : Expression} {s s' t n : Nat} {m : Moment}

def Passes (f : Moment → Except Trouble Move) (s s' : Nat) : Prop :=
  ∀ t, s ≤ t → t < s' → f (.ofSeconds t) ≠ .ok .stay

/-- The slot lets the time stand, or leads to a later one over times that it does not let stand; if that is past the
end of the calendar, it says why there is no date. -/
def Leads (f : Moment → Except Trouble Move) (s : Nat) : Prop :=
  f (.ofSeconds s) = .ok .stay ∨ ∃ n, s < n ∧ Passes f s n ∧
    (f (.ofSeconds s) = .ok (.to n) ∨ secondLimit ≤ n ∧ ∃ x, f (.ofSeconds s) = .error x)

theorem moveTo_ne_stay (n : Nat) : moveTo n ≠ .ok .stay := by
  unfold moveTo
  split <;> nofun

theorem Leads.of_moveTo {f : Moment → Except Trouble Move} (move : f (.ofSeconds s) = moveTo n) (later : s < n)
    (passes : Passes f s n) : Leads f s := by
  refine .inr ⟨n, later, passes, ?_⟩
  rw [move, moveTo]
  by_cases inside : n < secondLimit
  · exact .inl (if_pos inside)
  · exact .inr ⟨Nat.le_of_not_lt inside, _, if_neg inside⟩

theorem div_lt_number {d : Date} (before : t < startOf d) : t / daySeconds < d.number :=
  (Nat.div_lt_iff_lt_mul (by decide)).2 before

theorem lt_startOf {d : Date} (before : s / daySeconds < d.number) : s < startOf d :=
  (Nat.div_lt_iff_lt_mul (by decide)).1 before

theorem lt_mul_daySeconds {k : Nat} (some' : k ≠ 0) : s < (s / daySeconds + k) * daySeconds :=
  (Nat.div_lt_iff_lt_mul (by decide)).1 (by omega)

/-! ### Year -/

theorem find?_le_least {values : List Nat} (sorted : values.Pairwise (· ≤ ·)) {x y : Nat}
    (found : values.find? (x ≤ ·) = some y) : ∀ w ∈ values, x ≤ w → y ≤ w := by
  obtain ⟨-, before, after, rfl, behind⟩ := List.find?_eq_some_iff_append.1 found
  intro w member ahead
  rcases List.mem_append.1 member with h | h
  · have left := behind w h
    simp [ahead] at left
  · rcases List.mem_cons.1 h with rfl | h
    · exact Nat.le_refl _
    · exact List.rel_of_pairwise_cons (List.pairwise_append.1 sorted).2.1 h

section Year

variable {es : List Entry}

theorem Slot.Holds.values_sorted {slot : Slot} (holds : slot.Holds es) (other : slot ≠ .day) (range : Nat) :
    (es.filterMap (Entry.valueIn range)).Pairwise (· ≤ ·) :=
  (pairwise_values range holds.sorted).imp fun le => le (.inr (mt holds.last other))

theorem yearMove_some (given : e.year = some es) (some' : isEvery es ≠ true) :
    e.yearMove m = match (es.filterMap (Entry.valueIn 0)).find? (m.date.year ≤ ·) with
      | none => .error (.fault .noDate)
      | some y => if y = m.date.year then .ok .stay else moveTo (startOf ⟨y, 1, 1⟩) := by
  unfold Expression.yearMove
  rw [given]
  exact if_neg some'

theorem yearMove_free (free : ∀ es, e.year = some es → isEvery es = true) : e.yearMove m = .ok .stay := by
  unfold Expression.yearMove
  cases given : e.year with
  | none => rfl
  | some es => exact if_pos (free es given)

theorem yearMove_stay (given : e.year = some es) (some' : isEvery es ≠ true)
    (h : e.yearMove m = .ok .stay) : m.date.year ∈ es.filterMap (Entry.valueIn 0) := by
  rw [yearMove_some given some'] at h
  split at h
  · cases h
  · next y found =>
    split at h
    · next same => exact same ▸ List.mem_of_find?_eq_some found
    · exact absurd h (moveTo_ne_stay _)

end Year

theorem ofSeconds_year_mono (le : s ≤ t) : (Moment.ofSeconds s).date.year ≤ (Moment.ofSeconds t).date.year :=
  Date.year_mono (Nat.div_le_div_right le)

theorem yearMove_noDate (h : e.yearMove (.ofSeconds s) = .error (.fault .noDate)) (le : s ≤ t) :
    e.yearMove (.ofSeconds t) ≠ .ok .stay := by
  by_cases free : ∀ es, e.year = some es → isEvery es = true
  · rw [yearMove_free free] at h
    cases h
  · simp only [not_forall] at free
    obtain ⟨es, given, some'⟩ := free
    intro stay
    have member := yearMove_stay given some' stay
    rw [yearMove_some given some'] at h
    split at h
    · next missed =>
      have past := List.find?_eq_none.1 missed _ member
      simp only [decide_eq_true_eq] at past
      exact past (ofSeconds_year_mono le)
    · split at h
      · cases h
      · unfold moveTo at h
        split at h <;> cases h

theorem yearMove_leads (holds : ∀ es, e.year = some es → Slot.year.Holds es) (s : Nat) :
    Leads e.yearMove s := by
  by_cases free : ∀ es, e.year = some es → isEvery es = true
  · exact .inl (yearMove_free free)
  simp only [not_forall] at free
  obtain ⟨es, given, some'⟩ := free
  have sorted := (holds es given).values_sorted (by decide) 0
  have move := yearMove_some (m := .ofSeconds s) given some'
  cases found : (es.filterMap (Entry.valueIn 0)).find? ((Moment.ofSeconds s).date.year ≤ ·) with
  | none =>
    rw [found] at move
    exact .inr ⟨max (s + 1) secondLimit, by omega, fun t from' _ => yearMove_noDate move from',
      .inr ⟨Nat.le_max_right _ _, _, move⟩⟩
  | some y =>
    rw [found] at move
    have ahead : (Moment.ofSeconds s).date.year ≤ y := by simpa using List.find?_some found
    have positive : 1 ≤ y := Nat.le_trans (Date.ofNumber_spec _).1 ahead
    by_cases here : y = (Moment.ofSeconds s).date.year
    · exact .inl (move.trans (if_pos here))
    refine .of_moveTo (move.trans (if_neg here)) ?_ fun t from' before stay => ?_
    · have later : (Date.ofNumber (s / daySeconds)).year < y := Nat.lt_of_le_of_ne ahead (Ne.symm here)
      exact lt_startOf ((Date.lt_yearStart_iff positive).2 later)
    · have least := find?_le_least sorted found _ (yearMove_stay given some' stay) (ofSeconds_year_mono from')
      have behind : (Moment.ofSeconds t).date.year < y :=
        (Date.lt_yearStart_iff positive).1 (div_lt_number before)
      omega

/-! ### Month -/

theorem Slot.Holds.headD_pos {slot : Slot} {es : List Entry} (holds : slot.Holds es) (low : 1 ≤ slot.low)
    (some' : isEvery es ≠ true) {range : Nat} (positive : 0 < range) :
    0 < (es.filterMap (Entry.valueIn range)).headD 0 := by
  cases es with
  | nil => exact absurd rfl holds.nonempty
  | cons e rest =>
    cases e with
    | every => exact absurd (by simp [isEvery]) some'
    | value n => exact Nat.le_trans low (holds.range n List.mem_cons_self).1
    | last => exact positive

theorem monthMove_stay (holds : Slot.month.Holds e.month) (some' : isEvery e.month ≠ true)
    (month : m.date.month ≤ 12) (h : e.monthMove m = .ok .stay) : .value m.date.month ∈ e.month := by
  unfold Expression.monthMove at h
  rw [if_neg some'] at h
  dsimp only at h
  split at h
  · next here =>
    have first : 0 < (e.month.filterMap (Entry.valueIn 12)).headD 0 :=
      holds.headD_pos (by decide) some' (by decide)
    have member := mem_of_distance_eq_zero holds.sorted (by omega) here
    exact (mem_values.1 member).resolve_right fun last => nomatch holds.last last.1
  · unfold moveToMonth at h
    dsimp only at h
    split at h <;> cases h

theorem monthStart_dayLimit {i : Nat} (past : maxYear < i / 12) : dayLimit ≤ monthStart i := by
  have first : monthStart 120000 = dayLimit := by decide
  have later : 120000 ≤ i := by
    unfold maxYear at past
    omega
  exact first ▸ monthStart_mono (by decide) later

theorem moveToMonth_ahead (k : Nat) (move : e.monthMove m = moveToMonth m.date.year (m.date.month - 1 + k))
    (real : m.date = .ofNumber n) :
    let start := monthStart (m.date.monthIndex + k) * daySeconds
    e.monthMove m = .ok (.to start) ∨ secondLimit ≤ start ∧ ∃ x, e.monthMove m = .error x := by
  intro start
  rw [move]
  obtain ⟨counted, year, month⟩ : 12 ≤ m.date.monthIndex ∧ m.date.year = m.date.monthIndex / 12 ∧
    m.date.month = m.date.monthIndex % 12 + 1 := real ▸ Date.monthIndex_parts n
  have target : m.date.year + (m.date.month - 1 + k) / 12 = (m.date.monthIndex + k) / 12 ∧
      (m.date.month - 1 + k) % 12 = (m.date.monthIndex + k) % 12 := by omega
  unfold moveToMonth
  dsimp only
  rw [target.1, target.2]
  by_cases past : (m.date.monthIndex + k) / 12 > maxYear
  · refine .inr ⟨?_, _, if_pos past⟩
    exact Nat.mul_le_mul_right daySeconds (monthStart_dayLimit past)
  · exact .inl (if_neg past)

theorem not_month_of_near {es : List Entry} {a b : Nat} (sorted : es.Pairwise fun x y => x.le y = true)
    (later : a ≤ b) (near : b < a + distance (a % 12 + 1) es 12) : .value (b % 12 + 1) ∉ es := by
  intro member
  have close : b - a < distance (a % 12 + 1) es 12 := by omega
  obtain ⟨ahead, again⟩ := not_mem_of_lt_distance sorted close
  by_cases within : a % 12 + 1 + (b - a) ≤ 12
  · have same : a % 12 + 1 + (b - a) = b % 12 + 1 := by omega
    exact ahead within (mem_values.2 (.inl (same ▸ member)))
  · have := (again (by omega) (by omega)).2 _ member
    omega

theorem monthMove_leads (holds : Slot.month.Holds e.month) (s : Nat) : Leads e.monthMove s := by
  by_cases every : isEvery e.month = true
  · exact .inl (if_pos every)
  by_cases here : distance (Moment.ofSeconds s).date.month e.month 12 = 0
  · exact .inl ((if_neg every).trans (if_pos here))
  have move : e.monthMove (.ofSeconds s) = moveToMonth (Moment.ofSeconds s).date.year
      ((Moment.ofSeconds s).date.month - 1 + distance (Moment.ofSeconds s).date.month e.month 12) :=
    (if_neg every).trans (if_neg here)
  obtain ⟨counted, -, -⟩ := Date.monthIndex_parts (s / daySeconds)
  have counted' := Nat.le_trans counted
    (Nat.le_add_right _ (distance (Moment.ofSeconds s).date.month e.month 12))
  refine .inr ⟨_, ?_, fun t from' before stay => ?_, moveToMonth_ahead _ move rfl⟩
  · refine (Nat.div_lt_iff_lt_mul (by decide)).1 ((Date.lt_monthStart_iff counted').2 ?_)
    exact Nat.lt_add_of_pos_right (Nat.pos_of_ne_zero here)
  · have monthHigh : (Moment.ofSeconds t).date.month ≤ 12 := (Date.ofNumber_spec (t / daySeconds)).2.2.1
    have member := monthMove_stay holds every monthHigh stay
    have near := (Date.lt_monthStart_iff counted').1 ((Nat.div_lt_iff_lt_mul (by decide)).2 before)
    have later : (Moment.ofSeconds s).date.monthIndex ≤ (Moment.ofSeconds t).date.monthIndex :=
      Date.monthIndex_mono (Nat.div_le_div_right from')
    have month (u : Nat) : (Moment.ofSeconds u).date.month = (Moment.ofSeconds u).date.monthIndex % 12 + 1 :=
      (Date.monthIndex_parts (u / daySeconds)).2.2
    rw [month s] at near
    rw [month t] at member
    exact not_month_of_near holds.sorted later near member

/-! ### Days -/

section Days

theorem ofSeconds_monthLength (s : Nat) :
    (Moment.ofSeconds s).monthLength = monthLength (Date.ofNumber (s / daySeconds)).monthIndex := by
  obtain ⟨-, year, month⟩ := Date.monthIndex_parts (s / daySeconds)
  rw [monthLength, ← year, ← month]
  rfl

theorem ofSeconds_day (s : Nat) :
    1 ≤ (Moment.ofSeconds s).date.day ∧ (Moment.ofSeconds s).date.day ≤ (Moment.ofSeconds s).monthLength := by
  rw [ofSeconds_monthLength]
  exact ⟨(Date.ofNumber_spec _).2.2.2.1, (Date.day_ofNumber _).2⟩

theorem ofSeconds_within (from' : s ≤ t)
    (within : (Moment.ofSeconds s).date.day + (t / daySeconds - s / daySeconds) ≤
      (Moment.ofSeconds s).monthLength) :
    Moment.ofSeconds t = ⟨t, { (Moment.ofSeconds s).date with
      day := (Moment.ofSeconds s).date.day + (t / daySeconds - s / daySeconds) }⟩ := by
  have le : s / daySeconds ≤ t / daySeconds := Nat.div_le_div_right from'
  rw [ofSeconds_monthLength] at within
  have date := Date.ofNumber_within within
  rw [Nat.add_sub_cancel' le] at date
  rw [Moment.ofSeconds, date]
  rfl

theorem day_le_past (past : (Moment.ofSeconds s).monthLength <
      (Moment.ofSeconds s).date.day + (t / daySeconds - s / daySeconds)) :
    (Moment.ofSeconds t).date.day + (Moment.ofSeconds s).monthLength ≤
      (Moment.ofSeconds s).date.day + (t / daySeconds - s / daySeconds) := by
  obtain ⟨counted, -, -⟩ := Date.monthIndex_parts (s / daySeconds)
  obtain ⟨day, -⟩ := Date.day_ofNumber (s / daySeconds)
  have next := monthStart_succ counted
  rw [← ofSeconds_monthLength] at next
  change s / daySeconds + 1 = _ + (Moment.ofSeconds s).date.day at day
  have within := (ofSeconds_day s).2
  have passed : monthStart ((Date.ofNumber (s / daySeconds)).monthIndex + 1) ≤ t / daySeconds := by omega
  have since : (Moment.ofSeconds t).date.day ≤
      t / daySeconds - monthStart ((Date.ofNumber (s / daySeconds)).monthIndex + 1) + 1 :=
    Date.day_le_since (Nat.le_succ_of_le counted) passed
  omega

/-- The days a slot gives are days of the month, and the same ones for all days of it. -/
structure Monthly (days : Moment → List Nat) : Prop where
  same : ∀ m t d, days ⟨t, { m.date with day := d }⟩ = days m
  bound : ∀ s, ∀ d ∈ days (.ofSeconds s), d ≤ (Moment.ofSeconds s).monthLength

theorem moveToDay_stay {days : List Nat} (h : moveToDay m days = .ok .stay) : m.date.day ∈ days := by
  unfold moveToDay at h
  split at h
  · exact absurd h (moveTo_ne_stay _)
  · next d least =>
    split at h
    · next here => exact here ▸ (List.mem_filter.1 (List.min?_mem least)).1
    · exact absurd h (moveTo_ne_stay _)

theorem moveToDay_leads {days : Moment → List Nat} (monthly : Monthly days) (s : Nat) :
    Leads (fun m => moveToDay m (days m)) s := by
  -- A day of the month that comes no earlier and is given is the one it moves to or a later one.
  have given {t : Nat} (from' : s ≤ t) (stay : moveToDay (.ofSeconds t) (days (.ofSeconds t)) = .ok .stay)
      (within : (Moment.ofSeconds s).date.day + (t / daySeconds - s / daySeconds) ≤
        (Moment.ofSeconds s).monthLength) :
      (Moment.ofSeconds s).date.day + (t / daySeconds - s / daySeconds) ∈
        (days (.ofSeconds s)).filter ((Moment.ofSeconds s).date.day ≤ ·) := by
    have member := moveToDay_stay stay
    rw [ofSeconds_within from' within, monthly.same] at member
    exact List.mem_filter.2 ⟨member, by simp⟩
  have move : moveToDay (.ofSeconds s) (days (.ofSeconds s)) =
      match ((days (.ofSeconds s)).filter ((Moment.ofSeconds s).date.day ≤ ·)).min? with
      | none => nextMonth (.ofSeconds s)
      | some d => if d = (Moment.ofSeconds s).date.day then .ok .stay
          else moveTo (startOf { (Moment.ofSeconds s).date with day := d }) := rfl
  cases found : ((days (.ofSeconds s)).filter ((Moment.ofSeconds s).date.day ≤ ·)).min? with
  | none =>
    rw [found] at move
    refine .of_moveTo move (lt_mul_daySeconds (Nat.succ_ne_zero _)) fun t from' before stay => ?_
    have near : t / daySeconds < s / daySeconds +
        ((Moment.ofSeconds s).monthLength - (Moment.ofSeconds s).date.day + 1) :=
      (Nat.div_lt_iff_lt_mul (by decide)).2 before
    have later : s / daySeconds ≤ t / daySeconds := Nat.div_le_div_right from'
    have := (ofSeconds_day s).2
    have member := given from' stay (by omega)
    rw [List.min?_eq_none_iff.1 found] at member
    exact List.not_mem_nil member
  | some d =>
    rw [found] at move
    obtain ⟨first, least⟩ := List.min?_eq_some_iff.1 found
    obtain ⟨listed, ahead⟩ := List.mem_filter.1 first
    rw [decide_eq_true_eq] at ahead
    have number := Date.number_day (n := s / daySeconds) (Nat.le_trans (ofSeconds_day s).1 ahead)
    change _ + (Moment.ofSeconds s).date.day = _ at number
    have same : ({ (Moment.ofSeconds s).date with day := d } : Date).number =
        ({ Date.ofNumber (s / daySeconds) with day := d } : Date).number := rfl
    by_cases here : d = (Moment.ofSeconds s).date.day
    · exact .inl (move.trans (if_pos here))
    refine .of_moveTo (move.trans (if_neg here)) (lt_startOf (by omega)) fun t from' before stay => ?_
    have bound := monthly.bound s d listed
    have near := div_lt_number before
    have later : s / daySeconds ≤ t / daySeconds := Nat.div_le_div_right from'
    have := least _ (given from' stay (by omega))
    omega

theorem nearestWorkday_le (long : 28 ≤ m.monthLength) (n : Nat) : nearestWorkday m n ≤ m.monthLength := by
  unfold nearestWorkday
  dsimp only
  split_ifs <;> omega

theorem nearestWorkday_monthly (ns : List Nat) : Monthly fun m => ns.map (nearestWorkday m) where
  same _ _ _ := rfl
  bound s d given := by
    obtain ⟨n, -, rfl⟩ := List.mem_map.1 given
    obtain ⟨-, low, high, -⟩ := Date.ofNumber_spec (s / daySeconds)
    exact nearestWorkday_le (daysInMonth_ge low high) n

theorem occurrence?_le {d w : Nat} {n : Nth} (long : 28 ≤ m.monthLength) (h : occurrence? m w n = some d) :
    d ≤ m.monthLength := by
  unfold occurrence? at h
  cases n with
  | nth k =>
    dsimp only at h
    split at h
    · next within => exact Option.some.inj h ▸ within
    · cases h
  | last =>
    obtain rfl := Option.some.inj h
    dsimp only
    omega

theorem occurrence?_monthly (nth : List (Nat × List Nth)) :
    Monthly fun m => nth.flatMap fun p => p.2.filterMap (occurrence? m p.1) where
  same _ _ _ := rfl
  bound s d given := by
    obtain ⟨p, -, given⟩ := List.mem_flatMap.1 given
    obtain ⟨n, -, given⟩ := List.mem_filterMap.1 given
    obtain ⟨-, low, high, -⟩ := Date.ofNumber_spec (s / daySeconds)
    exact occurrence?_le (daysInMonth_ge low high) given

theorem dayMove_nearest (some' : (!e.nearest.isEmpty) = true) (m : Moment) :
    e.dayMove m = moveToDay m (e.nearest.map (nearestWorkday m)) := if_pos some'

theorem dayMove_stay (holds : Slot.day.Holds e.day) (plain : ¬(!e.nearest.isEmpty) = true)
    (some' : isEvery e.day ≠ true) (within : m.date.day ≤ m.monthLength) (positive : 1 ≤ m.date.day)
    (h : e.dayMove m = .ok .stay) : m.date.day ∈ e.day.filterMap (Entry.valueIn m.monthLength) := by
  unfold Expression.dayMove at h
  rw [if_neg plain, if_neg some'] at h
  split at h
  · next last =>
    obtain ⟨last, same⟩ := Bool.and_eq_true_iff.1 last
    exact mem_values.2 (.inr ⟨List.contains_iff_mem.1 last, eq_of_beq same⟩)
  · dsimp only at h
    split at h
    · next here =>
      have first := holds.headD_pos (by decide) some' (Nat.le_trans positive within)
      exact mem_of_distance_eq_zero holds.sorted (by omega) here
    · exact absurd h (moveTo_ne_stay _)

theorem dayMove_plain (plain : ¬(!e.nearest.isEmpty) = true) (some' : isEvery e.day ≠ true) (m : Moment) :
    e.dayMove m = if e.day.contains .last && m.date.day == m.monthLength then .ok .stay
      else
        let k := distance m.date.day e.day m.monthLength
        if k = 0 then .ok .stay else moveTo ((m.dayNumber + k) * daySeconds) :=
  (if_neg plain).trans (if_neg some')

theorem dayMove_leads (holds : Slot.day.Holds e.day) (s : Nat) : Leads e.dayMove s := by
  by_cases nearest : (!e.nearest.isEmpty) = true
  · have move : e.dayMove = fun m => moveToDay m (e.nearest.map (nearestWorkday m)) :=
      funext fun m => dayMove_nearest nearest m
    rw [move]
    exact moveToDay_leads (nearestWorkday_monthly e.nearest) s
  by_cases every : isEvery e.day = true
  · exact .inl ((if_neg nearest).trans (if_pos every))
  have move := dayMove_plain nearest every (.ofSeconds s)
  by_cases last : (e.day.contains .last && (Moment.ofSeconds s).date.day == (Moment.ofSeconds s).monthLength) = true
  · exact .inl (move.trans (if_pos last))
  by_cases here : distance (Moment.ofSeconds s).date.day e.day (Moment.ofSeconds s).monthLength = 0
  · exact .inl (move.trans ((if_neg last).trans (if_pos here)))
  refine .of_moveTo (move.trans ((if_neg last).trans (if_neg here))) (lt_mul_daySeconds here) ?_
  intro t from' before stay
  obtain ⟨positive, high⟩ := ofSeconds_day t
  have member := dayMove_stay holds nearest every high positive stay
  have near : t / daySeconds < s / daySeconds +
      distance (Moment.ofSeconds s).date.day e.day (Moment.ofSeconds s).monthLength :=
    (Nat.div_lt_iff_lt_mul (by decide)).2 before
  have later : s / daySeconds ≤ t / daySeconds := Nat.div_le_div_right from'
  have close : t / daySeconds - s / daySeconds <
      distance (Moment.ofSeconds s).date.day e.day (Moment.ofSeconds s).monthLength := by omega
  obtain ⟨ahead, again⟩ := not_mem_of_lt_distance holds.sorted close
  by_cases within : (Moment.ofSeconds s).date.day + (t / daySeconds - s / daySeconds) ≤
      (Moment.ofSeconds s).monthLength
  · rw [ofSeconds_within from' within] at member
    exact ahead within member
  · obtain ⟨noLast, past⟩ := again (ofSeconds_day s).2 (by omega)
    have value := (mem_values.1 member).resolve_right fun last => noLast last.1
    have := past _ value
    have := day_le_past (Nat.not_le.1 within)
    omega

end Days

/-! ### Weekday and hour -/

theorem Slot.Holds.distance_ne_zero {slot : Slot} {es : List Entry} {range u v : Nat}
    (holds : slot.Holds es) (other : slot ≠ .day) (many : slot.high < range) (some' : isEvery es ≠ true)
    (le : u ≤ v) (near : v < u + distance (u % range) es range) : distance (v % range) es range ≠ 0 := by
  intro here
  have positive : 0 < range := Nat.zero_lt_of_lt many
  have passed := holds.not_admits_of_distance many some' (Nat.mod_lt u positive) (j := v - u) (by omega)
  rw [Nat.mod_add_mod, Nat.add_sub_cancel' le] at passed
  exact passed (holds.admits_of_distance other (Nat.mod_lt v positive) here)

theorem Slot.Holds.leads {slot : Slot} {es : List Entry} {f : Moment → Except Trouble Move}
    {unit offset range : Nat} (holds : slot.Holds es) (other : slot ≠ .day) (many : slot.high < range)
    (some' : isEvery es ≠ true) (positive : 0 < unit)
    (cyclic : ∀ u, f (.ofSeconds u) =
      let k := distance ((u / unit + offset) % range) es range
      if k = 0 then .ok .stay else moveTo ((u / unit + k) * unit)) (s : Nat) : Leads f s := by
  by_cases here : distance ((s / unit + offset) % range) es range = 0
  · exact .inl ((cyclic s).trans (if_pos here))
  refine .of_moveTo ((cyclic s).trans (if_neg here)) ?_ fun t from' before stay => ?_
  · exact (Nat.div_lt_iff_lt_mul positive).1 (by omega)
  · have near := (Nat.div_lt_iff_lt_mul positive).2 before
    have later : s / unit + offset ≤ t / unit + offset :=
      Nat.add_le_add_right (Nat.div_le_div_right from') offset
    rw [cyclic] at stay
    dsimp only at stay
    rw [if_neg (holds.distance_ne_zero other many some' later (by omega))] at stay
    exact moveTo_ne_stay _ stay

theorem weekdayMove_nth (some' : (!e.nth.isEmpty) = true) (m : Moment) :
    e.weekdayMove m =
      moveToDay m (e.nth.flatMap fun p => p.2.filterMap (occurrence? m p.1)) := if_pos some'

theorem weekdayMove_plain (plain : ¬(!e.nth.isEmpty) = true) (some' : isEvery e.weekday ≠ true) (u : Nat) :
    e.weekdayMove (.ofSeconds u) =
      let k := distance ((u / daySeconds + 1) % 7) e.weekday 7
      if k = 0 then .ok .stay else moveTo ((u / daySeconds + k) * daySeconds) :=
  (if_neg plain).trans (if_neg some')

theorem weekdayMove_leads (holds : Slot.weekday.Holds e.weekday) (s : Nat) : Leads e.weekdayMove s := by
  by_cases nth : (!e.nth.isEmpty) = true
  · have move : e.weekdayMove = fun m => moveToDay m (e.nth.flatMap fun p => p.2.filterMap (occurrence? m p.1)) :=
      funext fun m => weekdayMove_nth nth m
    rw [move]
    exact moveToDay_leads (occurrence?_monthly e.nth) s
  by_cases every : isEvery e.weekday = true
  · exact .inl ((if_neg nth).trans (if_pos every))
  exact holds.leads (by decide) (by decide) every (by decide) (weekdayMove_plain nth every) s

theorem hourMove_plain (some' : isEvery e.hour ≠ true) (u : Nat) :
    e.hourMove (.ofSeconds u) =
      let k := distance ((u / 3600 + 0) % 24) e.hour 24
      if k = 0 then .ok .stay else moveTo ((u / 3600 + k) * 3600) := by
  have hour : (Moment.ofSeconds u).hour = (u / 3600 + 0) % 24 := by
    show u % daySeconds / 3600 = _
    unfold daySeconds
    omega
  rw [← hour]
  exact if_neg some'

theorem hourMove_leads (holds : Slot.hour.Holds e.hour) (s : Nat) : Leads e.hourMove s := by
  by_cases every : isEvery e.hour = true
  · exact .inl (if_pos every)
  exact holds.leads (by decide) (by decide) every (by decide) (hourMove_plain every) s

/-! ### Year to hour -/

theorem firstMove_eq_stay {fs : List (Moment → Except Trouble Move)} :
    firstMove m fs = .ok .stay ↔ ∀ f ∈ fs, f m = .ok .stay := by
  induction fs with
  | nil => simp [firstMove]
  | cons f rest ih =>
    rw [List.forall_mem_cons, ← ih, firstMove]
    split
    · next stay => exact ⟨fun h => ⟨stay, h⟩, And.right⟩
    · next moved => exact ⟨fun h => absurd h moved, fun h => absurd h.1 moved⟩

theorem firstMove_leads {fs : List (Moment → Except Trouble Move)} (each : ∀ f ∈ fs, Leads f s) :
    Leads (firstMove · fs) s := by
  by_cases stay : firstMove (.ofSeconds s) fs = .ok .stay
  · exact .inl stay
  obtain ⟨f, member, move⟩ := exists_of_firstMove rfl stay
  have leads := each f member
  rw [Leads, move] at leads
  obtain ⟨n, later, passes, moved⟩ := leads.resolve_left stay
  refine .inr ⟨n, later, fun t from' before all => ?_, moved⟩
  exact passes t from' before (firstMove_eq_stay.1 all f member)

theorem Expression.WellRead.coarse_leads (wellRead : e.WellRead) (s : Nat) : Leads e.coarse s := by
  refine firstMove_leads fun f member => ?_
  simp only [List.mem_cons, List.not_mem_nil, or_false] at member
  rcases member with rfl | rfl | rfl | rfl | rfl
  · exact yearMove_leads wellRead.year s
  · exact monthMove_leads wellRead.month s
  · exact dayMove_leads wellRead.day s
  · exact weekdayMove_leads wellRead.weekday s
  · exact hourMove_leads wellRead.hour s

end ChoreReminder.Cron
