import ChoreReminder.Proofs.Cron.Least
import ChoreReminder.Proofs.Cron.Rules

/-! What the fields of an expression ask of an instant, said without the search: its date and its time of day have to
be among the values of the slots, and where a rule of occurrences or of working days stands beside them, its day has
to be the one that the rule means. A search lets a candidate stand exactly if it is such an instant. -/

namespace ChoreReminder

open Calendar

/-! ### Dates of a month -/

namespace Date

variable {d : Date} {k n : Nat}

def weekday (d : Date) : Nat := Calendar.weekday d.number

def length (d : Date) : Nat := daysInMonth d.year d.month

def IsWorkday (d : Date) : Prop := d.weekday ≠ 0 ∧ d.weekday ≠ 6

/-- The working day of the month that is nearest to its n-th day, or to its last one if it is shorter. -/
structure IsNearest (d : Date) (n : Nat) : Prop where
  workday : d.IsWorkday
  nearest : ∀ k, 1 ≤ k → k ≤ d.length → ({ d with day := k } : Date).IsWorkday →
    max d.day (min n d.length) - min d.day (min n d.length) ≤ max k (min n d.length) - min k (min n d.length)

def IsNth (d : Date) : Cron.Nth → Prop
  | .nth k => (d.day - 1) / 7 + 1 = k
  | .last => d.length < d.day + 7

theorem weekday_day (low : 1 ≤ d.month) (high : d.month ≤ 12) (positive : 1 ≤ k) :
    ({ d with day := k } : Date).weekday = (monthStart d.monthIndex + k) % 7 := by
  have number := number_of_index { d with day := k } low high
  change _ = monthStart d.monthIndex + (k - 1) at number
  unfold weekday Calendar.weekday
  rw [number]
  omega

end Date

theorem Instant.parts_of_seconds (i : Instant) {t : Nat} (micros : i.micros = t * second) :
    i.date = (Cron.Moment.ofSeconds t).date ∧ i.hourOfDay = (Cron.Moment.ofSeconds t).hour ∧
      i.minuteOfHour = t / 60 % 60 ∧ i.secondOfMinute = t % 60 ∧ i.fraction = 0 := by
  have positive : 0 < second := by decide
  have days : day = Cron.daySeconds * second := by decide
  have hours : hour = 3600 * second := by decide
  refine ⟨?_, ?_, ?_, ?_, ?_⟩
  · unfold date dayNumber
    rw [micros, days, Nat.mul_div_mul_right _ _ positive]
    rfl
  · unfold hourOfDay
    rw [micros, days, hours, Nat.mul_mod_mul_right, Nat.mul_div_mul_right _ _ positive]
    rfl
  · unfold minuteOfHour
    rw [micros, hours, minute, Nat.mul_mod_mul_right, Nat.mul_div_mul_right _ _ positive]
    omega
  · unfold secondOfMinute
    rw [micros, minute, Nat.mul_mod_mul_right, Nat.mul_div_cancel _ positive]
  · unfold fraction
    rw [micros, Nat.mul_mod_left]

namespace Cron

variable {e : Expression} {es : List Entry} {s t n w : Nat}

section Month

variable {m : Moment}

structure Moment.Real (m : Moment) : Prop where
  low : 1 ≤ m.date.month
  high : m.date.month ≤ 12
  first : 1 ≤ m.date.day
  last : m.date.day ≤ m.monthLength
  number : m.date.number = m.dayNumber

theorem Moment.real_ofSeconds (s : Nat) : (Moment.ofSeconds s).Real := by
  obtain ⟨-, low, high, first, last, number⟩ := Date.ofNumber_spec (s / daySeconds)
  exact ⟨low, high, first, last, number⟩

theorem Moment.Real.long (real : m.Real) : 28 ≤ m.monthLength := daysInMonth_ge real.low real.high

/-- Of the days of a month, given by their distance from a Sunday, the one that a rule of working days means is the
nearest one that is neither a Sunday nor a Saturday. -/
theorem nearest_iff {sunday length t d : Nat} (first : 1 ≤ t) (last : t ≤ length) (long : 28 ≤ length) :
    (if (sunday + t) % 7 = 6 then if t = 1 then 3 else t - 1
      else if (sunday + t) % 7 = 0 then if t = length then t - 2 else t + 1 else t) = d ↔
    (1 ≤ d ∧ d ≤ length) ∧ ((sunday + d) % 7 ≠ 0 ∧ (sunday + d) % 7 ≠ 6) ∧
      ∀ k, 1 ≤ k → k ≤ length → (sunday + k) % 7 ≠ 0 ∧ (sunday + k) % 7 ≠ 6 →
        max d t - min d t ≤ max k t - min k t := by
  constructor
  · intro means
    refine ⟨by split_ifs at means <;> omega, by split_ifs at means <;> omega, fun k low high workday => ?_⟩
    split_ifs at means <;> omega
  · rintro ⟨within, workday, nearest⟩
    split_ifs with saturday begins sunday' ends
    · have := nearest 3 (by omega) (by omega) (by omega)
      omega
    · have := nearest (t - 1) (by omega) (by omega) (by omega)
      omega
    · have := nearest (t - 2) (by omega) (by omega) (by omega)
      omega
    · have := nearest (t + 1) (by omega) (by omega) (by omega)
      omega
    · have := nearest t (by omega) (by omega) (by omega)
      omega

theorem nearestWorkday_iff (real : m.Real) (positive : 1 ≤ n) :
    nearestWorkday m n = m.date.day ↔ m.date.IsNearest n := by
  have long : 28 ≤ m.date.length := real.long
  have weekday (k : Nat) (first : 1 ≤ k) := Date.weekday_day real.low real.high first
  have workday (k : Nat) (first : 1 ≤ k) : ({ m.date with day := k } : Date).IsWorkday ↔
      (monthStart m.date.monthIndex + k) % 7 ≠ 0 ∧ (monthStart m.date.monthIndex + k) % 7 ≠ 6 := by
    rw [Date.IsWorkday, weekday k first]
  have target : Calendar.weekday ({ m.date with day := min n m.date.length } : Date).number =
      (monthStart m.date.monthIndex + min n m.date.length) % 7 := weekday _ (by omega)
  have means : nearestWorkday m n =
      if (monthStart m.date.monthIndex + min n m.date.length) % 7 = 6 then
        if min n m.date.length = 1 then 3 else min n m.date.length - 1
      else if (monthStart m.date.monthIndex + min n m.date.length) % 7 = 0 then
        if min n m.date.length = m.date.length then min n m.date.length - 2 else min n m.date.length + 1
      else min n m.date.length := by
    rw [← target]
    rfl
  rw [means, nearest_iff (by omega) (Nat.min_le_right _ _) long]
  constructor
  · rintro ⟨-, here, nearest⟩
    exact ⟨(workday _ real.first).2 here, fun k low high other => nearest k low high ((workday k low).1 other)⟩
  · rintro ⟨here, nearest⟩
    exact ⟨⟨real.first, real.last⟩, (workday _ real.first).1 here,
      fun k low high other => nearest k low high ((workday k low).2 other)⟩

theorem occurrence?_iff (real : m.Real) (week : w ≤ 6) {k : Nth} (counts : ∀ n, k = .nth n → 1 ≤ n) :
    occurrence? m w k = some m.date.day ↔ m.date.weekday = w ∧ m.date.IsNth k := by
  have long : 28 ≤ m.date.length := real.long
  have last : m.date.day ≤ m.date.length := real.last
  have first := real.first
  have weekday (k : Nat) (first : 1 ≤ k) := Date.weekday_day real.low real.high first
  have here : m.date.weekday = (monthStart m.date.monthIndex + m.date.day) % 7 := weekday _ first
  have start : Calendar.weekday ({ m.date with day := 1 } : Date).number =
      (monthStart m.date.monthIndex + 1) % 7 := weekday 1 (Nat.le_refl 1)
  have same : m.monthLength = m.date.length := rfl
  rw [here]
  unfold occurrence?
  cases k with
  | nth n =>
    have := counts n rfl
    simp only [start, same, Date.IsNth]
    split_ifs with fits
    · rw [Option.some.injEq]
      omega
    · simp only [false_iff, not_and]
      omega
  | last =>
    simp only [start, same, Date.IsNth, Option.some.injEq]
    omega

/-! ### One slot -/

theorem distance_eq_zero_iff {range x : Nat} (sorted : es.Pairwise fun a b => a.le b = true) (within : x ≤ range)
    (first : x < range ∨ x = range ∧ 0 < (es.filterMap (Entry.valueIn range)).headD 0) :
    distance x es range = 0 ↔ x ∈ es.filterMap (Entry.valueIn range) := by
  refine ⟨mem_of_distance_eq_zero sorted first, fun member => ?_⟩
  by_contra far
  exact (not_mem_of_lt_distance sorted (Nat.pos_of_ne_zero far)).1 within member

theorem stay_iff_eq_zero {k : Nat} {move : Except Trouble Move} (moves : move ≠ .ok .stay) :
    (if k = 0 then .ok .stay else move) = .ok .stay ↔ k = 0 := by
  split_ifs with here <;> simp [here, moves]

theorem Slot.Holds.mem_values_iff {slot : Slot} {range x : Nat} (holds : slot.Holds es) (other : slot ≠ .day)
    (some' : isEvery es ≠ true) : x ∈ es.filterMap (Entry.valueIn range) ↔ Admits es x := by
  rw [mem_values, or_iff_left fun last => other (holds.last last.1), Admits, or_iff_right some']

theorem Slot.Holds.stay_iff {slot : Slot} (holds : slot.Holds es) (range x : Nat) (move : Nat → Except Trouble Move)
    (other : slot ≠ .day) (moves : ∀ k, move k ≠ .ok .stay)
    (first : isEvery es ≠ true → x < range ∨ x = range ∧ 0 < (es.filterMap (Entry.valueIn range)).headD 0) :
    (if isEvery es then .ok .stay else
      let k := distance x es range
      if k = 0 then .ok .stay else move k) = .ok .stay ↔ Admits es x := by
  by_cases every : isEvery es = true
  · simp [Admits, every]
  · have first := first every
    have here := distance_eq_zero_iff holds.sorted (by omega) first
    rw [if_neg every, stay_iff_eq_zero (moves _), here, holds.mem_values_iff other every]

theorem yearMove_eq_stay (holds : ∀ es, e.year = some es → Slot.year.Holds es) :
    e.yearMove m = .ok .stay ↔ ∀ es, e.year = some es → Admits es m.date.year := by
  cases given : e.year with
  | none =>
    rw [yearMove_free fun es some' => nomatch given.symm.trans some']
    exact ⟨fun _ => nofun, fun _ => rfl⟩
  | some es =>
    simp only [Option.some.injEq, forall_eq']
    by_cases every : isEvery es = true
    · rw [yearMove_free fun es' same => Option.some.inj (given.symm.trans same) ▸ every]
      exact ⟨fun _ => .inl every, fun _ => rfl⟩
    have member : m.date.year ∈ es.filterMap (Entry.valueIn 0) ↔ Admits es m.date.year :=
      (holds es given).mem_values_iff (by decide) every
    refine ⟨fun stay => member.1 (yearMove_stay given every stay), fun admits => ?_⟩
    have listed := member.2 admits
    rw [yearMove_some given every]
    cases found : (es.filterMap (Entry.valueIn 0)).find? (m.date.year ≤ ·) with
    | none =>
      have past := List.find?_eq_none.1 found _ listed
      simp at past
    | some y =>
      have least := find?_le_least ((holds es given).values_sorted (by decide) 0) found _ listed (Nat.le_refl _)
      have ahead : m.date.year ≤ y := by simpa using List.find?_some found
      exact if_pos (Nat.le_antisymm least ahead)

theorem moveToMonth_ne_stay (year month : Nat) : moveToMonth year month ≠ .ok .stay := by
  unfold moveToMonth
  dsimp only
  split <;> nofun

theorem monthMove_eq_stay (holds : Slot.month.Holds e.month) (real : m.Real) :
    e.monthMove m = .ok .stay ↔ Admits e.month m.date.month := by
  refine holds.stay_iff 12 m.date.month (fun k => moveToMonth m.date.year (m.date.month - 1 + k)) (by decide)
    (fun k => moveToMonth_ne_stay _ _) fun some' => ?_
  have : 0 < (e.month.filterMap (Entry.valueIn 12)).headD 0 := holds.headD_pos (by decide) some' (by decide)
  have := real.high
  omega

theorem moveToDay_eq_stay {days : List Nat} : moveToDay m days = .ok .stay ↔ m.date.day ∈ days := by
  refine ⟨moveToDay_stay, fun listed => ?_⟩
  have least : (days.filter (m.date.day ≤ ·)).min? = some m.date.day := by
    refine List.min?_eq_some_iff.2 ⟨List.mem_filter.2 ⟨listed, by simp⟩, fun d hd => ?_⟩
    simpa using (List.mem_filter.1 hd).2
  rw [moveToDay, least]
  exact if_pos rfl

end Month

/-! ### The fields -/

namespace Expression

def AdmitsDay (e : Expression) (d : Date) : Prop :=
  if e.nearest = [] then Admits e.day d.day ∨ .last ∈ e.day ∧ d.day = d.length
  else ∃ n ∈ e.nearest, d.IsNearest n

def AdmitsWeekday (e : Expression) (d : Date) : Prop :=
  if e.nth = [] then Admits e.weekday d.weekday
  else ∃ p ∈ e.nth, d.weekday = p.1 ∧ ∃ n ∈ p.2, d.IsNth n

/-- Where both day slots are restricted, a date has to fit one of them only. A rule beside them always holds. -/
def AdmitsDate (e : Expression) (d : Date) : Prop := ∃ b ∈ e.branches, b.AdmitsDay d ∧ b.AdmitsWeekday d

/-- The instant is an occurrence: it is as even as the expression asks for, and every field admits it. -/
structure OccursAt (e : Expression) (i : Instant) : Prop where
  whole : i.fraction = 0
  year : ∀ es, e.year = some es → Admits es i.date.year
  month : Admits e.month i.date.month
  date : e.AdmitsDate i.date
  hour : Admits e.hour i.hourOfDay
  minute : Admits e.minute i.minuteOfHour
  second : e.AdmitsSecond i.secondOfMinute

variable {m : Moment}

theorem dayMove_eq_stay (holds : Slot.day.Holds e.day) (positive : ∀ n ∈ e.nearest, 1 ≤ n) (real : m.Real) :
    e.dayMove m = .ok .stay ↔ e.AdmitsDay m.date := by
  unfold AdmitsDay
  by_cases plain : e.nearest = []
  · rw [if_pos plain]
    have free : ¬(!e.nearest.isEmpty) = true := by simp [plain]
    by_cases every : isEvery e.day = true
    · have stay : e.dayMove m = .ok .stay := (if_neg free).trans (if_pos every)
      exact ⟨fun _ => .inl (.inl every), fun _ => stay⟩
    have member : m.date.day ∈ e.day.filterMap (Entry.valueIn m.monthLength) ↔
        Admits e.day m.date.day ∨ .last ∈ e.day ∧ m.date.day = m.date.length := by
      rw [mem_values, Admits, or_iff_right every]
      rfl
    rw [← member]
    refine ⟨dayMove_stay holds free every real.last real.first, fun listed => ?_⟩
    have positive := holds.headD_pos (by decide) every (Nat.le_trans real.first real.last)
    have last := real.last
    have here := (distance_eq_zero_iff holds.sorted last (by omega)).2 listed
    rw [dayMove_plain free every]
    split
    · rfl
    · exact if_pos here
  · rw [if_neg plain, dayMove_nearest (by simpa using plain), moveToDay_eq_stay, List.mem_map]
    exact exists_congr fun n => and_congr_right fun member => nearestWorkday_iff real (positive n member)

theorem weekdayMove_eq_stay (holds : Slot.weekday.Holds e.weekday) (low : ∀ p ∈ e.nth, p.1 ≤ 6)
    (counts : ∀ p ∈ e.nth, ∀ k, .nth k ∈ p.2 → 1 ≤ k) (real : m.Real) :
    e.weekdayMove m = .ok .stay ↔ e.AdmitsWeekday m.date := by
  unfold AdmitsWeekday
  by_cases plain : e.nth = []
  · have week : m.weekday = m.date.weekday := congrArg Calendar.weekday real.number.symm
    have stands := holds.stay_iff 7 m.weekday (fun k => moveTo ((m.dayNumber + k) * daySeconds)) (by decide)
      (fun k => moveTo_ne_stay _) fun _ => .inl (Nat.mod_lt _ (by decide))
    rw [if_pos plain, ← week, ← stands]
    exact Eq.congr_left (if_neg (by simp [plain]))
  · rw [if_neg plain, weekdayMove_nth (by simpa using plain), moveToDay_eq_stay, List.mem_flatMap]
    refine exists_congr fun p => and_congr_right fun member => ?_
    rw [List.mem_filterMap, ← exists_and_left]
    refine exists_congr fun n => ?_
    rw [and_left_comm]
    refine and_congr_right fun listed => occurrence?_iff real (low p member) ?_
    exact fun k same => counts p member k (same ▸ listed)

theorem hourMove_eq_stay (holds : Slot.hour.Holds e.hour) : e.hourMove m = .ok .stay ↔ Admits e.hour m.hour := by
  have within : m.hour < 24 := (Nat.div_lt_iff_lt_mul (by decide)).2 (Nat.mod_lt _ (by decide))
  exact holds.stay_iff 24 m.hour (fun k => moveTo ((m.seconds / 3600 + k) * 3600)) (by decide)
    (fun k => moveTo_ne_stay _) fun _ => .inl within

theorem WellRead.fitsAt_iff (wellRead : e.WellRead) (ruled : Ruled e.nth e.nearest) (t : Nat) :
    let m := Moment.ofSeconds t
    e.FitsAt t ↔ (∀ es, e.year = some es → Admits es m.date.year) ∧ Admits e.month m.date.month ∧
      e.AdmitsDay m.date ∧ e.AdmitsWeekday m.date ∧ Admits e.hour m.hour ∧ e.FiresAt t := by
  intro m
  have real : m.Real := Moment.real_ofSeconds t
  rw [FitsAt, coarse, firstMove_eq_stay]
  simp only [List.forall_mem_cons, List.not_mem_nil, false_implies, implies_true, and_true, and_assoc]
  rw [yearMove_eq_stay wellRead.year, monthMove_eq_stay wellRead.month real,
    dayMove_eq_stay wellRead.day ruled.nearest real,
    weekdayMove_eq_stay wellRead.weekday ruled.weekday ruled.count real, hourMove_eq_stay wellRead.hour]

/-! ### Occurrences -/

theorem branches_same {b : Expression} (member : b ∈ e.branches) :
    b.year = e.year ∧ b.month = e.month ∧ b.hour = e.hour ∧ b.nth = e.nth ∧ b.nearest = e.nearest := by
  unfold branches at member
  split at member
  · simp only [List.mem_cons, List.not_mem_nil, or_false] at member
    rcases member with rfl | rfl <;> exact ⟨rfl, rfl, rfl, rfl, rfl⟩
  · rw [List.mem_singleton.1 member]
    exact ⟨rfl, rfl, rfl, rfl, rfl⟩

theorem WellRead.fallsAt_iff (wellRead : e.WellRead) (ruled : Ruled e.nth e.nearest) (t : Nat) :
    let m := Moment.ofSeconds t
    e.FallsAt t ↔ (∀ es, e.year = some es → Admits es m.date.year) ∧ Admits e.month m.date.month ∧
      e.AdmitsDate m.date ∧ Admits e.hour m.hour ∧ e.FiresAt t := by
  intro m
  have each : ∀ b ∈ e.branches, b.FitsAt t ↔ (∀ es, e.year = some es → Admits es m.date.year) ∧
      Admits e.month m.date.month ∧ (b.AdmitsDay m.date ∧ b.AdmitsWeekday m.date) ∧ Admits e.hour m.hour ∧
      e.FiresAt t := by
    intro b member
    obtain ⟨year, month, hour, nth, nearest⟩ := branches_same member
    refine ((wellRead.branch member).fitsAt_iff (nth ▸ nearest ▸ ruled) t).trans ?_
    rw [year, month, hour, firesAt_branch member, and_assoc]
  unfold FallsAt AdmitsDate
  constructor
  · rintro ⟨b, member, fits⟩
    obtain ⟨years, months, dates, rest⟩ := (each b member).1 fits
    exact ⟨years, months, ⟨b, member, dates⟩, rest⟩
  · rintro ⟨years, months, ⟨b, member, dates⟩, rest⟩
    exact ⟨b, member, (each b member).2 ⟨years, months, dates, rest⟩⟩

theorem WellRead.occursAt_iff (wellRead : e.WellRead) (ruled : Ruled e.nth e.nearest) {i : Instant} :
    e.OccursAt i ↔ ∃ t, i.micros = t * Calendar.second ∧ e.FallsAt t := by
  constructor
  · rintro ⟨whole, year, month, date, hour, minute, second⟩
    have micros : i.micros = i.micros / Calendar.second * Calendar.second :=
      (Nat.div_mul_cancel (Nat.dvd_of_mod_eq_zero whole)).symm
    obtain ⟨date', hour', minute', second', -⟩ := i.parts_of_seconds micros
    refine ⟨_, micros, (wellRead.fallsAt_iff ruled _).2 ?_⟩
    rw [← date', ← hour', FiresAt, ← minute', ← second']
    exact ⟨year, month, date, hour, minute, second⟩
  · rintro ⟨t, micros, falls⟩
    obtain ⟨date', hour', minute', second', whole⟩ := i.parts_of_seconds micros
    obtain ⟨year, month, date, hour, minute, second⟩ := (wellRead.fallsAt_iff ruled t).1 falls
    exact ⟨whole, date' ▸ year, date' ▸ month, date' ▸ date, hour' ▸ hour, minute' ▸ minute, second' ▸ second⟩

end Expression

end Cron

end ChoreReminder
