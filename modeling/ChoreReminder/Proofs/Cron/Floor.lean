import Mathlib
import ChoreReminder.Proofs.Cron.Next
import ChoreReminder.Proofs.Schedule.Occurrence

/-! How often an accepted cron schedule fires. The validation looks at the two dates that follow it and
asks for an hour between them. An expression with one minute and one second fires once in an hour at
most, and then all its dates lie an hour apart. Any other expression fires twice in every hour in
which it fires at all: the second of the two dates is the first one of its hour, and the date that
follows it is less than an hour away, although the schedule has been accepted. -/

namespace ChoreReminder

namespace Cron

variable {slot : Slot} {es : List Entry} {e : Expression} {n t u : Nat}

def isSingle : List Entry → Bool
  | [.value _] => true
  | _ => false

theorem isSingle_iff : isSingle es = true ↔ ∃ v, es = [.value v] := by
  unfold isSingle
  split
  · exact ⟨fun _ => ⟨_, rfl⟩, fun _ => rfl⟩
  · next other => exact ⟨nofun, fun ⟨v, same⟩ => absurd same (other v)⟩

def Expression.oncePerHour (e : Expression) : Bool := isSingle e.minute && e.second.all isSingle

theorem admits_singleton {v w : Nat} : Admits [.value v] w ↔ w = v := by
  simp [Admits, isEvery]

theorem Slot.Holds.admits_two (holds : slot.Holds es) (sixty : slot.high < 60) (other : slot ≠ .day)
    (more : isSingle es = false) :
    ∃ v w, v ≠ w ∧ v < 60 ∧ w < 60 ∧ Admits es v ∧ Admits es w := by
  have value (x : Entry) (member : x ∈ es) (some' : isEvery es ≠ true) :
      ∃ v, x = .value v ∧ v < 60 := by
    cases x with
    | every => exact absurd (List.contains_iff_mem.2 member) some'
    | last => exact absurd (holds.last member) other
    | value v =>
      have := (holds.range v member).2
      exact ⟨v, rfl, by omega⟩
  by_cases every : isEvery es = true
  · exact ⟨0, 1, by decide, by decide, by decide, .inl every, .inl every⟩
  · match es, holds.nonempty with
    | [x], _ =>
      obtain ⟨v, rfl, -⟩ := value x List.mem_cons_self every
      cases more
    | x :: y :: rest, _ =>
      obtain ⟨v, rfl, hv⟩ := value x List.mem_cons_self every
      obtain ⟨w, rfl, hw⟩ := value y (List.mem_cons_of_mem _ List.mem_cons_self) every
      refine ⟨v, w, ?_, hv, hw, .inr (by simp), .inr (by simp)⟩
      rintro rfl
      exact (List.nodup_cons.1 holds.nodup).1 List.mem_cons_self

theorem Slot.Holds.admits_one (holds : slot.Holds es) (sixty : slot.high < 60)
    (other : slot ≠ .day) : ∃ v, v < 60 ∧ Admits es v := by
  cases one : isSingle es with
  | false =>
    obtain ⟨v, -, -, hv, -, admits, -⟩ := holds.admits_two sixty other one
    exact ⟨v, hv, admits⟩
  | true =>
    obtain ⟨v, rfl⟩ := isSingle_iff.1 one
    have := (holds.range v List.mem_cons_self).2
    exact ⟨v, by omega, admits_singleton.2 rfl⟩

namespace Expression

theorem firesAt_of_parts {h m s : Nat} (minute : Admits e.minute m) (second : e.AdmitsSecond s)
    (hm : m < 60) (hs : s < 60) : e.FiresAt (h * 3600 + m * 60 + s) := by
  have minutes : (h * 3600 + m * 60 + s) / 60 % 60 = m := by omega
  have seconds : (h * 3600 + m * 60 + s) % 60 = s := by omega
  rw [FiresAt, minutes, seconds]
  exact ⟨minute, second⟩

theorem Timed.admitsSecond_one (timed : e.Timed) : ∃ s, s < 60 ∧ e.AdmitsSecond s := by
  cases given : e.second with
  | none => exact ⟨0, by decide, (admitsSecond_none given).2 rfl⟩
  | some es =>
    obtain ⟨s, hs, admits⟩ := (timed.second es given).admits_one (by decide) (by decide)
    exact ⟨s, hs, (admitsSecond_some given).2 admits⟩

theorem firesAt_mod_eq (once : e.oncePerHour = true) (ht : e.FiresAt t) (hu : e.FiresAt u) :
    t % 3600 = u % 3600 := by
  obtain ⟨minute, second⟩ := Bool.and_eq_true_iff.1 once
  obtain ⟨m, one⟩ := isSingle_iff.1 minute
  rw [FiresAt, one, admits_singleton] at ht hu
  have sameSecond : t % 60 = u % 60 := by
    cases given : e.second with
    | none =>
      rw [admitsSecond_none given] at ht hu
      exact ht.2.trans hu.2.symm
    | some es =>
      rw [given] at second
      obtain ⟨s, rfl⟩ := isSingle_iff.1 second
      rw [admitsSecond_some given, admits_singleton] at ht hu
      exact ht.2.trans hu.2.symm
  omega

theorem Timed.fires_twice (timed : e.Timed) (more : e.oncePerHour = false) (h : Nat) :
    ∃ t u, t / 3600 = h ∧ u / 3600 = h ∧ t ≠ u ∧ e.FiresAt t ∧ e.FiresAt u := by
  rcases Bool.and_eq_false_iff.1 more with minute | second
  · obtain ⟨m, m', differ, hm, hm', admits, admits'⟩ :=
      timed.minute.admits_two (by decide) (by decide) minute
    obtain ⟨s, hs, second⟩ := timed.admitsSecond_one
    exact ⟨h * 3600 + m * 60 + s, h * 3600 + m' * 60 + s, by omega, by omega, by omega,
      firesAt_of_parts admits second hm hs, firesAt_of_parts admits' second hm' hs⟩
  · obtain ⟨m, hm, minute⟩ := timed.minute.admits_one (by decide) (by decide)
    cases given : e.second with
    | none =>
      rw [given] at second
      cases second
    | some es =>
      rw [given] at second
      obtain ⟨s, s', differ, hs, hs', admits, admits'⟩ :=
        (timed.second es given).admits_two (by decide) (by decide) second
      rw [← admitsSecond_some given] at admits admits'
      exact ⟨h * 3600 + m * 60 + s, h * 3600 + m * 60 + s', by omega, by omega, by omega,
        firesAt_of_parts minute admits hm hs, firesAt_of_parts minute admits' hm hs'⟩

theorem Timed.fires_again (timed : e.Timed) (more : e.oncePerHour = false)
    (first : ∀ u, u / 3600 = t / 3600 → u < t → ¬ e.FiresAt u) :
    ∃ u, u / 3600 = t / 3600 ∧ t < u ∧ e.FiresAt u := by
  obtain ⟨u, v, hu, hv, differ, firesU, firesV⟩ := timed.fires_twice more (t / 3600)
  have notBefore {w : Nat} (hour : w / 3600 = t / 3600) (fires : e.FiresAt w) : t ≤ w :=
    Nat.le_of_not_lt fun before => first w hour before fires
  have := notBefore hu firesU
  have := notBefore hv firesV
  by_cases here : u = t
  · exact ⟨v, hv, by omega, firesV⟩
  · exact ⟨u, hu, by omega, firesU⟩

end Expression

end Cron

namespace Schedule

open Calendar

variable {expression : String} {x : Cron.Expression} {t now : Stamp} {first second third o : Instant}

def Follows (expression : String) (t : Stamp) (first second : Instant) : Prop :=
  nextOccurrence expression t = .ok first ∧ nextOccurrence expression (.utc first) = .ok second

theorem validateCron_iff : validateCron expression now = .ok () ↔
    ∃ first second, Follows expression now first second ∧ first.micros + hour ≤ second.micros := by
  have positive : 0 < hour := by decide
  constructor
  · intro accepted
    obtain ⟨first, occurs, accepted⟩ := bind_eq_ok.1 accepted
    obtain ⟨second, occurs', accepted⟩ := bind_eq_ok.1 accepted
    refine ⟨first, second, ⟨occurs, occurs'⟩, ?_⟩
    split at accepted
    · cases accepted
    · next wide =>
      have wide := Nat.le_of_not_lt wide
      omega
  · rintro ⟨first, second, ⟨occurs, occurs'⟩, apart⟩
    refine bind_eq_ok.2 ⟨first, occurs, bind_eq_ok.2 ⟨second, occurs', if_neg ?_⟩⟩
    omega

theorem wholeSeconds {r : Nat} (micros : o.micros = r * Calendar.second) :
    o.micros / Calendar.second = r := by
  rw [micros]
  exact Nat.mul_div_cancel r (by decide)

theorem hour_seconds {m n : Nat} : m * Calendar.second + hour ≤ n * Calendar.second ↔ m + 3600 ≤ n := by
  unfold hour minute Calendar.second
  omega

theorem hour_le_of_oncePerHour (read : Cron.read expression = .ok x) (once : x.oncePerHour = true)
    (h : Follows expression t first second) : first.micros + hour ≤ second.micros := by
  have timed := (Cron.read_ok read).timed
  obtain ⟨_, r, _, found, micros⟩ := nextOccurrence_ok read h.1
  obtain ⟨r', found', micros'⟩ := nextOccurrence_utc_ok read h.2
  obtain ⟨fires, -⟩ := Cron.Expression.nextSeconds_fires timed found
  obtain ⟨fires', later, -⟩ := Cron.Expression.nextSeconds_fires timed found'
  rw [wholeSeconds micros] at later
  have place := Cron.Expression.firesAt_mod_eq once fires fires'
  rw [micros, micros', hour_seconds]
  omega

/-- With more than one minute or second an hour between two dates makes the date after them fall within
the hour that the second one begins: a search that finds it is among those for the next date. -/
theorem again_of_hour_le (read : Cron.read expression = .ok x) (more : x.oncePerHour = false)
    (h : Follows expression t first second) (apart : first.micros + hour ≤ second.micros) :
    ∃ r u, second.micros = r * Calendar.second ∧ u < r + 3600 ∧
      ∃ b ∈ x.branches, ∃ s, Cron.searchAfter b second = .ok s ∧ s ≤ u := by
  have timed := (Cron.read_ok read).timed
  obtain ⟨_, r, _, _, micros⟩ := nextOccurrence_ok read h.1
  obtain ⟨r', found, micros'⟩ := nextOccurrence_utc_ok read h.2
  rw [micros, micros', hour_seconds] at apart
  obtain ⟨-, -, -, passed⟩ := Cron.Expression.nextSeconds_fires timed found
  rw [wholeSeconds micros] at passed
  -- The date before lies in an earlier hour, so the search saw all of this one up to its end.
  obtain ⟨u, hour, later, fires⟩ := timed.fires_again more
    fun u hour before => passed u hour (by omega) before
  exact ⟨r', u, micros', by omega,
    Cron.Expression.nextSeconds_again timed found (wholeSeconds micros') hour later fires⟩

theorem third_lt (read : Cron.read expression = .ok x) (more : x.oncePerHour = false)
    (h : Follows expression t first second) (apart : first.micros + hour ≤ second.micros)
    (occurs : nextOccurrence expression (.utc second) = .ok third) :
    third.micros < second.micros + hour := by
  obtain ⟨r, u, micros, close, b, member, s, again, le⟩ := again_of_hour_le read more h apart
  obtain ⟨r', found, micros'⟩ := nextOccurrence_utc_ok read occurs
  have notAfter := (Cron.Expression.nextSeconds_ok found).2 b member s again
  rw [micros, micros']
  exact Nat.lt_of_not_le fun far => absurd (hour_seconds.1 far) (by omega)

-- With two searches the other one may fail, and then there is no date.
theorem exists_third (read : Cron.read expression = .ok x) (more : x.oncePerHour = false)
    (one : x.eitherDay = false) (h : Follows expression t first second)
    (apart : first.micros + hour ≤ second.micros) :
    ∃ third, nextOccurrence expression (.utc second) = .ok third := by
  obtain ⟨-, -, -, -, b, member, s, again, -⟩ := again_of_hour_le read more h apart
  have single : x.branches = [x] := by
    rw [Cron.Expression.branches, one]
    rfl
  rw [single, List.mem_singleton] at member
  subst member
  have found : b.nextSeconds second = .ok s := by
    rw [Cron.Expression.nextSeconds, one]
    exact again
  have timed := (Cron.read_ok read).timed
  obtain ⟨-, -, inside, -⟩ := Cron.Expression.nextSeconds_fires timed found
  obtain ⟨third, micros⟩ := Cron.exists_instant inside
  exact ⟨third, nextOccurrence_of_nextSeconds read found micros⟩

/-- The dates of an accepted expression. If it fires once in an hour at most, all its consecutive dates
are an hour apart. If not, the two dates that were looked at are, and the next one is less than an hour
after them; it exists unless both day slots are restricted. -/
theorem validateCron_floor (accepted : validateCron expression now = .ok ()) :
    ∃ x start first second, Cron.read expression = .ok x ∧ now.instant? = some start ∧
      start < first ∧ Follows expression now first second ∧
      first.micros + hour ≤ second.micros ∧
      (x.oncePerHour = true → ∀ t a b, Follows expression t a b → a.micros + hour ≤ b.micros) ∧
      (x.oncePerHour = false →
        (∀ third, Follows expression (.utc first) second third →
          third.micros < second.micros + hour) ∧
        (x.eitherDay = false → ∃ third, Follows expression (.utc first) second third)) := by
  obtain ⟨first, second, follows, apart⟩ := validateCron_iff.1 accepted
  obtain ⟨x, read⟩ := read_of_nextOccurrence follows.1
  have timed := (Cron.read_ok read).timed
  obtain ⟨start, r, at', found, micros⟩ := nextOccurrence_ok read follows.1
  obtain ⟨-, later, -⟩ := Cron.Expression.nextSeconds_fires timed found
  have ahead : start < first := by
    show start.micros < first.micros
    rw [micros]
    exact (Nat.div_lt_iff_lt_mul (by decide)).1 later
  refine ⟨x, start, first, second, read, at', ahead, follows, apart, ?_, ?_⟩
  · exact fun once t a b h => hour_le_of_oncePerHour read once h
  · intro more
    refine ⟨fun third h => third_lt read more follows apart h.2, fun one => ?_⟩
    obtain ⟨third, occurs⟩ := exists_third read more one follows apart
    exact ⟨third, follows.2, occurs⟩

def halfHours : Cron.Expression where
  minute := [.value 0, .value 30]
  hour := [.value 9]
  day := [.every]
  month := [.every]
  weekday := [.every]
  second := none
  year := none
  nth := []
  nearest := []

theorem read_halfHours : Cron.read "0,30 9 * * *" = .ok halfHours := by cbv

set_option maxRecDepth 10000 in
theorem follows_halfHours :
    Follows "0,30 9 * * *" (.utc ⟨738885 * day + 9 * hour + 10 * minute, by decide⟩)
      ⟨738885 * day + 9 * hour + 30 * minute, by decide⟩ ⟨738886 * day + 9 * hour, by decide⟩ := by
  constructor
  · exact nextOccurrence_of_nextSeconds (r := 738885 * 86400 + 9 * 3600 + 30 * 60) read_halfHours
      (by cbv) (by decide)
  · exact nextOccurrence_of_nextSeconds (r := 738886 * 86400 + 9 * 3600) read_halfHours
      (by cbv) (by decide)

/-- An accepted expression that fires twice in half an hour. -/
theorem validateCron_floor_halfHours :
    let now : Stamp := .utc ⟨738885 * day + 9 * hour + 10 * minute, by decide⟩
    validateCron "0,30 9 * * *" now = .ok () ∧
      ∃ first second third, Follows "0,30 9 * * *" now first second ∧
        Follows "0,30 9 * * *" (.utc first) second third ∧
        third.micros < second.micros + hour := by
  intro now
  have accepted : validateCron "0,30 9 * * *" now = .ok () :=
    validateCron_iff.2 ⟨_, _, follows_halfHours, by decide⟩
  obtain ⟨x, _, first, second, read, -, -, follows, -, -, more⟩ := validateCron_floor accepted
  rw [read_halfHours, Except.ok.injEq] at read
  subst read
  obtain ⟨close, follow⟩ := more (by decide)
  obtain ⟨third, follows'⟩ := follow (by decide)
  exact ⟨accepted, first, second, third, follows, follows', close third follows'⟩

set_option maxRecDepth 10000 in
/-- The day after it was accepted the expression fires at nine o'clock and at half past nine. -/
theorem accepted_halfHours_same_hour :
    let accepted : Stamp := .utc ⟨738885 * day + 9 * hour + 10 * minute, by decide⟩
    let first : Instant := ⟨738885 * day + 9 * hour + 30 * minute, by decide⟩
    let second : Instant := ⟨738886 * day + 9 * hour, by decide⟩
    let third : Instant := ⟨738886 * day + 9 * hour + 30 * minute, by decide⟩
    validateCron "0,30 9 * * *" accepted = .ok () ∧
      Follows "0,30 9 * * *" (.utc first) second third ∧ third.micros < second.micros + hour := by
  intro accepted first second third
  refine ⟨validateCron_iff.2 ⟨_, _, follows_halfHours, by decide⟩, ⟨follows_halfHours.2, ?_⟩,
    by decide⟩
  exact nextOccurrence_of_nextSeconds (r := 738886 * 86400 + 9 * 3600 + 30 * 60) read_halfHours
    (by cbv) (by decide)

end Schedule

end ChoreReminder
