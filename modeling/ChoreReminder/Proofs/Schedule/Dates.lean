import Mathlib
import ChoreReminder.Proofs.Cron.Fields
import ChoreReminder.Proofs.Cron.Reach
import ChoreReminder.Proofs.Schedule.Occurrence

/-! The dates of an expression, one after the other. The next date is the first occurrence after a time, and it stays
so up to the occurrence itself; so the dates that follow each other are all the occurrences, in order, for as
long as a next date is given. One is given wherever the years of the search hold an occurrence. -/

namespace ChoreReminder

open Calendar

namespace Cron.Expression

variable {x b : Expression} {start i o : Instant} {r : Nat}

structure Sound (x : Expression) : Prop where
  wellRead : x.WellRead
  ruled : Ruled x.nth x.nearest

theorem sound_of_read {expression : String} (given : read expression = .ok x) : x.Sound :=
  ⟨read_ok given, read_ruled given⟩

theorem lt_iff_seconds (micros : o.micros = r * Calendar.second) : i < o ↔ i.micros / Calendar.second < r := by
  show i.micros < o.micros ↔ _
  rw [micros]
  exact (Nat.div_lt_iff_lt_mul (by decide)).symm

theorem Sound.next_least (sound : x.Sound) (found : x.nextSeconds start = .ok r)
    (micros : o.micros = r * Calendar.second) :
    start < o ∧ x.OccursAt o ∧ ∀ i, start < i → i < o → ¬ x.OccursAt i := by
  obtain ⟨falls, later, least⟩ := sound.wellRead.nextSeconds_least found
  refine ⟨(lt_iff_seconds micros).2 later, (sound.wellRead.occursAt_iff sound.ruled).2 ⟨r, micros, falls⟩, ?_⟩
  intro i from' before occurs
  obtain ⟨t, micros', falls'⟩ := (sound.wellRead.occursAt_iff sound.ruled).1 occurs
  rw [lt_iff_seconds micros'] at from'
  rw [lt_iff_seconds micros, micros', Nat.mul_div_cancel t (by decide)] at before
  exact least t from' before falls'

theorem branches_branch (member : b ∈ x.branches) : b.branches = [b] := by
  have one {e : Expression} (free : e.eitherDay = false) : e.branches = [e] := by
    rw [branches, free]
    rfl
  by_cases either : x.eitherDay = true
  · rw [branches, if_pos either] at member
    simp only [List.mem_cons, List.not_mem_nil, or_false] at member
    rcases member with rfl | rfl
    · exact one (by simp [eitherDay])
    · exact one (by simp [eitherDay])
  · rw [branches, if_neg either, List.mem_singleton] at member
    exact member ▸ one (Bool.eq_false_iff.2 either)

def Meets (b : Expression) (start : Instant) : Prop :=
  ∃ i, start < i ∧ b.OccursAt i ∧ i.date.year ≤ b.firstYear start + horizon

theorem Sound.branch (sound : x.Sound) (member : b ∈ x.branches) : b.Sound := by
  obtain ⟨-, -, -, nth, nearest⟩ := branches_same member
  exact ⟨sound.wellRead.branch member, nth ▸ nearest ▸ sound.ruled⟩

theorem Sound.meets_iff (sound : x.Sound) (member : b ∈ x.branches) :
    b.Meets start ↔ ∃ t, b.Within start t := by
  have sound' := sound.branch member
  have self := branches_branch member
  constructor
  · rintro ⟨i, later, occurs, near⟩
    obtain ⟨t, micros, b', member', fits⟩ := (sound'.wellRead.occursAt_iff sound'.ruled).1 occurs
    rw [self, List.mem_singleton] at member'
    subst member'
    refine ⟨t, (lt_iff_seconds micros).1 later, ?_, fits, (i.parts_of_seconds micros).1 ▸ near⟩
    have inRange := i.inRange
    rw [micros, ← secondLimit_micros] at inRange
    exact Nat.lt_of_mul_lt_mul_right inRange
  · rintro ⟨t, later, inside, fits, near⟩
    obtain ⟨i, micros⟩ := exists_instant inside
    have occurs : b.OccursAt i := (sound'.wellRead.occursAt_iff sound'.ruled).2
      ⟨t, micros, b, self ▸ List.mem_singleton_self b, fits⟩
    exact ⟨i, (lt_iff_seconds micros).2 later, occurs, (i.parts_of_seconds micros).1 ▸ near⟩

theorem Sound.exists_next (sound : x.Sound) (meets : (∀ b ∈ x.branches, b.Meets start) ∨
    x.Plain ∧ x.firstYear start + horizon < maxYear ∧ ∃ b ∈ x.branches, b.Meets start) :
    ∃ r, x.nextSeconds start = .ok r := by
  refine nextSeconds_finds sound.wellRead (meets.imp ?_ ?_)
  · exact fun each b member => (sound.meets_iff member).1 (each b member)
  · rintro ⟨plain, early, b, member, meets⟩
    exact ⟨plain, early, b, member, (sound.meets_iff member).1 meets⟩

theorem Sound.meets_of_next (sound : x.Sound) (found : x.nextSeconds start = .ok r) :
    (∃ b ∈ x.branches, b.Meets start) ∧
      (¬ (x.eitherDay = true ∧ x.Plain) → ∀ b ∈ x.branches, b.Meets start) := by
  have meets {b : Expression} {s : Nat} (member : b ∈ x.branches) (found : searchAfter b start = .ok s) :
      b.Meets start :=
    (sound.meets_iff member).2 ⟨s, searchAfter_within (sound.wellRead.branch member) found⟩
  constructor
  · obtain ⟨⟨b, member, found⟩, -⟩ := nextSeconds_ok found
    exact ⟨b, member, meets member found⟩
  · intro strict b member
    obtain ⟨s, found, -⟩ := nextSeconds_strict found strict b member
    exact meets member found

end Cron.Expression

namespace Schedule

variable {expression : String} {x : Cron.Expression} {after : Stamp} {start i o : Instant}

def dates (expression : String) : Nat → Stamp → List Instant
  | 0, _ => []
  | n + 1, t =>
    match nextOccurrence expression t with
    | .ok o => o :: dates expression n (.utc o)
    | .error _ => []

theorem nextOccurrence_iff (read : Cron.read expression = .ok x) (meant : after.instant? = some start) :
    nextOccurrence expression after = .ok o ↔
      ∃ r, x.nextSeconds start = .ok r ∧ o.micros = r * Calendar.second := by
  rw [nextOccurrence_congr (meant.trans (Stamp.instant?_utc start).symm)]
  exact ⟨nextOccurrence_utc_ok read, fun ⟨r, found, micros⟩ => nextOccurrence_of_nextSeconds read found micros⟩

/-- The instants are the occurrences after an instant up to the last one of them, each once and in order. -/
structure Enumerates (x : Cron.Expression) (start : Instant) (ds : List Instant) : Prop where
  increasing : ds.Pairwise (· < ·)
  occurs : ∀ d ∈ ds, start < d ∧ x.OccursAt d
  complete : ∀ d ∈ ds, ∀ i, start < i → i ≤ d → x.OccursAt i → i ∈ ds

theorem Enumerates.cons {ds : List Instant}
    (first : start < o ∧ x.OccursAt o ∧ ∀ i, start < i → i < o → ¬ x.OccursAt i)
    (rest : Enumerates x o ds) : Enumerates x start (o :: ds) := by
  obtain ⟨later, occurs, least⟩ := first
  refine ⟨List.pairwise_cons.2 ⟨fun d hd => (rest.occurs d hd).1, rest.increasing⟩, ?_, ?_⟩
  · refine List.forall_mem_cons.2 ⟨⟨later, occurs⟩, fun d hd => ?_⟩
    exact ⟨Nat.lt_trans later (rest.occurs d hd).1, (rest.occurs d hd).2⟩
  · intro d hd i from' le occurs'
    rcases Nat.lt_trichotomy i.micros o.micros with before | same | behind
    · exact absurd occurs' (least i from' before)
    · exact List.mem_cons.2 (.inl (Instant.eq_iff.2 same))
    · rcases List.mem_cons.1 hd with rfl | hd
      · exact absurd le (Nat.not_le.2 behind)
      · exact List.mem_cons_of_mem _ (rest.complete d hd i behind le occurs')

theorem dates_enumerates (read : Cron.read expression = .ok x) (meant : after.instant? = some start) (n : Nat) :
    Enumerates x start (dates expression n after) := by
  induction n generalizing after start with
  | zero => exact ⟨List.Pairwise.nil, nofun, nofun⟩
  | succ n ih =>
    rw [dates]
    cases found : nextOccurrence expression after with
    | error f => exact ⟨List.Pairwise.nil, nofun, nofun⟩
    | ok o =>
      obtain ⟨r, seconds, micros⟩ := (nextOccurrence_iff read meant).1 found
      have least := (Cron.Expression.sound_of_read read).next_least seconds micros
      exact (ih (Stamp.instant?_utc o)).cons least

theorem length_le_micros {ds : List Instant} (increasing : ds.Pairwise (· < ·)) (before : ∀ d ∈ ds, d < i) :
    ds.length ≤ i.micros := by
  have nodup : (ds.map Instant.micros).Nodup :=
    List.pairwise_map.2 (increasing.imp fun less => Nat.ne_of_lt less)
  have below : ds.map Instant.micros ⊆ List.range i.micros := by
    intro m hm
    obtain ⟨d, hd, rfl⟩ := List.mem_map.1 hm
    exact List.mem_range.2 (before d hd)
  simpa using (List.subperm_of_subset nodup below).length_le

theorem dates_reach (read : Cron.read expression = .ok x) (meant : after.instant? = some start) (later : start < i)
    (occurs : x.OccursAt i) : ∃ n, i ∈ dates expression n after ∨
      (dates expression n after).length < n ∧ ∀ d ∈ dates expression n after, d < i := by
  -- The dates before the occurrence increase, so there are no more of them than microseconds.
  refine ⟨i.micros + 1, or_iff_not_imp_left.2 fun missing => ?_⟩
  have enumerates := dates_enumerates read meant (i.micros + 1)
  have before : ∀ d ∈ dates expression (i.micros + 1) after, d < i := fun d hd =>
    Nat.not_le.1 fun le => missing (enumerates.complete d hd i later le occurs)
  exact ⟨Nat.lt_succ_of_le (length_le_micros enumerates.increasing before), before⟩

theorem exists_nextOccurrence_iff (read : Cron.read expression = .ok x) (meant : after.instant? = some start) :
    (∃ o, nextOccurrence expression after = .ok o) ↔ ∃ r, x.nextSeconds start = .ok r := by
  constructor
  · rintro ⟨o, found⟩
    obtain ⟨r, seconds, -⟩ := (nextOccurrence_iff read meant).1 found
    exact ⟨r, seconds⟩
  · rintro ⟨r, seconds⟩
    obtain ⟨-, -, inside, -⟩ := Cron.Expression.nextSeconds_fires (Cron.read_ok read).timed seconds
    obtain ⟨o, micros⟩ := Cron.exists_instant inside
    exact ⟨o, (nextOccurrence_iff read meant).2 ⟨r, seconds, micros⟩⟩

/-- The next date of an expression is its first occurrence after the time. From any time up to it no other one is
given, and it is given again unless both day slots hold plain restrictions and the search reaches the last year. A
later time has no earlier next date. The dates one after the other are the occurrences in order, none left out and
none twice, for as long as a next date is given; and one is given where the years of the search hold an
occurrence. -/
theorem nextOccurrence_enumerates (found : nextOccurrence expression after = .ok o) :
    ∃ x start, Cron.read expression = .ok x ∧ after.instant? = some start ∧
      (start < o ∧ x.OccursAt o ∧ ∀ i, start < i → i < o → ¬ x.OccursAt i) ∧
      (∀ (c : Stamp) (m : Instant), c.instant? = some m → start ≤ m → m < o →
        (∀ o', nextOccurrence expression c = .ok o' → o' = o) ∧
        (¬ (x.eitherDay = true ∧ x.Plain) ∨ x.firstYear m < 9949 → nextOccurrence expression c = .ok o)) ∧
      (∀ (c c' : Stamp) (m m' p p' : Instant), c.instant? = some m → c'.instant? = some m' → m ≤ m' →
        nextOccurrence expression c = .ok p → nextOccurrence expression c' = .ok p' → p ≤ p') ∧
      (∀ n, Enumerates x start (dates expression n after)) ∧
      (∀ i, start < i → x.OccursAt i → ∃ n, i ∈ dates expression n after ∨
        (dates expression n after).length < n ∧ ∀ d ∈ dates expression n after, d < i) ∧
      ∀ (c : Stamp) (m : Instant), c.instant? = some m →
        ((∀ b ∈ x.branches, b.Meets m) → ∃ p, nextOccurrence expression c = .ok p) ∧
        (¬ (x.eitherDay = true ∧ x.Plain) →
          (∃ p, nextOccurrence expression c = .ok p) → ∀ b ∈ x.branches, b.Meets m) ∧
        (x.Plain → x.firstYear m < 9949 →
          ((∃ p, nextOccurrence expression c = .ok p) ↔ ∃ b ∈ x.branches, b.Meets m)) := by
  obtain ⟨x, read⟩ := read_of_nextOccurrence found
  obtain ⟨start, r, meant, seconds, micros⟩ := nextOccurrence_ok read found
  have sound := Cron.Expression.sound_of_read read
  have early (m : Instant) : x.firstYear m < 9949 ↔ x.firstYear m + Cron.horizon < maxYear := by
    unfold Cron.horizon maxYear
    omega
  refine ⟨x, start, read, meant, sound.next_least seconds micros, ?_, ?_, dates_enumerates read meant,
    fun i later occurs => dates_reach read meant later occurs, ?_⟩
  · intro c m meant' from' before
    obtain ⟨same, again⟩ := sound.wellRead.nextSeconds_same seconds from'
      ((Cron.Expression.lt_iff_seconds micros).1 before)
    refine ⟨fun o' found' => ?_, fun safe => ?_⟩
    · obtain ⟨r', seconds', micros'⟩ := (nextOccurrence_iff read meant').1 found'
      rw [Instant.eq_iff, micros', micros, same r' seconds']
    · refine (nextOccurrence_iff read meant').2 ⟨r, again ?_, micros⟩
      exact safe.imp_right (early m).1
  · intro c c' m m' p p' meant₁ meant₂ le found₁ found₂
    obtain ⟨s, seconds₁, micros₁⟩ := (nextOccurrence_iff read meant₁).1 found₁
    obtain ⟨s', seconds₂, micros₂⟩ := (nextOccurrence_iff read meant₂).1 found₂
    show p.micros ≤ p'.micros
    rw [micros₁, micros₂]
    exact Nat.mul_le_mul_right _ (sound.wellRead.nextSeconds_mono le seconds₁ seconds₂)
  · intro c m meant'
    rw [exists_nextOccurrence_iff read meant']
    refine ⟨fun each => sound.exists_next (.inl each), ?_, ?_⟩
    · rintro strict ⟨s, seconds⟩
      exact (sound.meets_of_next seconds).2 strict
    · intro plain before
      refine ⟨fun ⟨s, seconds⟩ => (sound.meets_of_next seconds).1, fun one => ?_⟩
      exact sound.exists_next (.inr ⟨plain, (early m).1 before, one⟩)

def leapDays : Cron.Expression where
  minute := [.value 30]
  hour := [.value 9]
  day := [.value 29]
  month := [.value 2]
  weekday := [.every]
  second := none
  year := none
  nth := []
  nearest := []

theorem read_leapDays : Cron.read "30 9 29 2 *" = .ok leapDays := by cbv

set_option maxRecDepth 10000 in
/-- Half a second after an occurrence, by a clock two hours ahead, the next one is four years off. -/
theorem nextOccurrence_enumerates_leapDays :
    let start : Instant := ⟨738944 * day + 9 * hour + 30 * minute + 500000, by decide⟩
    let after : Stamp := ⟨⟨start.micros + 2 * hour, by decide⟩, some ((2 * hour : Nat) : Int)⟩
    let due : Instant := ⟨740405 * day + 9 * hour + 30 * minute, by decide⟩
    nextOccurrence "30 9 29 2 *" after = .ok due ∧ start < due ∧ leapDays.OccursAt due ∧
      (∀ i, start < i → i < due → ¬ leapDays.OccursAt i) ∧
      nextOccurrence "30 9 29 2 *" (.utc start) = .ok due ∧
      ∀ n, Enumerates leapDays start (dates "30 9 29 2 *" n after) := by
  intro start after due
  have meant : after.instant? = some start := by decide
  have found : nextOccurrence "30 9 29 2 *" after = .ok due :=
    (nextOccurrence_iff read_leapDays meant).2 ⟨740405 * 86400 + 9 * 3600 + 30 * 60, by cbv, by decide⟩
  obtain ⟨x, start', read, meant', ⟨later, occurs, least⟩, same, -, enumerates, -⟩ :=
    nextOccurrence_enumerates found
  obtain rfl := Except.ok.inj (read.symm.trans read_leapDays)
  obtain rfl := Option.some.inj (meant'.symm.trans meant)
  refine ⟨found, later, occurs, least, ?_, enumerates⟩
  refine (same (.utc start) start (Stamp.instant?_utc start) (Nat.le_refl _) later).2 (.inl ?_)
  exact fun either => absurd either.1 (by decide)

def newYears : Cron.Expression where
  minute := [.value 0]
  hour := [.value 0]
  day := [.value 1]
  month := [.value 1]
  weekday := [.every]
  second := some [.value 0]
  year := some [.value 1980, .value 2090]
  nth := []
  nearest := []

theorem read_newYears : Cron.read "0 0 1 1 * 0 1980,2090" = .ok newYears := by cbv

/-- Mondays of February, or a day that no February has. -/
def mondays : Cron.Expression where
  minute := [.value 0]
  hour := [.value 0]
  day := [.value 30]
  month := [.value 2]
  weekday := [.value 1]
  second := none
  year := none
  nth := []
  nearest := []

theorem read_mondays : Cron.read "0 0 30 2 1" = .ok mondays := by cbv

theorem branches_mondays :
    mondays.branches = [{ mondays with weekday := [.every] }, { mondays with day := [.every] }] := rfl

theorem not_fitsAt_mondays (t : Nat) : ¬ ({ mondays with weekday := [.every] } : Cron.Expression).FitsAt t := by
  have member : ({ mondays with weekday := [.every] } : Cron.Expression) ∈ mondays.branches := List.mem_cons_self
  have sound := (Cron.Expression.sound_of_read read_mondays).branch member
  intro fits
  obtain ⟨-, month, date, -⟩ := (sound.wellRead.fitsAt_iff sound.ruled t).1 fits
  have february : (Cron.Moment.ofSeconds t).date.month = 2 := by
    simpa [Cron.Admits, Cron.isEvery, mondays] using month
  have thirtieth : (Cron.Moment.ofSeconds t).date.day = 30 := by
    simpa [Cron.Expression.AdmitsDay, Cron.Admits, Cron.isEvery, mondays] using date
  have last := (Cron.Moment.real_ofSeconds t).last
  rw [thirtieth, Cron.Moment.monthLength, february] at last
  unfold daysInMonth at last
  cases leap : isLeap (Cron.Moment.ofSeconds t).date.year <;> simp [leap, daysBeforeMonth] at last

theorem searchAfter_mondays (after : Instant) (r : Nat) :
    Cron.searchAfter { mondays with weekday := [.every] } after ≠ .ok r := by
  have member : ({ mondays with weekday := [.every] } : Cron.Expression) ∈ mondays.branches := List.mem_cons_self
  intro found
  have within := Cron.searchAfter_within ((Cron.read_ok read_mondays).branch member) found
  exact not_fitsAt_mondays r within.fits

theorem nextSeconds_mondays {after : Instant} {r : Nat}
    (gives : Cron.searchAfter { mondays with weekday := [.every] } after = .error (.fault .noDate))
    (monday : Cron.searchAfter { mondays with day := [.every] } after = .ok r) :
    mondays.nextSeconds after = .ok r := by
  rw [Cron.Expression.nextSeconds, if_pos (show mondays.eitherDay = true from rfl), gives, monday]
  rfl

set_option maxRecDepth 10000 in
/-- The dates end before an occurrence that lies more than fifty years on. And of two searches the one that finds no
date may leave the calendar at its end, so that up to a next date there is a time after which none is given. -/
theorem dates_break_off :
    let newYear (n : Nat) (fits : n * day < Calendar.limit := by decide) : Instant := ⟨n * day, fits⟩
    ((∀ n, dates "0 0 1 1 * 0 1980,2090" (n + 1) (.utc (newYear 722600)) = [newYear 722814]) ∧
      newYear 722814 < newYear 762992 ∧ newYears.OccursAt (newYear 762992)) ∧
    nextOccurrence "0 0 30 2 1" (.utc (newYear 3633431)) = .ok (newYear 3633469) ∧
      newYear 3633431 ≤ newYear 3633446 ∧ newYear 3633446 < newYear 3633469 ∧
      ∀ o, nextOccurrence "0 0 30 2 1" (.utc (newYear 3633446)) ≠ .ok o := by
  intro newYear
  refine ⟨⟨fun n => ?_, by decide, ?_⟩, ?_, by decide, by decide, fun o found => ?_⟩
  · have first : nextOccurrence "0 0 1 1 * 0 1980,2090" (.utc (newYear 722600)) = .ok (newYear 722814) :=
      nextOccurrence_of_nextSeconds (r := 722814 * 86400) read_newYears (by cbv) (by decide)
    have last : ∀ n, dates "0 0 1 1 * 0 1980,2090" n (.utc (newYear 722814)) = [] := by
      intro n
      cases n with
      | zero => rfl
      | succ n =>
        have none' : newYears.nextSeconds (newYear 722814) = .error (.fault .noDate) := by cbv
        rw [dates]
        split
        · next o found =>
          obtain ⟨r, found, -⟩ := nextOccurrence_utc_ok read_newYears found
          cases none'.symm.trans found
        · rfl
    rw [dates, first]
    exact congrArg _ (last n)
  · have occurs : newYears.nextSeconds (newYear 762778) = .ok (762992 * 86400) := by cbv
    exact ((Cron.Expression.sound_of_read read_newYears).next_least occurs (by decide)).2.1
  · have gives : Cron.searchAfter { mondays with weekday := [.every] } (newYear 3633431) =
        .error (.fault .noDate) := by
      have wellRead := (Cron.read_ok read_mondays).branch (branches_mondays ▸ List.mem_cons_self)
      refine (Cron.searchAfter_gives_up wellRead rfl rfl (by decide)).resolve_left ?_
      rintro ⟨r, found⟩
      exact searchAfter_mondays _ r found
    have monday : Cron.searchAfter { mondays with day := [.every] } (newYear 3633431) = .ok (3633469 * 86400) := by
      cbv
    exact nextOccurrence_of_nextSeconds read_mondays (nextSeconds_mondays gives monday) (by decide)
  · -- The search for the thirtieth finds nothing and is still under way when the calendar ends.
    obtain ⟨r, found, -⟩ := nextOccurrence_utc_ok read_mondays found
    have member : ({ mondays with weekday := [.every] } : Cron.Expression) ∈ mondays.branches := List.mem_cons_self
    rcases Cron.Expression.nextSeconds_searched found member with ⟨s, given, -⟩ | noDate
    · exact searchAfter_mondays _ s given
    · exact Cron.searchAfter_ne_noDate rfl (by decide) noDate

end Schedule

end ChoreReminder
