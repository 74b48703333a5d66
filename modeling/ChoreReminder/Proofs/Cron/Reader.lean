import Mathlib.Tactic.ByContra
import ChoreReminder.Cron.Reader
import ChoreReminder.Proofs.Outcome

/-! What an expression holds once it has been read. Every slot that was given holds an entry at least;
its entries are in order and without repetition, its values are in the range of the slot, and only the
day slot holds the mark for the last day of the month. -/

namespace ChoreReminder.Cron

variable {slot : Slot}

def Slot.InRange (slot : Slot) (n : Nat) : Prop := slot.low ≤ n ∧ n ≤ slot.high

theorem Slot.low_le_high (slot : Slot) : slot.low ≤ slot.high := by
  cases slot <;> decide

structure Slot.Fits (slot : Slot) (es : List Entry) : Prop where
  range : ∀ n, .value n ∈ es → slot.InRange n
  last : .last ∈ es → slot = .day

structure Slot.Holds (slot : Slot) (es : List Entry) : Prop extends slot.Fits es where
  nonempty : es ≠ []
  nodup : es.Nodup
  sorted : es.Pairwise fun a b => a.le b = true

namespace Slot.Fits

variable {es : List Entry}

theorem nil (slot : Slot) : slot.Fits [] := ⟨by simp, by simp⟩

theorem every (h : slot.Fits es) : slot.Fits (.every :: es) :=
  ⟨fun n hn => h.range n (by simpa using hn), fun hl => h.last (by simpa using hl)⟩

theorem value (h : slot.Fits es) {n : Nat} (range : slot.InRange n) :
    slot.Fits (.value n :: es) := by
  refine ⟨fun m hm => ?_, fun hl => h.last (by simpa using hl)⟩
  rcases List.mem_cons.1 hm with same | hm
  · obtain rfl := Entry.value.inj same
    exact range
  · exact h.range m hm

theorem values (h : slot.Fits es) {ns : List Nat} (range : ∀ n ∈ ns, slot.InRange n) :
    slot.Fits (ns.map .value ++ es) := by
  induction ns with
  | nil => exact h
  | cons n rest ih =>
    exact (ih fun m hm => range m (List.mem_cons_of_mem _ hm)).value (range n List.mem_cons_self)

theorem lastDay (h : Slot.day.Fits es) : Slot.day.Fits (.last :: es) :=
  ⟨fun n hn => h.range n (by simpa using hn), fun _ => rfl⟩

end Slot.Fits

/-! ### Bands -/

theorem steps_le {low high step n : Nat} (h : n ∈ steps low high step) : n ≤ high := by
  unfold steps at h
  split at h
  · next le =>
    obtain ⟨k, hk, rfl⟩ := List.mem_map.1 h
    have few : k ≤ (high - low) / step := Nat.lt_succ_iff.1 (List.mem_range.1 hk)
    have far : k * step ≤ high - low :=
      Nat.le_trans (Nat.mul_le_mul_right step few) (Nat.div_mul_le_self _ _)
    omega
  · exact absurd h List.not_mem_nil

theorem steps_ne_nil {low high : Nat} (step : Nat) (le : low ≤ high) : steps low high step ≠ [] := by
  simp [steps, le]

theorem bandValues_le {low high step n : Nat} {fromStep : Bool} (bound : max low high ≤ slot.high)
    (h : n ∈ bandValues slot low high step fromStep) : n ≤ slot.high := by
  unfold bandValues wrappedSteps at h
  split at h
  · split at h
    · rw [List.mem_singleton.1 h]
      omega
    · exact steps_le h
  · split at h
    · rcases List.mem_append.1 h with h | h
      · exact steps_le h
      · exact Nat.le_trans (steps_le h) (by omega)
    · exact Nat.le_trans (steps_le h) (by omega)

theorem bandValues_ne_nil {low high : Nat} (step : Nat) (fromStep : Bool)
    (bound : max low high ≤ slot.high) : bandValues slot low high step fromStep ≠ [] := by
  unfold bandValues wrappedSteps
  split
  · split
    · exact List.cons_ne_nil _ _
    · exact steps_ne_nil step slot.low_le_high
  · split
    · exact List.append_ne_nil_of_left_ne_nil (steps_ne_nil step (by omega)) _
    · exact steps_ne_nil step (by omega)

theorem boundedBand_ok {a b step : Nat} {fromStep : Bool} {values : List Nat}
    (h : (if step = 0 then .error (.step slot)
      else if max (wrapWeekday slot a) (wrapWeekday slot b) > slot.high then .error .band
      else .ok (bandValues slot (wrapWeekday slot a) (wrapWeekday slot b) step fromStep)) =
        (.ok values : Except Fault (List Nat))) :
    values ≠ [] ∧ ∀ n ∈ values, n ≤ slot.high := by
  split at h
  · cases h
  · split at h
    · cases h
    · next bound =>
      have within := Nat.le_of_not_lt bound
      simp only [Except.ok.injEq] at h
      subst h
      exact ⟨bandValues_ne_nil step fromStep within, fun n hn => bandValues_le within hn⟩

theorem readBand_ok {low high : List Char} {step : Nat} {fromStep : Bool} {values : List Nat}
    (h : readBand slot low high step fromStep = .ok values) :
    values ≠ [] ∧ ∀ n ∈ values, n ≤ slot.high := by
  unfold readBand at h
  dsimp only at h
  split at h
  · -- A band from the last day is refused whatever its other bound is.
    obtain ⟨a, -, h⟩ := bind_eq_ok.1 h
    split at h <;> obtain ⟨b, -, h⟩ := bind_eq_ok.1 h <;> split at h <;> cases h
  · obtain ⟨a, -, h⟩ := bind_eq_ok.1 h
    split at h
    · obtain ⟨b, -, h⟩ := bind_eq_ok.1 h
      exact boundedBand_ok h
    · obtain ⟨b, -, h⟩ := bind_eq_ok.1 h
      exact boundedBand_ok h

/-! ### Items -/

/-- What has been read of a field so far: its entries belong in the slot, and no value is remembered
that was not taken. -/
structure Reading.Fits (slot : Slot) (r : Reading) : Prop where
  entries : slot.Fits r.taken
  expanded : ∀ mark ∈ r.expanded, .value mark.1 ∈ r.taken

namespace Reading.Fits

variable {r r' : Reading}

theorem take (fits : r.Fits slot) {e : Entry} (entries : slot.Fits (e :: r.taken))
    (taken : r'.taken = e :: r.taken) (expanded : r'.expanded = r.expanded) :
    r'.Fits slot ∧ r'.taken ≠ [] := by
  refine ⟨⟨taken ▸ entries, fun mark hm => ?_⟩, taken ▸ List.cons_ne_nil _ _⟩
  rw [expanded] at hm
  rw [taken]
  exact List.mem_cons_of_mem _ (fits.expanded mark hm)

theorem takeSingle (fits : r.Fits slot) {cs : List Char} {occ : Occurrence}
    (h : takeSingle slot r cs occ = .ok r') : r'.Fits slot ∧ r'.taken ≠ [] := by
  unfold Cron.takeSingle at h
  split at h
  · cases h
  · split at h
    · simp only [Except.ok.injEq] at h
      subst h
      exact fits.take fits.entries.every rfl rfl
    · split at h
      · next lastDay =>
        obtain ⟨rfl, -⟩ := lastDay
        simp only [Except.ok.injEq] at h
        subst h
        exact fits.take fits.entries.lastDay rfl rfl
      · obtain ⟨n, -, h⟩ := bind_eq_ok.1 h
        dsimp only at h
        by_cases range : wrapWeekday slot n < slot.low ∨ slot.high < wrapWeekday slot n
        · rw [if_pos range] at h
          cases h
        · rw [if_neg range] at h
          simp only [Except.ok.injEq] at h
          subst h
          exact fits.take (fits.entries.value ⟨by omega, by omega⟩) rfl rfl

theorem takeNearest (fits : r.Fits .day) {alone : Bool} {n : Nat}
    (h : takeNearest r alone n = .ok r') : r'.Fits .day ∧ r'.taken ≠ [] := by
  unfold Cron.takeNearest at h
  split at h
  · cases h
  · next range =>
    split at h
    · cases h
    · simp only [Except.ok.injEq] at h
      subst h
      have inRange : Slot.day.InRange n := by
        show 1 ≤ n ∧ n ≤ 31
        omega
      exact fits.take (fits.entries.value inRange) rfl rfl

theorem takeBandValue_taken (occ : Occurrence) (r : Reading) (n : Nat) :
    (takeBandValue occ r n).taken = .value n :: r.taken ∧
      (takeBandValue occ r n).expanded = r.expanded := by
  unfold takeBandValue
  cases occ <;> exact ⟨rfl, rfl⟩

theorem foldl_takeBandValue (occ : Occurrence) (values : List Nat) (r : Reading) :
    (values.foldl (takeBandValue occ) r).taken = (values.reverse.map .value) ++ r.taken ∧
      (values.foldl (takeBandValue occ) r).expanded = r.expanded := by
  induction values generalizing r with
  | nil => exact ⟨rfl, rfl⟩
  | cons n rest ih =>
    obtain ⟨taken, expanded⟩ := takeBandValue_taken occ r n
    obtain ⟨taken', expanded'⟩ := ih (takeBandValue occ r n)
    rw [List.foldl_cons, taken', expanded', taken, expanded]
    simp

theorem takeBand_ok {occ : Occurrence} {values : List Nat} (h : takeBand slot r occ values = .ok r') :
    ∃ fresh : List Nat, r'.taken = fresh.map .value ++ r.taken ∧
      r'.expanded = fresh.map (bandMark occ) ++ r.expanded ∧
      (∀ n ∈ fresh, n ∈ values ∧ slot.low ≤ n) ∧
      ∀ n ∈ values, bandMark occ n ∈ r.expanded ∨ n ∈ fresh := by
  unfold Cron.takeBand at h
  dsimp only at h
  generalize fresh_eq : (values.filter fun n => !r.expanded.contains (bandMark occ n)) = fresh at h
  have member (n : Nat) : n ∈ fresh ↔ n ∈ values ∧ bandMark occ n ∉ r.expanded := by
    rw [← fresh_eq, List.mem_filter]
    simp
  split at h
  · cases h
  · next low =>
    simp only [Except.ok.injEq] at h
    obtain ⟨taken, expanded⟩ := foldl_takeBandValue occ fresh.reverse r
    rw [List.reverse_reverse] at taken
    refine ⟨fresh, by rw [← h, taken], by rw [← h, expanded], fun n hn => ?_, fun n hn => ?_⟩
    · refine ⟨((member n).1 hn).1, Nat.le_of_not_lt fun below => low ?_⟩
      exact List.any_eq_true.2 ⟨n, hn, by simpa using below⟩
    · by_cases seen : bandMark occ n ∈ r.expanded
      · exact .inl seen
      · exact .inr ((member n).2 ⟨hn, seen⟩)

theorem takeBand (fits : r.Fits slot) {occ : Occurrence} {values : List Nat}
    (nonempty : values ≠ []) (bound : ∀ n ∈ values, n ≤ slot.high)
    (h : takeBand slot r occ values = .ok r') : r'.Fits slot ∧ r'.taken ≠ [] := by
  obtain ⟨fresh, taken, expanded, inside, given⟩ := takeBand_ok h
  have inRange : ∀ n ∈ fresh, slot.InRange n := fun n hn => ⟨(inside n hn).2, bound n (inside n hn).1⟩
  refine ⟨⟨taken ▸ fits.entries.values inRange, fun mark hm => ?_⟩, ?_⟩
  · rw [expanded] at hm
    rw [taken]
    rcases List.mem_append.1 hm with hm | hm
    · obtain ⟨n, hn, rfl⟩ := List.mem_map.1 hm
      refine List.mem_append_left _ (List.mem_map.2 ⟨n, hn, ?_⟩)
      cases occ <;> rfl
    · exact List.mem_append_right _ (fits.expanded mark hm)
  · -- A band whose values were all given before leaves the entries that gave them.
    obtain ⟨n, rest, rfl⟩ := List.exists_cons_of_ne_nil nonempty
    rw [taken]
    rcases given n List.mem_cons_self with seen | member
    · exact List.append_ne_nil_of_right_ne_nil _ (List.ne_nil_of_mem (fits.expanded _ seen))
    · exact List.append_ne_nil_of_left_ne_nil (List.ne_nil_of_mem (List.mem_map_of_mem member)) _

theorem takeForm (fits : r.Fits slot) {occ : Occurrence} {form : Form}
    (h : (match form with
      | .band low high step fromStep => do
        let values ← readBand slot low high step fromStep
        Cron.takeBand slot r occ values
      | .single t => Cron.takeSingle slot r t occ) = .ok r') : r'.Fits slot ∧ r'.taken ≠ [] := by
  cases form with
  | band low high step fromStep =>
    obtain ⟨values, read, h⟩ := bind_eq_ok.1 h
    obtain ⟨nonempty, bound⟩ := readBand_ok read
    exact fits.takeBand nonempty bound h
  | single t => exact fits.takeSingle h

theorem takeItem (fits : r.Fits slot) {alone : Bool} {cs : List Char}
    (h : takeItem slot r alone cs = .ok r') : r'.Fits slot ∧ r'.taken ≠ [] := by
  unfold Cron.takeItem at h
  by_cases weekday : slot = .weekday
  · subst weekday
    rw [if_pos rfl] at h
    obtain ⟨⟨e, occ⟩, -, h⟩ := bind_eq_ok.1 h
    exact fits.takeForm h
  · rw [if_neg weekday] at h
    obtain ⟨⟨e, occ⟩, -, h⟩ := bind_eq_ok.1 h
    by_cases day : slot = .day
    · subst day
      dsimp only at h
      split at h
      · exact fits.takeNearest h
      · exact fits.takeForm h
    · dsimp only at h
      rw [if_neg day] at h
      exact fits.takeForm h

theorem takeItems (fits : r.Fits slot) {items : List (List Char)}
    (h : takeItems slot r items = .ok r') : r'.Fits slot ∧ (items ≠ [] → r'.taken ≠ []) := by
  induction items generalizing r with
  | nil =>
    simp only [Cron.takeItems, Except.ok.injEq] at h
    subst h
    exact ⟨fits, fun h => absurd rfl h⟩
  | cons e rest ih =>
    obtain ⟨r₁, first, h⟩ := bind_eq_ok.1 h
    obtain ⟨fits₁, some'⟩ := fits.takeItem first
    obtain ⟨fits', more⟩ := ih fits₁ h
    refine ⟨fits', fun _ => ?_⟩
    cases rest with
    | nil =>
      simp only [Cron.takeItems, Except.ok.injEq] at h
      exact h ▸ some'
    | cons _ _ => exact more (List.cons_ne_nil _ _)

end Reading.Fits

/-! ### Fields -/

theorem eraseDups_nodup (es : List Entry) : es.eraseDups.Nodup := by
  induction h : es.length using Nat.strongRecOn generalizing es with
  | ind n ih =>
    cases es with
    | nil => exact List.nodup_nil
    | cons e rest =>
      rw [List.eraseDups_cons, List.nodup_cons, List.mem_eraseDups]
      have shorter : (rest.filter fun b => !b == e).length < n := by
        rw [← h, List.length_cons]
        exact Nat.lt_succ_of_le (List.length_filter_le _ _)
      exact ⟨by simp, ih _ shorter _ rfl⟩

theorem Entry.le_total (a b : Entry) : (a.le b || b.le a) = true := by
  cases a <;> cases b <;> simp [Entry.le, Nat.le_total]

theorem Entry.le_trans (a b c : Entry) (ab : a.le b = true) (bc : b.le c = true) :
    a.le c = true := by
  cases a <;> cases b <;> cases c <;> simp_all [Entry.le]
  omega

theorem mem_sortEntries {e : Entry} {es : List Entry} : e ∈ sortEntries es ↔ e ∈ es := by
  rw [sortEntries, List.mem_mergeSort, List.mem_eraseDups]

theorem Slot.Fits.sortEntries {es : List Entry} (fits : slot.Fits es) (nonempty : es ≠ []) :
    slot.Holds (sortEntries es) where
  range n hn := fits.range n (mem_sortEntries.1 hn)
  last hl := fits.last (mem_sortEntries.1 hl)
  nonempty := by
    obtain ⟨e, rest, rfl⟩ := List.exists_cons_of_ne_nil nonempty
    exact List.ne_nil_of_mem (mem_sortEntries.2 List.mem_cons_self)
  nodup := (List.mergeSort_perm _ _).nodup_iff.2 (eraseDups_nodup es)
  sorted := List.pairwise_mergeSort Entry.le_trans Entry.le_total _

theorem Slot.Holds.singleton {e : Entry} (fits : slot.Fits [e]) : slot.Holds [e] :=
  ⟨fits, List.cons_ne_nil _ _, List.pairwise_singleton _ _, List.pairwise_singleton _ _⟩

theorem Slot.Holds.collapse {es : List Entry} (holds : slot.Holds es) (otherDay : List Char) :
    slot.Holds (collapse slot otherDay es) := by
  unfold Cron.collapse
  dsimp only
  split
  · exact .singleton (Slot.Fits.nil slot).every
  · exact holds

theorem wrapWeekday_le (slot : Slot) (n : Nat) : wrapWeekday slot n ≤ n := by
  unfold wrapWeekday
  split <;> omega

/-- The least value that a draw may give is in range, although its bounds are compared once the last
weekday number has been replaced by the first. -/
theorem Draw.resolve_ok {d : Draw} {field : List Char} {n : Nat}
    (h : d.resolve slot field = .ok n) : slot.InRange n := by
  unfold Draw.resolve at h
  dsimp only at h
  split at h
  · cases h
  · split at h
    · next low high _ =>
      split at h
      · cases h
      · next order =>
        split at h
        · cases h
        · next inside =>
          split at h
          · cases h
          · simp only [Except.ok.injEq] at h
            subst h
            simp only [Bool.or_eq_true, decide_eq_true_eq, not_or, Nat.not_lt] at inside
            obtain ⟨⟨above, below⟩, above', below'⟩ := inside
            refine ⟨Nat.le_trans above (wrapWeekday_le slot low), ?_⟩
            by_cases seven : high = 7 ∧ slot = .weekday
            · obtain ⟨rfl, rfl⟩ := seven
              show low ≤ 6
              omega
            · have same : wrapWeekday slot high = high := if_neg fun h => seven h.symm
              omega
    · split at h
      · cases h
      · simp only [Except.ok.injEq] at h
        subst h
        exact ⟨Nat.le_refl _, slot.low_le_high⟩

theorem splitBy_ne_nil (p : Char → Bool) (cs : List Char) : Text.splitBy p cs ≠ [] := by
  cases cs with
  | nil => exact List.cons_ne_nil _ _
  | cons c rest =>
    unfold Text.splitBy
    split
    · exact List.cons_ne_nil _ _
    · split <;> exact List.cons_ne_nil _ _

theorem readField_ok {otherDay field : List Char} {r r' : Reading} {es : List Entry}
    (h : readField slot otherDay field r = .ok (es, r')) : slot.Holds es := by
  unfold readField at h
  split at h
  · obtain ⟨n, drawn, h⟩ := bind_eq_ok.1 h
    simp only [Except.ok.injEq, Prod.mk.injEq] at h
    obtain ⟨rfl, -⟩ := h
    exact .singleton ((Slot.Fits.nil slot).value (Draw.resolve_ok drawn))
  · obtain ⟨field', -, h⟩ := bind_eq_ok.1 h
    obtain ⟨r₁, taken, h⟩ := bind_eq_ok.1 h
    simp only [Except.ok.injEq, Prod.mk.injEq] at h
    obtain ⟨rfl, -⟩ := h
    have empty : Reading.Fits slot { nth := r.nth, nearest := r.nearest } :=
      ⟨.nil slot, fun mark hm => absurd hm List.not_mem_nil⟩
    have items : (Text.splitBy (· == ',') field').reverse ≠ [] :=
      mt List.reverse_eq_nil_iff.1 (splitBy_ne_nil _ _)
    obtain ⟨fits, some'⟩ := empty.takeItems taken
    exact (fits.entries.sortEntries (some' items)).collapse otherDay

theorem readFields_ok {raw : List (List Char)} {fields : List (Slot × List Char)} {r r' : Reading}
    {slots : List (List Entry)} (h : readFields raw r fields = .ok (slots, r')) {i : Nat}
    {es : List Entry} (found : slots[i]? = some es) :
    ∃ field, fields[i]? = some field ∧ field.1.Holds es := by
  induction fields generalizing r r' slots i with
  | nil =>
    simp only [readFields, Except.ok.injEq, Prod.mk.injEq] at h
    rw [← h.1] at found
    simp at found
  | cons field rest ih =>
    obtain ⟨⟨first, r₁⟩, head, h⟩ := bind_eq_ok.1 h
    obtain ⟨⟨more, r₂⟩, others, h⟩ := bind_eq_ok.1 h
    simp only [Except.ok.injEq, Prod.mk.injEq] at h
    rw [← h.1] at found
    cases i with
    | zero =>
      rw [List.getElem?_cons_zero, Option.some.injEq] at found
      exact ⟨field, rfl, found ▸ readField_ok head⟩
    | succ i => exact ih others found

structure Expression.WellRead (x : Expression) : Prop where
  minute : Slot.minute.Holds x.minute
  hour : Slot.hour.Holds x.hour
  day : Slot.day.Holds x.day
  month : Slot.month.Holds x.month
  weekday : Slot.weekday.Holds x.weekday
  second : ∀ es, x.second = some es → Slot.second.Holds es
  year : ∀ es, x.year = some es → Slot.year.Holds es

theorem checkWeekdays_ok {x y : Expression} (h : checkWeekdays x = .ok y) : x = y := by
  unfold checkWeekdays at h
  dsimp only at h
  split at h
  · cases h
  · exact Except.ok.inj h

theorem read_ok {expression : String} {x : Expression} (h : read expression = .ok x) :
    x.WellRead := by
  unfold read at h
  dsimp only at h
  split at h
  · cases h
  · obtain ⟨⟨slots, r⟩, taken, h⟩ := bind_eq_ok.1 h
    have holds {i : Nat} {slot : Slot} {es : List Entry} (position : Slot.all[i]? = some slot)
        (found : slots[i]? = some es) : slot.Holds es := by
      obtain ⟨field, member, holds⟩ := readFields_ok taken found
      have same := (List.getElem?_zip_eq_some.1 member).1
      rw [position, Option.some.injEq] at same
      exact same ▸ holds
    dsimp only at h
    split at h
    · obtain rfl := checkWeekdays_ok h
      exact ⟨holds (i := 0) rfl rfl, holds (i := 1) rfl rfl, holds (i := 2) rfl rfl,
        holds (i := 3) rfl rfl, holds (i := 4) rfl rfl, fun _ found => holds (i := 5) rfl found,
        fun _ found => holds (i := 6) rfl found⟩
    · cases h

end ChoreReminder.Cron
