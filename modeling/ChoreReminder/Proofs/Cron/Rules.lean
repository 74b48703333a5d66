import ChoreReminder.Proofs.Cron.Reader

/-! The two rules beside the slots once an expression has been read. A rule of occurrences names weekdays of the week
and counts from the first one, and a rule of working days names days that a month may have. Both are carried
from item to item and from field to field, and only the fields of the weekday and of the day add to them. -/

namespace ChoreReminder.Cron

structure Ruled (nth : List (Nat × List Nth)) (nearest : List Nat) : Prop where
  weekday : ∀ p ∈ nth, p.1 ≤ 6
  count : ∀ p ∈ nth, ∀ k, .nth k ∈ p.2 → 1 ≤ k
  nearest : ∀ n ∈ nearest, 1 ≤ n

def Occurrence.Suits (slot : Slot) : Occurrence → Prop
  | none => True
  | nth k => slot = .weekday ∧ 1 ≤ k
  | last => slot = .weekday

variable {slot : Slot} {nth : List (Nat × List Nth)} {nearest : List Nat} {occ : Occurrence}

namespace Ruled

theorem nil : Ruled [] [] := ⟨by simp, by simp, by simp⟩

theorem addNth {w : Nat} {n : Nth} (ruled : Ruled nth nearest) (low : w ≤ 6) (counts : ∀ k, n = .nth k → 1 ≤ k) :
    Ruled (addNth w n nth) nearest := by
  induction nth with
  | nil =>
    refine ⟨by simpa [Cron.addNth] using low, fun p hp k hk => ?_, ruled.nearest⟩
    rw [List.mem_singleton.1 hp] at hk
    exact counts k (List.mem_singleton.1 hk).symm
  | cons q rest ih =>
    obtain ⟨v, ns⟩ := q
    obtain ⟨first, weekday⟩ := List.forall_mem_cons.1 ruled.weekday
    obtain ⟨here, count⟩ := List.forall_mem_cons.1 ruled.count
    unfold Cron.addNth
    by_cases same : v = w
    · rw [if_pos same]
      refine ⟨List.forall_mem_cons.2 ⟨first, weekday⟩, List.forall_mem_cons.2 ⟨fun k hk => ?_, count⟩,
        ruled.nearest⟩
      split at hk
      · exact here k hk
      · rcases List.mem_cons.1 (List.mem_mergeSort.1 hk) with new | old
        · exact counts k new.symm
        · exact here k old
    · rw [if_neg same]
      have others := ih ⟨weekday, count, ruled.nearest⟩
      exact ⟨List.forall_mem_cons.2 ⟨first, others.weekday⟩, List.forall_mem_cons.2 ⟨here, others.count⟩,
        ruled.nearest⟩

end Ruled

namespace Reading

variable {r r' : Reading}

def Ruled (r : Reading) : Prop := Cron.Ruled r.nth r.nearest

namespace Ruled

theorem takeSingle (ruled : r.Ruled) (suits : occ.Suits slot) {cs : List Char}
    (h : takeSingle slot r cs occ = .ok r') : r'.Ruled := by
  unfold Cron.takeSingle at h
  split at h
  · cases h
  split at h
  · exact Except.ok.inj h ▸ ruled
  split at h
  · exact Except.ok.inj h ▸ ruled
  obtain ⟨n, -, h⟩ := bind_eq_ok.1 h
  dsimp only at h
  split at h
  · cases h
  next range =>
    obtain rfl := Except.ok.inj h
    have bound : wrapWeekday slot n ≤ slot.high := by omega
    cases occ with
    | none => exact ruled
    | nth k =>
      obtain ⟨rfl, counts⟩ := suits
      exact ruled.addNth bound fun j same => Nth.nth.inj same ▸ counts
    | last =>
      obtain rfl := suits
      exact ruled.addNth bound nofun

theorem takeBandValue (ruled : r.Ruled) (suits : occ.Suits slot) {n : Nat} (bound : n ≤ slot.high) :
    (takeBandValue occ r n).Ruled := by
  cases occ with
  | none => exact ruled
  | nth k =>
    obtain ⟨rfl, counts⟩ := suits
    exact ruled.addNth bound fun j same => Nth.nth.inj same ▸ counts
  | last => exact ruled

theorem takeBandValues (ruled : r.Ruled) (suits : occ.Suits slot) {values : List Nat}
    (bound : ∀ n ∈ values, n ≤ slot.high) : (values.foldl (Cron.takeBandValue occ) r).Ruled := by
  induction values generalizing r with
  | nil => exact ruled
  | cons n rest ih =>
    obtain ⟨first, bound⟩ := List.forall_mem_cons.1 bound
    exact ih (ruled.takeBandValue suits first) bound

theorem takeBand (ruled : r.Ruled) (suits : occ.Suits slot) {values : List Nat}
    (bound : ∀ n ∈ values, n ≤ slot.high) (h : takeBand slot r occ values = .ok r') : r'.Ruled := by
  unfold Cron.takeBand at h
  dsimp only at h
  split at h
  · cases h
  · obtain rfl := Except.ok.inj h
    have fresh : ∀ n ∈ (values.filter fun n => !r.expanded.contains (bandMark occ n)).reverse, n ≤ slot.high :=
      fun n hn => bound n (List.mem_filter.1 (List.mem_reverse.1 hn)).1
    exact ruled.takeBandValues suits fresh

theorem takeNearest (ruled : r.Ruled) {alone : Bool} {n : Nat} (h : takeNearest r alone n = .ok r') :
    r'.Ruled := by
  unfold Cron.takeNearest at h
  split at h
  · cases h
  next range =>
    split at h
    · cases h
    · obtain rfl := Except.ok.inj h
      refine ⟨ruled.weekday, ruled.count, fun m hm => ?_⟩
      rcases List.mem_append.1 hm with old | new
      · exact ruled.nearest m old
      · rw [List.mem_singleton.1 new]
        omega

end Ruled

end Reading

theorem splitOccurrence_suits {cs e : List Char} (h : splitOccurrence cs = .ok (e, occ)) :
    occ.Suits .weekday := by
  unfold splitOccurrence at h
  split at h
  · split at h
    · split at h
      · split at h
        · next counts =>
          obtain ⟨-, rfl⟩ := Prod.mk.inj (Except.ok.inj h)
          exact ⟨rfl, counts.1⟩
        · cases h
      · obtain ⟨-, rfl⟩ := Prod.mk.inj (Except.ok.inj h)
        trivial
    · obtain ⟨-, rfl⟩ := Prod.mk.inj (Except.ok.inj h)
      trivial
  · split at h
    · split at h
      · obtain ⟨-, rfl⟩ := Prod.mk.inj (Except.ok.inj h)
        rfl
      · obtain ⟨-, rfl⟩ := Prod.mk.inj (Except.ok.inj h)
        trivial
    · obtain ⟨-, rfl⟩ := Prod.mk.inj (Except.ok.inj h)
      trivial

namespace Reading.Ruled

variable {r r' : Reading}

theorem takeForm (ruled : r.Ruled) (suits : occ.Suits slot) {form : Form}
    (h : (match form with
      | .band low high step fromStep => do
        let values ← readBand slot low high step fromStep
        Cron.takeBand slot r occ values
      | .single t => Cron.takeSingle slot r t occ) = .ok r') : r'.Ruled := by
  cases form with
  | band low high step fromStep =>
    obtain ⟨values, read, h⟩ := bind_eq_ok.1 h
    exact ruled.takeBand suits (readBand_ok read).2 h
  | single t => exact ruled.takeSingle suits h

theorem takeItem (ruled : r.Ruled) {alone : Bool} {cs : List Char} (h : takeItem slot r alone cs = .ok r') :
    r'.Ruled := by
  unfold Cron.takeItem at h
  by_cases weekday : slot = .weekday
  · subst weekday
    rw [if_pos rfl] at h
    obtain ⟨⟨e, occ⟩, suffix, h⟩ := bind_eq_ok.1 h
    exact ruled.takeForm (splitOccurrence_suits suffix) h
  · rw [if_neg weekday] at h
    obtain ⟨⟨e, occ⟩, plain, h⟩ := bind_eq_ok.1 h
    obtain ⟨rfl, rfl⟩ := Prod.mk.inj (Except.ok.inj plain)
    dsimp only at h
    split at h
    · exact ruled.takeNearest h
    · exact ruled.takeForm (show Occurrence.Suits slot .none from trivial) h

theorem takeItems (ruled : r.Ruled) {items : List (List Char)} (h : takeItems slot r items = .ok r') :
    r'.Ruled := by
  induction items generalizing r with
  | nil => exact Except.ok.inj h ▸ ruled
  | cons e rest ih =>
    obtain ⟨r₁, first, h⟩ := bind_eq_ok.1 h
    exact ih (ruled.takeItem first) h

theorem readField (ruled : r.Ruled) {otherDay field : List Char} {es : List Entry}
    (h : readField slot otherDay field r = .ok (es, r')) : r'.Ruled := by
  unfold Cron.readField at h
  split at h
  · obtain ⟨n, -, h⟩ := bind_eq_ok.1 h
    obtain ⟨-, rfl⟩ := Prod.mk.inj (Except.ok.inj h)
    exact ruled
  · obtain ⟨field', -, h⟩ := bind_eq_ok.1 h
    obtain ⟨r₁, taken, h⟩ := bind_eq_ok.1 h
    obtain ⟨-, rfl⟩ := Prod.mk.inj (Except.ok.inj h)
    have carried : Reading.Ruled { nth := r.nth, nearest := r.nearest } := ruled
    exact carried.takeItems taken

theorem readFields (ruled : r.Ruled) {raw : List (List Char)} {fields : List (Slot × List Char)}
    {slots : List (List Entry)} (h : readFields raw r fields = .ok (slots, r')) : r'.Ruled := by
  induction fields generalizing r slots with
  | nil => exact (Prod.mk.inj (Except.ok.inj h)).2 ▸ ruled
  | cons field rest ih =>
    obtain ⟨⟨first, r₁⟩, head, h⟩ := bind_eq_ok.1 h
    obtain ⟨⟨more, r₂⟩, others, h⟩ := bind_eq_ok.1 h
    obtain ⟨-, rfl⟩ := Prod.mk.inj (Except.ok.inj h)
    exact ih (ruled.readField head) others

end Reading.Ruled

theorem read_ruled {expression : String} {x : Expression} (h : read expression = .ok x) :
    Ruled x.nth x.nearest := by
  unfold read at h
  dsimp only at h
  split at h
  · cases h
  · obtain ⟨⟨slots, r⟩, taken, h⟩ := bind_eq_ok.1 h
    have ruled : r.Ruled := Reading.Ruled.readFields (r := {}) Ruled.nil taken
    dsimp only at h
    split at h
    · obtain rfl := checkWeekdays_ok h
      exact ruled
    · cases h

end ChoreReminder.Cron
