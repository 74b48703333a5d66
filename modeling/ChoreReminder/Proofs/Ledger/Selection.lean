import ChoreReminder.Proofs.Ledger.Backlog
import ChoreReminder.Proofs.Ledger.Queue

/-! Which deliveries are selected for the next attempts. Those that may be attempted stand in line: by the due
instant of the event, then by the instant of creation, then in the order in which their rows were inserted.
Numbers of rows only grow and are not used again, so the last of the three decides between any two rows,
whatever was removed before. A limit cuts the line off, so a delivery is selected exactly if there is room
for all that stand in front of it. -/

namespace ChoreReminder

/-! ### Numbers of rows -/

def Delivery.number (d : Delivery) : Nat := Nat.ofDigitChars 10 (d.id.toList.drop 24) 0

theorem number_of_id {d : Delivery} {n : Nat} (h : d.id = rowId "f0000000" n) : d.number = n := by
  have digits : (rowId "f0000000" n).toList.drop 24 = (Text.padded 12 n).toList := by
    simp only [rowId, String.toList_append]
    rfl
  rw [Delivery.number, h, digits, Text.ofDigitChars_padded]

namespace Ledger

variable {l l' : Ledger} {limit maxAttempts : Int}

def Numbered (l : Ledger) : Prop := l.deliveries.Pairwise fun d d' => d.number < d'.number

theorem numbered_empty : Numbered empty := .nil

theorem Numbered.mark (n : Numbered l) (m : Mark) : Numbered (l.mark m).2 := by
  rw [mark_ledger]
  refine List.pairwise_map.2 (n.imp fun {d d'} before => ?_)
  rwa [Delivery.number, Delivery.number, Delivery.marked_id, Delivery.marked_id]

theorem Sound.number_le (s : Sound l) {d : Delivery} (hd : d ∈ l.deliveries) :
    d.number ≤ l.ids.deliveries := by
  obtain ⟨n, few, id⟩ := s.deliveriesIssued d hd
  rw [number_of_id id]
  exact few

theorem Sound.numbered_change (s : Sound l) (n : Numbered l) (h : Change l l') : Numbered l' := by
  cases h with
  | createChore done =>
    obtain ⟨-, created, -, -, rfl⟩ := createChore_ok done
    exact n
  | updateSchedule done =>
    obtain ⟨-, -, rfl⟩ := updateSchedule_ok done
    exact n
  | deleteChore id => exact n.sublist List.filter_sublist
  | complete done =>
    obtain ⟨-, completed, -, rfl⟩ := complete_ok done
    exact n
  | addEvent => exact n
  | addDelivery event fresh =>
    refine List.pairwise_append.2 ⟨n, List.pairwise_singleton _ _, fun d hd d' hd' => ?_⟩
    have next : d'.number = l.ids.deliveries + 1 := number_of_id (List.mem_singleton.1 hd' ▸ rfl)
    rw [next]
    exact Nat.lt_succ_of_le (s.number_le hd)

theorem Course.numbered {ms : List Mark} (h : Course l ms l') (s : Sound l) (n : Numbered l) :
    Numbered l' :=
  (h.preserves (P := fun l => Sound l ∧ Numbered l)
    (fun change now => ⟨now.1.change change, now.1.numbered_change now.2 change⟩)
    (fun m now => ⟨now.1.mark m, now.2.mark m⟩) ⟨s, n⟩).2

/-! ### The line -/

def item (row : Delivery × Event) : PendingDelivery := (joinedRow row.1 row.2).1

def AheadOf (row row' : Delivery × Event) : Prop :=
  row.2.dueAt < row'.2.dueAt ∨ row.2.dueAt = row'.2.dueAt ∧
    (row.1.createdAt < row'.1.createdAt ∨ row.1.createdAt = row'.1.createdAt ∧
      row.1.number < row'.1.number)

instance (row row' : Delivery × Event) : Decidable (AheadOf row row') :=
  inferInstanceAs (Decidable (_ ∨ _))

def eligibleRows (maxAttempts : Int) (l : Ledger) : List (Delivery × Event) :=
  (l.deliveries.filter (isEligible maxAttempts)).filterMap fun d =>
    (l.event? d.eventId).map (d, ·)

def line (maxAttempts : Int) (l : Ledger) : List (Delivery × Event) :=
  (l.eligibleRows maxAttempts).mergeSort fun row row' =>
    attemptedBefore (joinedRow row.1 row.2) (joinedRow row'.1 row'.2)

theorem micros_inj {i j : Instant} : i.micros = j.micros ↔ i = j := by
  obtain ⟨m, -⟩ := i
  obtain ⟨n, -⟩ := j
  rw [Instant.mk.injEq]

theorem aheadOf_iff {row row' : Delivery × Event} : AheadOf row row' ↔
    attemptedBefore (joinedRow row.1 row.2) (joinedRow row'.1 row'.2) = true ∧
      (attemptedBefore (joinedRow row'.1 row'.2) (joinedRow row.1 row.2) = true →
        row.1.number < row'.1.number) := by
  have due : row.2.dueAt = row'.2.dueAt ↔ row.2.dueAt.micros = row'.2.dueAt.micros :=
    micros_inj.symm
  have created : row.1.createdAt = row'.1.createdAt ↔
      row.1.createdAt.micros = row'.1.createdAt.micros := micros_inj.symm
  have lt (i j : Instant) : i < j ↔ i.micros < j.micros := Iff.rfl
  simp only [AheadOf, due, created, lt, attemptedBefore, Bool.or_eq_true, Bool.and_eq_true,
    decide_eq_true_eq, beq_iff_eq]
  simp only [joinedRow]
  omega

theorem AheadOf.asymm {row row' : Delivery × Event} (h : AheadOf row row') : ¬ AheadOf row' row := by
  intro back
  have way := (aheadOf_iff.1 h).2 (aheadOf_iff.1 back).1
  have way' := (aheadOf_iff.1 back).2 (aheadOf_iff.1 h).1
  omega

theorem mem_eligibleRows {row : Delivery × Event} : row ∈ l.eligibleRows maxAttempts ↔
    row.1 ∈ l.deliveries ∧ isEligible maxAttempts row.1 = true ∧ l.event? row.1.eventId = some row.2 := by
  obtain ⟨d, e⟩ := row
  simp only [eligibleRows, List.mem_filterMap, List.mem_filter, Option.map_eq_some_iff, Prod.mk.injEq]
  constructor
  · rintro ⟨d', ⟨member, eligible⟩, e', found, rfl, rfl⟩
    exact ⟨member, eligible, found⟩
  · rintro ⟨member, eligible, found⟩
    exact ⟨d, ⟨member, eligible⟩, e, found, rfl, rfl⟩

theorem event?_eq_some {id : String} {e : Event} (h : l.event? id = some e) : e ∈ l.events ∧ e.id = id :=
  ⟨List.mem_of_find?_eq_some h, by simpa using List.find?_some h⟩

theorem Sound.event?_of_mem (s : Sound l) {e : Event} (he : e ∈ l.events) : l.event? e.id = some e := by
  cases found : l.event? e.id with
  | none => exact absurd (decide_eq_true rfl) (List.find?_eq_none.1 found e he)
  | some e' =>
    obtain ⟨he', same⟩ := event?_eq_some found
    rw [eq_of_key s.eventIds he' he same]

theorem Sound.eligibleRows_deliveries (s : Sound l) (maxAttempts : Int) :
    (l.eligibleRows maxAttempts).map (·.1) = l.deliveries.filter (isEligible maxAttempts) := by
  rw [eligibleRows, List.map_filterMap]
  have kept : ∀ d ∈ l.deliveries.filter (isEligible maxAttempts),
      ((l.event? d.eventId).map (d, ·)).map (·.1) = some d := by
    intro d hd
    obtain ⟨e, he, same⟩ := s.deliveryEvent d (List.mem_filter.1 hd).1
    rw [← same, s.event?_of_mem he]
    rfl
  rw [List.filterMap_congr kept, List.filterMap_some]

theorem line_perm (maxAttempts : Int) (l : Ledger) :
    (l.line maxAttempts).Perm (l.eligibleRows maxAttempts) := List.mergeSort_perm _ _

theorem Numbered.eligibleRows (n : Numbered l) (maxAttempts : Int) :
    (l.eligibleRows maxAttempts).Pairwise fun row row' => row.1.number < row'.1.number := by
  refine List.Pairwise.filterMap _ ?_ (n.sublist (List.filter_sublist (p := isEligible maxAttempts)))
  intro d d' before row found row' found'
  obtain ⟨e, -, rfl⟩ := Option.map_eq_some_iff.1 found
  obtain ⟨e', -, rfl⟩ := Option.map_eq_some_iff.1 found'
  exact before

theorem Numbered.line (n : Numbered l) (maxAttempts : Int) :
    (l.line maxAttempts).Pairwise AheadOf := by
  refine (pairwise_mergeSort_stable ?_ ?_ (n.eligibleRows maxAttempts)).imp aheadOf_iff.2
  · exact fun _ _ _ => attemptedBefore_trans _ _ _
  · exact fun _ _ => attemptedBefore_total _ _

theorem Sound.line_deliveries (s : Sound l) (maxAttempts : Int) :
    ((l.line maxAttempts).map (·.1)).Perm (l.deliveries.filter (isEligible maxAttempts)) :=
  s.eligibleRows_deliveries maxAttempts ▸ (line_perm maxAttempts l).map (·.1)

theorem Sound.line_ids (s : Sound l) (maxAttempts : Int) : ((l.line maxAttempts).map (·.1.id)).Nodup := by
  have ids := ((s.line_deliveries maxAttempts).map (·.id)).nodup_iff.2
    (nodup_map_filter (isEligible maxAttempts) s.deliveryIds)
  rwa [List.map_map] at ids

theorem Sound.line_event (s : Sound l) {row : Delivery × Event} (hr : row ∈ l.line maxAttempts) (e : Event) :
    e ∈ l.events ∧ e.id = row.1.eventId ↔ e = row.2 := by
  obtain ⟨-, -, found⟩ := mem_eligibleRows.1 ((line_perm maxAttempts l).subset hr)
  constructor
  · rintro ⟨he, same⟩
    rw [← same, s.event?_of_mem he] at found
    exact Option.some.inj found
  · rintro rfl
    exact event?_eq_some found

theorem Numbered.ahead_of_left_out (n : Numbered l) {row row' : Delivery × Event} (hr : row ∈ l.line maxAttempts)
    (out : row ∉ limited limit (l.line maxAttempts)) (hr' : row' ∈ limited limit (l.line maxAttempts)) :
    AheadOf row' row := by
  unfold limited at out hr'
  split at hr'
  · next all =>
    rw [if_pos all] at out
    exact absurd hr out
  · next some' =>
    rw [if_neg some'] at out
    have split := n.line maxAttempts
    rw [← List.take_append_drop limit.toNat (l.line maxAttempts)] at split hr
    exact (List.pairwise_append.1 split).2.2 row' hr' row ((List.mem_append.1 hr).resolve_left out)

theorem pending_line (l : Ledger) (cut : -2 ^ 63 ≤ limit ∧ limit < 2 ^ 63)
    (attempts : -2 ^ 63 ≤ maxAttempts ∧ maxAttempts < 2 ^ 63) :
    l.pending limit maxAttempts = .ok ((limited limit (l.line maxAttempts)).map item) := by
  have rows : (l.deliveries.filter (isEligible maxAttempts)).filterMap (fun d =>
      (l.joined? d).map (·, d.createdAt)) =
        (l.eligibleRows maxAttempts).map fun row => joinedRow row.1 row.2 := by
    rw [eligibleRows, List.map_filterMap]
    refine List.filterMap_congr fun d _ => ?_
    rw [joined?]
    cases l.event? d.eventId <;> rfl
  have sorted : ((l.eligibleRows maxAttempts).map fun row => joinedRow row.1 row.2).mergeSort
      attemptedBefore = (l.line maxAttempts).map fun row => joinedRow row.1 row.2 := by
    rw [line, List.map_mergeSort (s := attemptedBefore) fun _ _ _ _ => rfl]
  simp only [pending, fitting_ok cut.1 cut.2, fitting_ok attempts.1 attempts.2, rows, sorted]
  have front : limited limit ((l.line maxAttempts).map fun row => joinedRow row.1 row.2) =
      (limited limit (l.line maxAttempts)).map fun row => joinedRow row.1 row.2 := by
    unfold limited
    split
    · rfl
    · rw [List.map_take]
  change Except.ok _ = _
  rw [front, List.map_map]
  rfl

/-! ### The place in the line -/

theorem mem_take_iff_countP {α : Type} {before : α → α → Prop} [DecidableRel before] {rows : List α}
    (ordered : rows.Pairwise before) (asymm : ∀ a b, before a b → ¬ before b a) {x : α} (hx : x ∈ rows)
    (n : Nat) : x ∈ rows.take n ↔ rows.countP (before · x) < n := by
  induction rows generalizing n with
  | nil => cases hx
  | cons y ys ih =>
    obtain ⟨first, ordered⟩ := List.pairwise_cons.1 ordered
    have never (z : α) : ¬ before z z := fun h => asymm z z h h
    cases n with
    | zero => simp
    | succ n =>
      rw [List.take_succ_cons, List.mem_cons, List.countP_cons]
      rcases List.mem_cons.1 hx with rfl | hx
      · have none : ys.countP (before · x) = 0 := by
          rw [List.countP_eq_zero]
          intro z hz
          simpa using asymm x z (first z hz)
        simp [none, never]
      · have later : x ≠ y := fun same => never y (same ▸ first x hx)
        simp only [later, false_or, first x hx, decide_true, if_true, ih ordered hx n]
        omega

theorem item_inj (s : Sound l) {row row' : Delivery × Event} (h : row ∈ l.eligibleRows maxAttempts)
    (h' : row' ∈ l.eligibleRows maxAttempts) (same : item row = item row') : row = row' := by
  obtain ⟨member, -, found⟩ := mem_eligibleRows.1 h
  obtain ⟨member', -, found'⟩ := mem_eligibleRows.1 h'
  have delivery : row.1 = row'.1 :=
    eq_of_key s.deliveryIds member member' (congrArg PendingDelivery.deliveryId same)
  rw [delivery, found'] at found
  exact Prod.ext delivery (Option.some.inj found.symm)

theorem Sound.selected_iff (s : Sound l) (n : Numbered l) (cut : -2 ^ 63 ≤ limit ∧ limit < 2 ^ 63)
    (attempts : -2 ^ 63 ≤ maxAttempts ∧ maxAttempts < 2 ^ 63) {row : Delivery × Event}
    (eligible : row ∈ l.eligibleRows maxAttempts) :
    (∃ ps, l.pending limit maxAttempts = .ok ps ∧ item row ∈ ps) ↔
      limit < 0 ∨ ((l.eligibleRows maxAttempts).countP (AheadOf · row) : Int) < limit := by
  have member : row ∈ l.line maxAttempts := (line_perm maxAttempts l).mem_iff.2 eligible
  have listed : (∃ ps, l.pending limit maxAttempts = .ok ps ∧ item row ∈ ps) ↔
      row ∈ limited limit (l.line maxAttempts) := by
    rw [pending_line l cut attempts]
    constructor
    · rintro ⟨ps, given, hp⟩
      obtain rfl := Except.ok.inj given
      obtain ⟨row', hr, same⟩ := List.mem_map.1 hp
      have known := (line_perm maxAttempts l).subset ((limited_sublist limit _).subset hr)
      rwa [← item_inj s known eligible same]
    · exact fun hr => ⟨_, rfl, List.mem_map_of_mem hr⟩
  rw [listed, limited, ← (line_perm maxAttempts l).countP_eq]
  split
  · next all => simp [member, all]
  · next short =>
    rw [mem_take_iff_countP (n.line maxAttempts) (fun _ _ => AheadOf.asymm) member]
    omega

/-! ### The line after marks -/

def isAhead (maxAttempts : Int) (l : Ledger) (row : Delivery × Event) (d : Delivery) : Bool :=
  isEligible maxAttempts d && (l.event? d.eventId).any fun e => AheadOf (d, e) row

theorem countP_aheadOf (row : Delivery × Event) :
    (l.eligibleRows maxAttempts).countP (AheadOf · row) = l.deliveries.countP (l.isAhead maxAttempts row) := by
  rw [eligibleRows, List.countP_filterMap, List.countP_filter]
  refine List.countP_congr fun d _ => ?_
  rw [isAhead, Bool.and_comm]
  cases l.event? d.eventId <;> rfl

theorem isAhead_of_marked {row : Delivery × Event} {m : Mark} {d : Delivery}
    (h : l.isAhead maxAttempts row (d.marked m) = true) : l.isAhead maxAttempts row d = true := by
  by_cases hit : d.id = m.deliveryId ∧ d.status ≠ .delivered
  · cases failure : m.failure with
    | none => simp [isAhead, isEligible, Delivery.marked, hit, failure] at h
    | some reason =>
      simp only [isAhead, isEligible, Bool.and_eq_true, bne_iff_ne, decide_eq_true_eq] at h ⊢
      rw [Delivery.marked, if_pos hit, failure] at h
      exact ⟨⟨hit.2, lt_trans (by simp) h.1.2⟩, h.2⟩
  · rwa [Delivery.marked, if_neg hit] at h

theorem isAhead_of_foldl_marked {row : Delivery × Event} (ms : List Mark) {d : Delivery}
    (h : l.isAhead maxAttempts row (ms.foldl (fun d m => d.marked m) d) = true) :
    l.isAhead maxAttempts row d = true := by
  induction ms generalizing d with
  | nil => exact h
  | cons m ms ih => exact isAhead_of_marked (ih h)

theorem Sound.selected_again (s : Sound l) (n : Numbered l) (cut : -2 ^ 63 ≤ limit ∧ limit < 2 ^ 63)
    (attempts : -2 ^ 63 ≤ maxAttempts ∧ maxAttempts < 2 ^ 63) (ms : List Mark) {row : Delivery × Event}
    (eligible : row ∈ l.eligibleRows maxAttempts)
    (still : row.1 ∈ (ms.foldl (fun l m => (l.mark m).2) l).deliveries)
    (selected : ∃ ps, l.pending limit maxAttempts = .ok ps ∧ item row ∈ ps) :
    ∃ ps, (ms.foldl (fun l m => (l.mark m).2) l).pending limit maxAttempts = .ok ps ∧ item row ∈ ps := by
  have course := Course.marks l ms
  have kept : row ∈ (ms.foldl (fun l m => (l.mark m).2) l).eligibleRows maxAttempts := by
    obtain ⟨-, open', found⟩ := mem_eligibleRows.1 eligible
    refine mem_eligibleRows.2 ⟨still, open', ?_⟩
    rwa [foldl_mark_ledger]
  rw [(s.course course).selected_iff (course.numbered s n) cut attempts kept]
  refine ((s.selected_iff n cut attempts eligible).1 selected).imp_right fun room => ?_
  have fewer : ((ms.foldl (fun l m => (l.mark m).2) l).eligibleRows maxAttempts).countP (AheadOf · row) ≤
      (l.eligibleRows maxAttempts).countP (AheadOf · row) := by
    rw [countP_aheadOf, countP_aheadOf, foldl_mark_ledger, List.countP_map]
    exact List.countP_mono_left fun d _ ahead => isAhead_of_foldl_marked ms ahead
  omega

end Ledger

end ChoreReminder
