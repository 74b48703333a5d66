/-! Stable sorting. Rows may be left out before or after sorting, and where the order has no say the rows stay as
they came. What a sorted list has up to some place is its first part, and without one of its members it is sorted as
before. -/

namespace ChoreReminder

theorem eq_of_append_eq {α : Type} {p : α → Bool} {xs ys xs' ys' : List α} (same : xs ++ ys = xs' ++ ys')
    (low : ∀ x ∈ xs, p x = true) (low' : ∀ x ∈ xs', p x = true) (high : ∀ y ∈ ys, p y = false)
    (high' : ∀ y ∈ ys', p y = false) : xs = xs' ∧ ys = ys' := by
  have first {us vs : List α} (u : ∀ x ∈ us, p x = true) (v : ∀ y ∈ vs, p y = false) :
      (us ++ vs).filter p = us := by
    rw [List.filter_append, List.filter_eq_self.2 u,
      List.filter_eq_nil_iff.2 fun y hy => by simp [v y hy], List.append_nil]
  have front : xs = xs' := by rw [← first low high, ← first low' high', same]
  subst front
  exact ⟨rfl, List.append_cancel_left same⟩

theorem filter_mergeSort {α : Type} {le : α → α → Bool}
    (trans : ∀ a b c, le a b = true → le b c = true → le a c = true)
    (total : ∀ a b, (le a b || le b a) = true) (p : α → Bool) (xs : List α) :
    (xs.mergeSort le).filter p = (xs.filter p).mergeSort le := by
  induction xs with
  | nil => rw [List.filter_nil, List.mergeSort_nil, List.filter_nil]
  | cons a rest ih =>
    obtain ⟨us, vs, sorted, sorted', before⟩ := List.mergeSort_cons trans total a rest
    rw [sorted', List.filter_append] at ih
    rw [sorted, List.filter_append]
    cases keep : p a with
    | false =>
      rw [List.filter_cons_of_neg (by simp [keep]), List.filter_cons_of_neg (by simp [keep]), ih]
    | true =>
      rw [List.filter_cons_of_pos keep, List.filter_cons_of_pos keep]
      obtain ⟨us', vs', kept, kept', before'⟩ := List.mergeSort_cons trans total a (rest.filter p)
      rw [kept'] at ih
      -- Both splittings of the sorted rest are at the place where `a` goes.
      have after {us vs ws : List α} (order : ws.mergeSort le = us ++ a :: vs) : ∀ v ∈ vs, le a v = true := by
        have pairwise := List.pairwise_mergeSort trans total ws
        rw [order] at pairwise
        exact (List.pairwise_cons.1 (List.pairwise_append.1 pairwise).2.1).1
      obtain ⟨front, back⟩ := eq_of_append_eq (p := fun b => !le a b) ih
        (fun u hu => before u (List.mem_filter.1 hu).1) before'
        (fun v hv => by simp [after sorted v (List.mem_filter.1 hv).1])
        (fun v hv => by simp [after kept v hv])
      rw [kept, front, back]

theorem pairwise_mergeSort_stable {α : Type} {le : α → α → Bool} {before : α → α → Prop}
    (trans : ∀ a b c, le a b = true → le b c = true → le a c = true)
    (total : ∀ a b, (le a b || le b a) = true) {xs : List α} (came : xs.Pairwise before) :
    (xs.mergeSort le).Pairwise fun a b => le a b = true ∧ (le b a = true → before a b) := by
  induction xs with
  | nil => simp
  | cons x rest ih =>
    obtain ⟨first, came⟩ := List.pairwise_cons.1 came
    obtain ⟨us, vs, sorted, sorted', strict⟩ := List.mergeSort_cons trans total x rest
    have ordered := List.pairwise_mergeSort trans total (x :: rest)
    rw [sorted, List.pairwise_append, List.pairwise_cons] at ordered
    obtain ⟨-, ⟨behind, -⟩, -⟩ := ordered
    have old := ih came
    rw [sorted', List.pairwise_append] at old
    obtain ⟨front, back, across⟩ := old
    have member : ∀ v ∈ vs, v ∈ rest := fun v hv =>
      (List.mergeSort_perm rest le).subset (sorted' ▸ List.mem_append_right us hv)
    rw [sorted, List.pairwise_append, List.pairwise_cons]
    refine ⟨front, ⟨fun v hv => ⟨behind v hv, fun _ => first v (member v hv)⟩, back⟩, ?_⟩
    intro u hu v hv
    rcases List.mem_cons.1 hv with rfl | hv
    · -- Nothing in front of the new row may stand behind it.
      have never : le v u = false := by simpa using strict u hu
      have way := total u v
      rw [never, Bool.or_false] at way
      exact ⟨way, fun back => by rw [never] at back; cases back⟩
    · exact across u hu v hv

theorem filter_eq_takeWhile {α : Type} {p : α → Bool} {xs : List α}
    (closed : xs.Pairwise fun a b => p b = true → p a = true) : xs.filter p = xs.takeWhile p := by
  induction xs with
  | nil => rfl
  | cons a rest ih =>
    obtain ⟨first, closed⟩ := List.pairwise_cons.1 closed
    by_cases front : p a = true
    · rw [List.filter_cons_of_pos front, List.takeWhile_cons_of_pos front, ih closed]
    · rw [List.filter_cons_of_neg front, List.takeWhile_cons_of_neg front, List.filter_eq_nil_iff]
      exact fun b hb back => front (first b hb back)

theorem takeWhile_prefix_takeWhile {α : Type} {p q : α → Bool} {xs : List α}
    (weaker : ∀ a ∈ xs, p a = true → q a = true) : xs.takeWhile p <+: xs.takeWhile q := by
  induction xs with
  | nil => exact List.prefix_rfl
  | cons a rest ih =>
    obtain ⟨first, weaker⟩ := List.forall_mem_cons.1 weaker
    by_cases front : p a = true
    · rw [List.takeWhile_cons_of_pos front, List.takeWhile_cons_of_pos (first front)]
      exact (List.prefix_cons_inj a).2 (ih weaker)
    · rw [List.takeWhile_cons_of_neg front]
      exact List.nil_prefix

theorem filter_key_ne {α β : Type} [DecidableEq β] {f : α → β} {before after : List α} {a : α}
    (distinct : ((before ++ a :: after).map f).Nodup) :
    (before ++ a :: after).filter (f · ≠ f a) = before ++ after := by
  have moved : (before ++ a :: after).Perm (a :: (before ++ after)) := List.perm_middle
  have fresh := (List.nodup_cons.1 ((moved.map f).nodup_iff.1 distinct)).1
  have others : ∀ x ∈ before ++ after, f x ≠ f a := fun x hx same => fresh (List.mem_map.2 ⟨x, hx, same⟩)
  obtain ⟨front, back⟩ := List.forall_mem_append.1 others
  rw [List.filter_append, List.filter_cons_of_neg (by simp), List.filter_eq_self.2 (by simpa using front),
    List.filter_eq_self.2 (by simpa using back)]

theorem mergeSort_without {α : Type} {le : α → α → Bool}
    (trans : ∀ a b c, le a b = true → le b c = true → le a c = true)
    (total : ∀ a b, (le a b || le b a) = true) (before : List α) (a : α) (after : List α) :
    ∃ front back, (before ++ a :: after).mergeSort le = front ++ a :: back ∧
      (before ++ after).mergeSort le = front ++ back := by
  -- Equal members are told apart by their places.
  let places := (before ++ a :: after).zipIdx
  let leThere (p q : α × Nat) : Bool := le p.1 q.1
  have untold (ps : List (α × Nat)) : (ps.mergeSort leThere).map Prod.fst = (ps.map Prod.fst).mergeSort le :=
    List.map_mergeSort fun p _ q _ => rfl
  have distinct : (places.map Prod.snd).Nodup := by
    rw [List.zipIdx_map_snd]
    exact List.nodup_range'
  have split : places = before.zipIdx ++ (a, before.length) :: after.zipIdx (before.length + 1) := by
    simp [places, List.zipIdx_append, List.zipIdx_cons]
  have perm := List.mergeSort_perm places leThere
  obtain ⟨front, back, sorted⟩ := List.append_of_mem (perm.symm.subset (split ▸ by simp : (a, before.length) ∈ places))
  refine ⟨front.map Prod.fst, back.map Prod.fst, ?_, ?_⟩
  · rw [← List.zipIdx_map_fst 0 (before ++ a :: after), ← untold, sorted]
    simp
  · have kept : (places.mergeSort leThere).filter (·.2 ≠ before.length) =
        (places.filter (·.2 ≠ before.length)).mergeSort leThere :=
      filter_mergeSort (fun p q r => trans p.1 q.1 r.1) (fun p q => total p.1 q.1) _ places
    have left : places.filter (·.2 ≠ before.length) = before.zipIdx ++ after.zipIdx (before.length + 1) := by
      rw [split]
      exact filter_key_ne (f := Prod.snd) (split ▸ distinct)
    have left' : (front ++ (a, before.length) :: back).filter (·.2 ≠ before.length) = front ++ back :=
      filter_key_ne (f := Prod.snd) (sorted ▸ (perm.map Prod.snd).nodup_iff.2 distinct)
    rw [sorted, left', left] at kept
    have rest := congrArg (List.map Prod.fst) kept
    rw [untold, List.map_append, List.map_append, List.zipIdx_map_fst, List.zipIdx_map_fst] at rest
    exact rest.symm

end ChoreReminder
