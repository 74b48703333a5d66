import Mathlib.Data.List.Perm.Basic
import ChoreReminder.Proofs.Ledger.Backlog
import ChoreReminder.Proofs.Ledger.Candidates

/-! What the ledger answers about the completions of a chore. The rows hold texts, and the queries compare
texts. All instants have stored forms of one width, which compare like the instants; so the answers are those
that the instants of the completions give, in whatever order and form they were recorded. -/

namespace ChoreReminder

structure LatestOf (times : List Instant) (last : Option Stamp) : Prop where
  none : last = none ↔ times = []
  some : ∀ t, last = some t → ∃ i ∈ times, t = .utc i ∧ ∀ j ∈ times, j ≤ i

theorem LatestOf.unique {times times' : List Instant} {last last' : Option Stamp}
    (h : LatestOf times last) (h' : LatestOf times' last') (same : times.Perm times') : last = last' := by
  cases last with
  | none =>
    obtain rfl := h.none.1 rfl
    exact (h'.none.2 same.symm.eq_nil).symm
  | some t =>
    obtain ⟨i, hi, rfl, top⟩ := h.some t rfl
    cases last' with
    | none =>
      obtain rfl := h'.none.1 rfl
      exact absurd (same.subset hi) List.not_mem_nil
    | some t' =>
      obtain ⟨j, hj, rfl, top'⟩ := h'.some t' rfl
      have one : i = j := by
        have below : i.micros ≤ j.micros := top' i (same.subset hi)
        have above : j.micros ≤ i.micros := top j (same.symm.subset hj)
        cases i
        cases j
        simpa using Nat.le_antisymm below above
      rw [one]

namespace Ledger

variable {l : Ledger} {id : String} {times : List Instant}

def RecordedAt (l : Ledger) (id : String) (times : List Instant) : Prop :=
  (l.completions.filter (·.choreId = id)).map (·.completedAt) = times.map Instant.stored

/-- What is answered about the completions of a chore that are at these instants. -/
structure AnswersBy (l : Ledger) (id : String) (times : List Instant) : Prop where
  chore : ∃ c ∈ l.candidates.1, l.chore? id = .ok (some c) ∧ LatestOf times c.lastCompletedAt ∧
    ∀ d ∈ l.candidates.1, d.id = id → d = c
  any : ∃ found, l.completionExists id none = .ok found ∧ (found = true ↔ times ≠ [])
  since : ∀ t i, t.instant? = some i → ∃ found, l.completionExists id (some t) = .ok found ∧
    (found = true ↔ ∃ j ∈ times, i ≤ j)
  listed : ∀ limit : Int, 0 ≤ limit → limit < 2 ^ 63 → ∃ (cs : List Completion) (shown rest : List Instant),
    l.completionsOf id limit = .ok cs ∧ (∀ c ∈ cs, c.choreId = id) ∧
    cs.map (·.completedAt) = shown.map .utc ∧ cs.length = min limit.toNat times.length ∧
    (shown ++ rest).Perm times ∧ (shown ++ rest).Pairwise fun i j => j ≤ i
  refused : ∀ limit : Int, 2 ^ 63 ≤ limit → l.completionsOf id limit = .error (.overflow .stored)

namespace RecordedAt

theorem latest (r : RecordedAt l id times) {last : Option Instant}
    (found : l.latestCompletion id = last.map Instant.stored) : LatestOf times (last.map .utc) := by
  rw [latestCompletion, r] at found
  cases last with
  | none =>
    refine ⟨iff_of_true rfl ?_, by simp⟩
    rw [List.eq_nil_iff_forall_not_mem]
    intro i hi
    obtain ⟨t, greatest, -⟩ := le_greatest? (List.mem_map_of_mem (f := Instant.stored) hi)
    cases found.symm.trans greatest
  | some i =>
    obtain ⟨j, hj, same⟩ := List.mem_map.1 (greatest?_mem found)
    obtain rfl := Instant.stored_inj.1 same
    refine ⟨iff_of_false (by simp) (List.ne_nil_of_mem hj), fun t given => ⟨j, hj, ?_, fun k hk => ?_⟩⟩
    · exact (Option.some.inj given).symm
    · obtain ⟨t, greatest, below⟩ := le_greatest? (List.mem_map_of_mem (f := Instant.stored) hk)
      obtain rfl := Option.some.inj (found.symm.trans greatest)
      exact Instant.stored_le_stored.1 below

theorem any (r : RecordedAt l id times) :
    ∃ found, l.completionExists id none = .ok found ∧ (found = true ↔ times ≠ []) := by
  refine ⟨_, rfl, ?_⟩
  have empty : times = [] ↔ l.completions.filter (·.choreId = id) = [] := by
    rw [← List.map_eq_nil_iff (f := Instant.stored), ← r, List.map_eq_nil_iff]
  rw [Ne, empty, Bool.not_eq_true', List.isEmpty_eq_false_iff]

theorem since (r : RecordedAt l id times) {t : Stamp} {i : Instant} (meant : t.instant? = some i) :
    ∃ found, l.completionExists id (some t) = .ok found ∧ (found = true ↔ ∃ j ∈ times, i ≤ j) := by
  refine ⟨(l.completions.filter (·.choreId = id)).any fun row => i.stored ≤ row.completedAt, ?_, ?_⟩
  · rw [completionExists, storable_eq_ok.2 meant]
    rfl
  · have texts : ((l.completions.filter (·.choreId = id)).any fun row => i.stored ≤ row.completedAt) =
        (times.map Instant.stored).any fun text => i.stored ≤ text := by
      rw [← r, List.any_map]
      rfl
    rw [texts, List.any_map]
    simp [Instant.stored_le_stored]

end RecordedAt

theorem Kept.read_completions (k : Kept l) {rows : List CompletionRow} (among : rows ⊆ l.completions) :
    ∃ (cs : List Completion) (times : List Instant),
      rows.mapM CompletionRow.read = .ok cs ∧ cs.map (·.choreId) = rows.map (·.choreId) ∧
      cs.map (·.completedAt) = times.map Stamp.utc ∧
      rows.map (·.completedAt) = times.map Instant.stored := by
  induction rows with
  | nil => exact ⟨[], [], rfl, rfl, rfl, rfl⟩
  | cons row rest ih =>
    obtain ⟨cs, times, read, own, given, stored⟩ := ih fun r hr => among (List.mem_cons_of_mem _ hr)
    obtain ⟨completed, created, at', made⟩ := k.completions row (among List.mem_cons_self)
    have first : row.read = .ok ⟨row.id, row.choreId, .utc completed, row.notes, .utc created⟩ := by
      rw [CompletionRow.read, at', made, ChoreRow.readTime_stored, ChoreRow.readTime_stored]
      rfl
    refine ⟨⟨row.id, row.choreId, .utc completed, row.notes, .utc created⟩ :: cs, completed :: times,
      ?_, ?_, ?_, ?_⟩
    · rw [List.mapM_cons, first, read]
      rfl
    · rw [List.map_cons, List.map_cons, own]
    · rw [List.map_cons, List.map_cons, given]
    · rw [List.map_cons, List.map_cons, at', stored]

theorem pairwise_newest (rows : List CompletionRow) :
    (rows.mergeSort fun a b => b.completedAt ≤ a.completedAt).Pairwise
      fun a b => b.completedAt ≤ a.completedAt := by
  have sorted : (rows.mergeSort fun a b => b.completedAt ≤ a.completedAt).Pairwise fun a b =>
      decide (b.completedAt ≤ a.completedAt) = true := by
    refine List.pairwise_mergeSort ?_ ?_ rows
    · intro a b c ab bc
      simp only [decide_eq_true_eq] at *
      exact String.le_trans bc ab
    · intro a b
      simpa using String.le_total b.completedAt a.completedAt
  exact sorted.imp of_decide_eq_true

theorem Kept.listed (k : Kept l) (r : RecordedAt l id times) {limit : Int} (low : 0 ≤ limit)
    (high : limit < 2 ^ 63) : ∃ (cs : List Completion) (shown rest : List Instant),
    l.completionsOf id limit = .ok cs ∧ (∀ c ∈ cs, c.choreId = id) ∧
    cs.map (·.completedAt) = shown.map .utc ∧ cs.length = min limit.toNat times.length ∧
    (shown ++ rest).Perm times ∧ (shown ++ rest).Pairwise fun i j => j ≤ i := by
  let rows := l.completions.filter (·.choreId = id)
  let sorted := rows.reverse.mergeSort fun a b => b.completedAt ≤ a.completedAt
  have perm : sorted.Perm rows := (List.mergeSort_perm _ _).trans (List.reverse_perm rows)
  have among : sorted ⊆ l.completions := fun row hr => (List.mem_filter.1 (perm.subset hr)).1
  have order : sorted.Pairwise fun a b => b.completedAt ≤ a.completedAt := pairwise_newest rows.reverse
  have front : sorted.take limit.toNat ⊆ l.completions := fun row hr => among (List.mem_of_mem_take hr)
  have back : sorted.drop limit.toNat ⊆ l.completions := fun row hr => among (List.mem_of_mem_drop hr)
  obtain ⟨cs, shown, read, own, given, stored⟩ := k.read_completions front
  obtain ⟨-, rest, -, -, -, stored'⟩ := k.read_completions back
  have whole : sorted.map (·.completedAt) = (shown ++ rest).map Instant.stored := by
    rw [List.map_append, ← stored, ← stored', ← List.map_append, List.take_append_drop]
  have all : (shown ++ rest).Perm times := by
    rw [← List.map_perm_map_iff fun _ _ => Instant.stored_inj.1, ← whole, ← r]
    exact perm.map _
  refine ⟨cs, shown, rest, ?_, ?_, given, ?_, all, ?_⟩
  · have limited : limited limit sorted = sorted.take limit.toNat := if_neg (Int.not_lt.2 low)
    change (fitting limit >>= fun _ => ((Ledger.limited limit sorted).mapM CompletionRow.read).mapError .row) = _
    rw [fitting_ok (by omega) high, limited, read]
    rfl
  · intro c hc
    have member : c.choreId ∈ (sorted.take limit.toNat).map (·.choreId) :=
      own ▸ List.mem_map_of_mem (f := (·.choreId)) hc
    obtain ⟨row, hr, same⟩ := List.mem_map.1 member
    rw [← same]
    exact of_decide_eq_true (List.mem_filter.1 (perm.subset (List.mem_of_mem_take hr))).2
  · have lengths := congrArg List.length own
    rw [List.length_map, List.length_map, List.length_take] at lengths
    rw [lengths, ← all.length_eq, ← List.length_map (f := Instant.stored), ← whole, List.length_map]
  · have texts : (sorted.map (·.completedAt)).Pairwise fun s t => t ≤ s := List.pairwise_map.2 order
    rw [whole, List.pairwise_map] at texts
    exact texts.imp Instant.stored_le_stored.1

theorem completionsOf_refused (l : Ledger) (id : String) {limit : Int} (high : 2 ^ 63 ≤ limit) :
    l.completionsOf id limit = .error (.overflow .stored) := by
  rw [completionsOf, fitting_error high]
  rfl

theorem Kept.answersBy (k : Kept l) (s : Sound l) (present : l.choreExists id = true)
    (r : RecordedAt l id times) : AnswersBy l id times := by
  refine ⟨?_, r.any, fun t i => r.since, fun limit => k.listed r, fun limit => completionsOf_refused l id⟩
  obtain ⟨row, hr, rfl⟩ := choreExists_iff.1 present
  obtain ⟨schedule, now, created, updated, valid, holds⟩ := k.chores row hr
  obtain ⟨latest, stored⟩ := k.latestCompletion row.id
  have read := holds.read valid latest
  rw [← stored] at read
  have member := mem_candidates.2 ⟨row, hr, read⟩
  exact ⟨_, member, k.chore?_candidate s member, r.latest stored,
    fun d hd same => k.candidate_unique s hd member same⟩

/-! ### The order of the completions -/

structure AnswersAlike (l l' : Ledger) (id : String) : Prop where
  last : ∃ c c', l.chore? id = .ok (some c) ∧ l'.chore? id = .ok (some c') ∧
    c'.lastCompletedAt = c.lastCompletedAt
  completionExists : ∀ since, l'.completionExists id since = l.completionExists id since

theorem AnswersBy.alike {l' : Ledger} {times' : List Instant} (h : AnswersBy l id times)
    (h' : AnswersBy l' id times') (same : times.Perm times') : AnswersAlike l l' id := by
  have equal {r r' : Except LedgerFault Bool} {p p' : Prop} (iff : p ↔ p')
      (told : ∃ found, r = .ok found ∧ (found = true ↔ p))
      (told' : ∃ found, r' = .ok found ∧ (found = true ↔ p')) : r' = r := by
    obtain ⟨found, rfl, means⟩ := told
    obtain ⟨found', rfl, means'⟩ := told'
    rw [Bool.eq_iff_iff.2 (means'.trans (iff.symm.trans means.symm))]
  constructor
  · obtain ⟨c, -, asked, last, -⟩ := h.chore
    obtain ⟨c', -, asked', last', -⟩ := h'.chore
    exact ⟨c, c', asked, asked', last'.unique last same.symm⟩
  · intro since
    cases since with
    | none =>
      refine equal (not_congr ?_) h.any h'.any
      exact ⟨fun none => (none ▸ same).symm.eq_nil, fun none => (none ▸ same).eq_nil⟩
    | some t =>
      cases meant : t.instant? with
      | none => simp only [Ledger.completionExists, storable, meant, Except.map]
      | some i =>
        refine equal ?_ (h.since t i meant) (h'.since t i meant)
        simp only [same.mem_iff]

end Ledger

end ChoreReminder
