import ChoreReminder.Proofs.Calendar.Order
import ChoreReminder.Proofs.Ledger.Kept
import ChoreReminder.Proofs.Ledger.Pending

/-! The chores as they are read for the agenda. There is one for each row, and what it tells depends on the
row and on the completions of the chore only; it counts from the latest completion. A chore that was
removed is never read again. -/

namespace ChoreReminder.Ledger

variable {l l' : Ledger} {c c' : Chore} {id : String}

theorem mem_candidates :
    c ∈ l.candidates.1 ↔ ∃ r ∈ l.chores, r.read (l.latestCompletion r.id) = .ok c := by
  refine (mem_readable fun r => r.read (l.latestCompletion r.id)).trans ?_
  exact exists_congr fun r => and_congr_left fun _ => List.mem_mergeSort

theorem candidates_congr (chores : l'.chores = l.chores) (completions : l'.completions = l.completions) :
    l'.candidates = l.candidates := by
  simp only [candidates, latestCompletion, chores, completions]

theorem chore?_of_mem {r : ChoreRow} (ids : (l.chores.map (·.id)).Nodup) (hr : r ∈ l.chores) :
    l.chore? r.id = ((r.read (l.latestCompletion r.id)).map some).mapError .row := by
  have found : l.chores.find? (·.id = r.id) = some r := by
    rw [← List.head?_filter, filter_key_eq ids hr rfl, List.head?_singleton]
  rw [chore?, found]

namespace Kept

theorem candidate_row (k : Kept l) (hc : c ∈ l.candidates.1) :
    ∃ r ∈ l.chores, r.id = c.id ∧ r.read (l.latestCompletion c.id) = .ok c := by
  obtain ⟨r, hr, read⟩ := mem_candidates.1 hc
  obtain ⟨d, -, same, id, -⟩ := k.read hr
  obtain rfl := Except.ok.inj (same.symm.trans read)
  exact ⟨r, hr, id.symm, id ▸ read⟩

theorem exists_candidate (k : Kept l) (present : l.choreExists id = true) :
    ∃ c ∈ l.candidates.1, c.id = id := by
  obtain ⟨r, hr, rfl⟩ := choreExists_iff.1 present
  obtain ⟨c, -, read, id, -⟩ := k.read hr
  exact ⟨c, mem_candidates.2 ⟨r, hr, read⟩, id⟩

theorem candidate_unique (k : Kept l) (s : Sound l) (hc : c ∈ l.candidates.1)
    (hc' : c' ∈ l.candidates.1) (same : c.id = c'.id) : c = c' := by
  obtain ⟨r, hr, id, read⟩ := k.candidate_row hc
  obtain ⟨r', hr', id', read'⟩ := k.candidate_row hc'
  obtain rfl := eq_of_key s.choreIds hr hr' (id.trans (same.trans id'.symm))
  rw [same] at read
  exact Except.ok.inj (read.symm.trans read')

theorem chore?_candidate (k : Kept l) (s : Sound l) (hc : c ∈ l.candidates.1) :
    l.chore? c.id = .ok (some c) := by
  obtain ⟨r, hr, id, read⟩ := k.candidate_row hc
  rw [← id, chore?_of_mem s.choreIds hr, id, read]
  rfl

theorem candidate_stays (k : Kept l) (hc : c ∈ l.candidates.1)
    (row : ∀ r ∈ l.chores, r.id = c.id → r ∈ l'.chores)
    (completions : l'.completions.filter (·.choreId = c.id) =
      l.completions.filter (·.choreId = c.id)) : c ∈ l'.candidates.1 := by
  obtain ⟨r, hr, id, read⟩ := k.candidate_row hc
  have latest : l'.latestCompletion c.id = l.latestCompletion c.id := by
    unfold Ledger.latestCompletion
    rw [completions]
  exact mem_candidates.2 ⟨r, row r hr id, by rw [id, latest, read]⟩

end Kept

/-! ### The latest completion -/

theorem le_greatest? {texts : List String} {s : String} (h : s ∈ texts) :
    ∃ t, greatest? texts = some t ∧ s ≤ t := by
  induction texts with
  | nil => exact absurd h List.not_mem_nil
  | cons u rest ih =>
    unfold greatest?
    cases hr : greatest? rest with
    | none =>
      rcases List.mem_cons.1 h with rfl | h
      · exact ⟨s, rfl, String.le_refl s⟩
      · obtain ⟨t, found, -⟩ := ih h
        rw [hr] at found
        cases found
    | some v =>
      by_cases le : u ≤ v
      · refine ⟨v, by simp only [le, if_true], ?_⟩
        rcases List.mem_cons.1 h with rfl | h
        · exact le
        · obtain ⟨t, found, below⟩ := ih h
          rw [hr] at found
          exact Option.some.inj found ▸ below
      · refine ⟨u, by simp only [le, if_false], ?_⟩
        rcases List.mem_cons.1 h with rfl | h
        · exact String.le_refl s
        · obtain ⟨t, found, below⟩ := ih h
          rw [hr] at found
          obtain rfl := Option.some.inj found
          exact String.le_trans below ((String.le_total u v).resolve_left le)

def CompletedAt (l : Ledger) (id : String) (i : Instant) : Prop :=
  ∃ c ∈ l.completions, c.choreId = id ∧ c.completedAt = i.stored

theorem Kept.base_ge (k : Kept l) (hc : c ∈ l.candidates.1) {i : Instant}
    (done : l.CompletedAt c.id i) : ∃ base, c.Settled base ∧ i ≤ base := by
  obtain ⟨r, hr, id, read⟩ := k.candidate_row hc
  obtain ⟨s, now, created, updated, valid, holds⟩ := k.chores r hr
  obtain ⟨latest, stored⟩ := k.latestCompletion c.id
  rw [stored, holds.read valid latest] at read
  obtain rfl := Except.ok.inj read
  refine ⟨latest.getD created, ⟨⟨now, valid⟩, by cases latest <;> rfl⟩, ?_⟩
  obtain ⟨completion, member, chore, at'⟩ := done
  have listed : i.stored ∈
      (l.completions.filter (·.choreId = r.id)).map (·.completedAt) :=
    List.mem_map.2 ⟨completion, List.mem_filter.2 ⟨member, decide_eq_true chore⟩, at'⟩
  obtain ⟨t, greatest, below⟩ := le_greatest? listed
  have found : latest.map Instant.stored = some t := stored.symm.trans greatest
  cases latest with
  | none => cases found
  | some j =>
    obtain rfl := Option.some.inj found
    exact Instant.stored_le_stored.1 below

/-! ### Chores that are gone -/

/-- The chore existed once and was removed. -/
structure ChoreGone (l : Ledger) (id : String) : Prop where
  issued : IsIssued "c0000000" l.ids.chores id
  gone : ∀ r ∈ l.chores, r.id ≠ id

namespace ChoreGone

theorem course {ms : List Mark} (h : Course l ms l') (g : ChoreGone l id) : ChoreGone l' id := by
  refine h.preserves (P := (ChoreGone · id)) (fun change g => ?_) (fun m g => ?_) g
  · obtain ⟨count, rows⟩ := change.chore
    refine ⟨g.issued.mono count, fun r hr same => ?_⟩
    rcases rows r hr with ⟨old, member, before⟩ | fresh
    · exact g.gone old member (before.trans same)
    · exact fresh (same ▸ g.issued)
  · rw [mark_ledger]
    exact ⟨g.issued, g.gone⟩

theorem no_event (g : ChoreGone l id) (s : Sound l) : ∀ e ∈ l.events, e.choreId ≠ id := by
  intro e he same
  obtain ⟨r, hr, chore⟩ := s.eventChore e he
  exact g.gone r hr (chore.trans same)

theorem no_candidate (g : ChoreGone l id) (k : Kept l) : ∀ c ∈ l.candidates.1, c.id ≠ id := by
  intro c hc same
  obtain ⟨r, hr, chore, -⟩ := k.candidate_row hc
  exact g.gone r hr (chore.trans same)

end ChoreGone

theorem Sound.chore_gone (s : Sound l) (present : ∃ r ∈ l.chores, r.id = id) :
    ChoreGone (l.deleteChore id).2 id := by
  obtain ⟨r, hr, rfl⟩ := present
  refine ⟨s.choresIssued r hr, fun r' hr' same => ?_⟩
  have stays := (List.mem_filter.1 hr').2
  simp [same] at stays

end ChoreReminder.Ledger
