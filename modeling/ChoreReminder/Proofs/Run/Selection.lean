import ChoreReminder.Proofs.Ledger.Selection
import ChoreReminder.Proofs.Run.Effect

/-! The selection of deliveries in every ledger that a run leaves behind. Rows carry numbers that tell in which
order they were inserted, over the whole run and past every removal; so the order of the line decides
between any two deliveries, and a limit takes the front of one line and no other. -/

namespace ChoreReminder

namespace Store

theorem run_numbered (episodes : List Episode) :
    Ledger.Numbered ((ofLedger .empty).run episodes).ledger :=
  (run_course (ofLedger .empty) episodes).elim fun _ course =>
    course.numbered Ledger.sound_empty Ledger.numbered_empty

end Store

namespace Ledger

variable {limit maxAttempts : Int}

theorem Course.number_lt {l l' : Ledger} {ms : List Mark} (course : Course l ms l') (s : Sound l)
    {d d' : Delivery} (hd : d ∈ l.deliveries) (hd' : d' ∈ l'.deliveries)
    (new : ∀ old ∈ l.deliveries, old.id ≠ d'.id) : d.number < d'.number := by
  rcases course.delivery hd' with ⟨old, member, rfl⟩ | ⟨fresh, -⟩
  · exact absurd (foldl_marked_id ms old).symm (new old member)
  · obtain ⟨n, -, id⟩ := (s.course course).deliveriesIssued d' hd'
    have late : ¬ n < l.ids.deliveries := fun early => fresh ⟨n, early, id⟩
    have before := s.number_le hd
    rw [number_of_id id]
    omega

/-- What is pending is the front of the line of all deliveries that may be attempted: each stands there once
with its own event, by due instant, creation and insertion, and none that is left out stands before one
that is listed. -/
theorem pending_in_line (episodes : List Episode) (cut : -2 ^ 63 ≤ limit ∧ limit < 2 ^ 63)
    (attempts : -2 ^ 63 ≤ maxAttempts ∧ maxAttempts < 2 ^ 63) :
    let l := ((Store.ofLedger empty).run episodes).ledger
    (∃ rows : List (Delivery × Event),
      (rows.map (·.1)).Perm (l.deliveries.filter fun d =>
        (d.status = .pending ∨ d.status = .failed) ∧ (d.attemptCount : Int) < maxAttempts) ∧
      (rows.map (·.1.id)).Nodup ∧
      (∀ row ∈ rows, ∀ e, e ∈ l.events ∧ e.id = row.1.eventId ↔ e = row.2) ∧
      rows.Pairwise AheadOf ∧
      let chosen := if limit < 0 then rows else rows.take limit.toNat
      l.pending limit maxAttempts = .ok (chosen.map item) ∧
      ∀ row ∈ rows, row ∉ chosen → ∀ row' ∈ chosen, AheadOf row' row) ∧
    ∀ later : List Episode,
      ∀ d' ∈ ((Store.ofLedger empty).run (episodes ++ later)).ledger.deliveries,
        (∀ d ∈ l.deliveries, d.id ≠ d'.id) → ∀ d ∈ l.deliveries, d.number < d'.number := by
  intro l
  have sound : Sound l := Store.run_sound episodes
  have numbered : Numbered l := Store.run_numbered episodes
  constructor
  · refine ⟨l.line maxAttempts, ?_, sound.line_ids maxAttempts, fun row hr e => sound.line_event hr e,
      numbered.line maxAttempts, pending_line l cut attempts, fun row hr out row' hr' =>
        numbered.ahead_of_left_out hr out hr'⟩
    have open' : isEligible maxAttempts = fun d : Delivery =>
        decide ((d.status = .pending ∨ d.status = .failed) ∧ (d.attemptCount : Int) < maxAttempts) := by
      funext d
      cases status : d.status <;> simp [isEligible, status]
    exact open' ▸ sound.line_deliveries maxAttempts
  · intro later d' hd' new d hd
    rw [Store.run_append] at hd'
    obtain ⟨ms, course⟩ := ((Store.ofLedger empty).run episodes).run_course later
    exact course.number_lt sound hd hd' new

/-- A chore is removed with its deliveries, later ones fall due earlier or at the same instant, and one of them
failed already. Two are selected of four that may be attempted. -/
theorem pending_in_line_removed :
    let at' (n : Nat) (fits : n < Calendar.limit) : Instant := ⟨n, fits⟩
    let chore (name : String) : Action := .createChore name .onceInAWhile none none
    let ask (n : Nat) (due : Instant) (channels : List String) : Action :=
      .upsert (rowId "c0000000" n) (.utc due) "Due" "Now" (channels.map some)
    let episodes : List Episode := [
      .step ⟨at' 1 (by decide), chore "Plants"⟩, .step ⟨at' 1 (by decide), chore "Windows"⟩,
      .step ⟨at' 2 (by decide), ask 1 (at' 5 (by decide)) ["telegram"]⟩,
      .step ⟨at' 2 (by decide), ask 2 (at' 5 (by decide)) ["telegram", "console"]⟩,
      .step ⟨at' 3 (by decide), .deleteChore (rowId "c0000000" 1)⟩,
      .step ⟨at' 2 (by decide), ask 2 (at' 4 (by decide)) ["telegram"]⟩,
      .step ⟨at' 2 (by decide), ask 2 (at' 5 (by decide)) ["mail"]⟩,
      .step ⟨at' 3 (by decide), .markFailed (rowId "f0000000" 2) "timeout"⟩]
    let l := ((Store.ofLedger empty).run episodes).ledger
    (∃ ps, l.pending 2 5 = .ok ps ∧
      ps.map (·.deliveryId) = [rowId "f0000000" 4, rowId "f0000000" 2]) ∧
    ∃ rows : List (Delivery × Event), rows.Pairwise AheadOf ∧
      l.pending 2 5 = .ok ((rows.take 2).map item) ∧
      ∀ row ∈ rows, row ∉ rows.take 2 → ∀ row' ∈ rows.take 2, AheadOf row' row := by
  intro at' chore ask episodes l
  obtain ⟨⟨rows, -, -, -, ordered, listed, left⟩, -⟩ := pending_in_line episodes
    (show -2 ^ 63 ≤ (2 : Int) ∧ (2 : Int) < 2 ^ 63 by decide)
    (show -2 ^ 63 ≤ (5 : Int) ∧ (5 : Int) < 2 ^ 63 by decide)
  refine ⟨?_, rows, ordered, listed, left⟩
  let row (n event : Nat) (channel : String) (tries : Nat) (due : Instant) : PendingDelivery × Instant :=
    (⟨rowId "f0000000" n, rowId "e0000000" event, channel, tries, rowId "c0000000" 2, due, "Due", "Now"⟩,
      at' 2 (by decide))
  have eligible : (l.deliveries.filter (isEligible 5)).filterMap
      (fun d => (l.joined? d).map (·, d.createdAt)) =
        [row 2 2 "telegram" 1 (at' 5 (by decide)), row 3 2 "console" 0 (at' 5 (by decide)),
          row 4 3 "telegram" 0 (at' 4 (by decide)), row 5 2 "mail" 0 (at' 5 (by decide))] := by
    decide +kernel
  have known : l.pending 2 5 =
      .ok [(row 4 3 "telegram" 0 (at' 4 (by decide))).1, (row 2 2 "telegram" 1 (at' 5 (by decide))).1] := by
    rw [pending, eligible, fitting_ok (by decide) (by decide), fitting_ok (by decide) (by decide)]
    simp [List.mergeSort, List.MergeSort.Internal.splitInTwo, attemptedBefore, row, at', limited, bind,
      Except.bind, pure, Except.pure]
  exact ⟨_, known, rfl⟩

end Ledger

end ChoreReminder
