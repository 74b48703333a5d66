import ChoreReminder.Proofs.Ledger.Queue
import ChoreReminder.Proofs.Run.Effect

/-! Chores do not interfere. A step that is meant for one chore, because it names the chore or a delivery of
one of its events, leaves everything that belongs to another chore as it was, and what is told of it. The
pending deliveries of the other chore keep their order; a limit may only cut them off at another
place, since it counts the deliveries of all chores. -/

namespace ChoreReminder

namespace Action

/-- The action is meant for a chore: it names the chore, or a delivery of one of its events. -/
def MeantFor (l : Ledger) (id : String) : Action → Prop
  | updateSchedule choreId _ | deleteChore choreId | complete choreId .. | upsert choreId .. => choreId = id
  | markDelivered delivery | markFailed delivery _ =>
    ∃ d ∈ l.deliveries, d.id = delivery ∧ l.owns id d = true
  | press _ query _ => Press.named? query = some id
  | _ => False

end Action

namespace Ledger

variable {l l' : Ledger} {id : String}

/-- Everything that is told of a chore is the same in both ledgers. Of the deliveries that are listed for the
next attempts, its own come in the same order, and without a limit they are the same. -/
structure TellsAlike (l l' : Ledger) (id : String) : Prop where
  part : l'.part id = l.part id
  chore : l'.chore? id = l.chore? id
  completions : ∀ limit, l'.completionsOf id limit = l.completionsOf id limit
  completionExists : ∀ since, l'.completionExists id since = l.completionExists id since
  events : l'.eventsOf (some id) = l.eventsOf (some id)
  deliveries : ∀ e ∈ l.eventsOf (some id), ∀ limit,
    l'.deliveriesOf (some e.id) limit = l.deliveriesOf (some e.id) limit
  pending : ∀ limit maxAttempts,
    (∃ f, l.pending limit maxAttempts = .error f ∧ l'.pending limit maxAttempts = .error f) ∨
    ∃ ps ps', l.pending limit maxAttempts = .ok ps ∧ l'.pending limit maxAttempts = .ok ps' ∧
      (ps.filter (·.choreId = id) <+: ps'.filter (·.choreId = id) ∨
        ps'.filter (·.choreId = id) <+: ps.filter (·.choreId = id)) ∧
      (limit < 0 → ps'.filter (·.choreId = id) = ps.filter (·.choreId = id))

theorem pending_fails_alike (l l' : Ledger) (limit maxAttempts : Int) :
    (∃ f, l.pending limit maxAttempts = .error f ∧ l'.pending limit maxAttempts = .error f) ∨
      ∃ ps ps', l.pending limit maxAttempts = .ok ps ∧ l'.pending limit maxAttempts = .ok ps' := by
  unfold pending
  cases fitting maxAttempts with
  | error f => exact .inl ⟨f, rfl, rfl⟩
  | ok =>
    cases fitting limit with
    | error f => exact .inl ⟨f, rfl, rfl⟩
    | ok => exact .inr ⟨_, _, rfl, rfl⟩

theorem Sound.tellsAlike (s : Sound l) (s' : Sound l') (present : l.choreExists id = true)
    (same : l'.part id = l.part id) : TellsAlike l l' id := by
  have named : id ≠ "" := by
    obtain ⟨r, hr, rfl⟩ := choreExists_iff.1 present
    exact (s.choresIssued r hr).ne_empty
  refine ⟨same, chore?_congr same, completionsOf_congr same, completionExists_congr same,
    eventsOf_congr same named, fun e he => ?_, fun limit maxAttempts => ?_⟩
  · obtain ⟨member, own⟩ := List.mem_filter.1 (List.mem_mergeSort.1 he)
    have own : e.choreId = id := by simpa [named] using own
    exact deliveriesOf_congr same member own (s.eventsIssued e member).ne_empty
  · refine (pending_fails_alike l l' limit maxAttempts).imp_right ?_
    rintro ⟨ps, ps', listed, listed'⟩
    obtain ⟨first, all⟩ := s.pending_part listed id
    obtain ⟨first', all'⟩ := s'.pending_part listed' id
    rw [same] at first' all'
    exact ⟨ps, ps', listed, listed', List.prefix_or_prefix_of_prefix first first',
      fun unlimited => (all' unlimited).trans (all unlimited).symm⟩

end Ledger

open Ledger (Sound TellsAlike)

namespace Store

variable {s : Store} {a b : String}

theorem perform_part (sound : Sound s.ledger) (apart : a ≠ b) {step : Step}
    (meant : step.action.MeantFor s.ledger a) : (s.perform step).ledger.part b = s.ledger.part b := by
  obtain ⟨now, action⟩ := step
  cases action with
  | updateSchedule choreId schedule =>
    obtain rfl : choreId = a := meant
    exact write_keeps (·.part b) (fun _ _ done => Ledger.part_updateSchedule apart done) _
  | deleteChore choreId =>
    obtain rfl : choreId = a := meant
    refine write_keeps (·.part b) (fun _ l' done => ?_) _
    obtain rfl : (s.ledger.deleteChore choreId).2 = l' := congrArg Prod.snd (Except.ok.inj done)
    exact sound.part_deleteChore apart
  | complete choreId completedAt notes =>
    obtain rfl : choreId = a := meant
    exact write_keeps (·.part b) (fun _ _ done => Ledger.part_complete apart done) _
  | upsert choreId due title body channels =>
    obtain rfl : choreId = a := meant
    exact write_keeps (·.part b) (fun _ _ done => sound.part_upsert apart done) _
  | markDelivered delivery =>
    obtain ⟨d, hd, same, own⟩ := meant
    refine write_keeps (·.part b) (fun _ l' done => ?_) _
    obtain rfl : (s.ledger.mark ⟨delivery, now, none⟩).2 = l' := congrArg Prod.snd (Except.ok.inj done)
    exact sound.part_mark apart hd same own
  | markFailed delivery reason =>
    obtain ⟨d, hd, same, own⟩ := meant
    refine write_keeps (·.part b) (fun _ l' done => ?_) _
    obtain rfl : (s.ledger.mark ⟨delivery, now, some reason⟩).2 = l' :=
      congrArg Prod.snd (Except.ok.inj done)
    exact sound.part_mark apart hd same own
  | press c query wire =>
    rcases Press.handle_ledger c now query ⟨s, wire, []⟩ with same | ⟨choreId, completion, named, done⟩
    · exact congrArg (·.part b) same
    · obtain rfl := Option.some.inj (named.symm.trans meant)
      exact Ledger.part_complete apart done
  | _ => exact meant.elim

/-- A step that is meant for one chore changes nothing of another one, whichever calls fail: neither its rows
nor what is told of it, and its pending deliveries stay in their order. -/
theorem chores_apart (before : List Episode) {a b : String} (apart : a ≠ b) (step : Step)
    (present : ((ofLedger .empty).run before).ledger.choreExists b = true)
    (meant : step.action.MeantFor ((ofLedger .empty).run before).ledger a) :
    let s := (ofLedger .empty).run before
    TellsAlike s.ledger (s.perform step).ledger b := by
  intro s
  have sound : Sound s.ledger := run_sound before
  obtain ⟨ms, course⟩ := (s.episode_effect (.step step)).course
  exact sound.tellsAlike (sound.course course) present (perform_part sound apart meant)

/-- Two chores with an event each; one of them is removed, and the delivery of the other one stays. -/
theorem chores_apart_removed :
    let hour (n : Nat) (h : n * Calendar.hour < Calendar.limit := by decide) : Instant :=
      ⟨n * Calendar.hour, h⟩
    let first := rowId "c0000000" 1
    let second := rowId "c0000000" 2
    let create (name : String) : Episode := .step ⟨hour 240, .createChore name .onceInAWhile none none⟩
    let ask (id : String) (n : Nat) (h : n * Calendar.hour < Calendar.limit := by decide) : Episode :=
      .step ⟨hour 240, .upsert id (.utc (hour n h)) "Due" "Due" [some "telegram"]⟩
    let before := [create "Plants", create "Windows", ask second 239, ask first 238,
      .step ⟨hour 240, .complete second none none⟩]
    let s := (ofLedger .empty).run before
    let step : Step := ⟨hour 241, .deleteChore first⟩
    first ≠ second ∧ s.ledger.choreExists second = true ∧ step.action.MeantFor s.ledger first ∧
    TellsAlike s.ledger (s.perform step).ledger second ∧
    s.ledger.deliveries.length = 2 ∧
    (s.perform step).ledger.deliveries = (s.ledger.part second).deliveries := by
  intro hour first second create ask before s step
  have apart : first ≠ second := by decide +kernel
  have present : s.ledger.choreExists second = true := by decide +kernel
  exact ⟨apart, present, rfl, chores_apart before apart step present rfl, by decide +kernel,
    by decide +kernel⟩

end Store

end ChoreReminder
