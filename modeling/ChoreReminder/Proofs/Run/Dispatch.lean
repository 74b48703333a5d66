import ChoreReminder.Proofs.Ledger.Selection
import ChoreReminder.Proofs.Notify.Attempts
import ChoreReminder.Proofs.Run.Effect

/-! The exact effect of a tick of the dispatcher on a ledger that a run left behind and that can be reached. Each
pending delivery whose channel has a sender is handed once, in the order of the list, to the sender that was
registered last; the row of each pending delivery shows what came of it, and nothing else changes. -/

namespace ChoreReminder

namespace Delivery

def passed (now : Instant) (d : Delivery) : Delivery :=
  { d with
    status := .delivered, lastError := none, lastAttemptedAt := some now, deliveredAt := some now,
    updatedAt := now }

def refused (now : Instant) (reason : String) (d : Delivery) : Delivery :=
  { d with
    status := .failed, attemptCount := d.attemptCount + 1, lastError := some reason,
    lastAttemptedAt := some now, updatedAt := now }

/-- The row of a delivery that did not go through for this reason; it stays as it is if the reason cannot be
stored. -/
def refusedFor (now : Instant) (reason : LooseText) (d : Delivery) : Delivery :=
  match reason.whole? with
  | some reason => d.refused now reason
  | none => d

theorem marked_eq {d : Delivery} (open' : d.status ≠ .delivered) (now : Instant) (failure : Option String) :
    d.marked ⟨d.id, now, failure⟩ =
      match failure with
      | none => d.passed now
      | some reason => d.refused now reason := if_pos ⟨rfl, open'⟩

end Delivery

/-- What a tick leaves behind that finds these deliveries pending, given the sender of each channel and the
record of what was handed to them. -/
structure Dispatched.Exact {α σ : Type} (l : Ledger) (sender? : String → Option α) (now : Instant)
    (ps : List PendingDelivery) (sent : List (Sending α)) (d : Dispatched σ) : Prop where
  calls : sent.map (fun s => (s.sender, s.delivery)) =
    ps.filterMap fun p => (sender? p.channel).map (·, p)
  once : (ps.map (·.deliveryId)).Nodup
  rows : ∃ change : Delivery → Delivery,
    d.store = .ofLedger { l with deliveries := l.deliveries.map change } ∧
    ∀ row ∈ l.deliveries,
      (∀ s ∈ sent, s.delivery.deliveryId = row.id → change row =
        match s.answer with
        | .ok () => row.passed now
        | .error f => row.refusedFor now (if f.text = "" then f.kind else f.text)) ∧
      (∀ p ∈ ps, sender? p.channel = none → p.deliveryId = row.id →
        change row = row.refused now ("No sender configured for channel: " ++ p.channel)) ∧
      ((∀ p ∈ ps, p.deliveryId ≠ row.id) → change row = row)
  /-- Kinds of faults have names, so an error that is noted is never empty. -/
  errors : ∀ row ∈ d.store.ledger.deliveries, row.id ∈ ps.map (·.deliveryId) →
    (∀ s ∈ sent, s.delivery.deliveryId = row.id → ∀ f, s.answer = .error f →
      f.kind ≠ "" ∧ f.text.isWhole = true) → row.lastError ≠ some ""
  delivered : d.summary.delivered = sent.countP (·.answer.isOk)
  failed : d.summary.failed = sent.countP (!·.answer.isOk)
  unroutable : d.summary.unroutable = ps.countP fun p => (sender? p.channel).isNone
  total : d.summary.total = ps.length

namespace SendFault

theorem reason_ne_empty (f : SendFault) (kind : f.kind ≠ "") : f.reason ≠ "" := by
  unfold reason
  split
  · exact fun same => kind (LooseText.whole.inj same)
  · assumption

theorem reason_isWhole (f : SendFault) : f.reason.isWhole = f.text.isWhole := by
  unfold reason
  split
  · next silent => rw [silent]; rfl
  · rfl

end SendFault

namespace Attempt

def noted (now : Instant) (a : Attempt) (row : Delivery) : Delivery :=
  match a.outcome with
  | .delivered => row.passed now
  | .failed f => row.refusedFor now f.reason
  | .unroutable => row.refused now (Dispatcher.noSenderReason a.delivery.channel)

theorem noted_eq {row : Delivery} (open' : row.status ≠ .delivered) {now : Instant} {a : Attempt}
    (same : a.delivery.deliveryId = row.id) : (a.mark? now).elim row (row.marked ·) = a.noted now row := by
  have marked := Delivery.marked_eq open' now
  obtain ⟨p, _ | fault | _⟩ := a <;> rw [← same] at marked
  · exact marked none
  · simp only [mark?, noted, Delivery.refusedFor]
    cases fault.reason.whole? with
    | none => rfl
    | some reason => exact marked (some reason)
  · exact marked (some _)

variable {as : List Attempt} {now : Instant} {d : Delivery}

theorem foldl_marks_of_absent (absent : ∀ a ∈ as, a.delivery.deliveryId ≠ d.id) :
    (as.filterMap (·.mark? now)).foldl (fun d m => d.marked m) d = d := by
  refine Ledger.foldl_marked_of_absent fun m hm => ?_
  obtain ⟨a, ha, marked⟩ := List.mem_filterMap.1 hm
  rw [mark?_deliveryId marked]
  exact absent a ha

theorem foldl_marks_of_mem (once : (as.map (·.delivery.deliveryId)).Nodup) {a : Attempt} (ha : a ∈ as)
    (meant : a.delivery.deliveryId = d.id) :
    (as.filterMap (·.mark? now)).foldl (fun d m => d.marked m) d = (a.mark? now).elim d (d.marked ·) := by
  cases marked : a.mark? now with
  | some m =>
    exact Ledger.foldl_marked_of_mem (marks_nodup once now) (List.mem_filterMap.2 ⟨a, ha, marked⟩)
      ((mark?_deliveryId marked).trans meant)
  | none =>
    refine Ledger.foldl_marked_of_absent fun m hm hit => ?_
    obtain ⟨b, hb, marked'⟩ := List.mem_filterMap.1 hm
    obtain rfl := Ledger.eq_of_key once ha hb (meant.trans (hit.symm.trans (mark?_deliveryId marked')))
    cases marked.symm.trans marked'

end Attempt

theorem Dispatched.total_eq {σ : Type} (d : Dispatched σ) : d.summary.total = d.attempts.length := by
  simp only [DispatchSummary.total, summary]
  induction d.attempts with
  | nil => rfl
  | cons a rest ih =>
    obtain ⟨p, outcome⟩ := a
    cases outcome <;> simp at ih ⊢ <;> omega

namespace Dispatcher

variable {α σ : Type} {l : Ledger} {ps : List PendingDelivery} {limit maxAttempts : Int}
  {registry : Registry α} (now : Instant) {as : List Attempt}

theorem open_of_pending (sound : Ledger.Sound l) (pending : l.pending limit maxAttempts = .ok ps)
    {p : PendingDelivery} (hp : p ∈ ps) {row : Delivery} (hr : row ∈ l.deliveries)
    (same : p.deliveryId = row.id) : row.status ≠ .delivered := by
  obtain ⟨row', member, joined, eligible⟩ := (Ledger.pending_ok pending).1 p hp
  obtain ⟨-, e, -, id, -⟩ := Ledger.joined?_eq_some joined
  obtain rfl := Ledger.eq_of_key sound.deliveryIds member hr (id.symm.trans same)
  simp only [Ledger.isEligible, Bool.and_eq_true, bne_iff_ne] at eligible
  exact eligible.1

theorem noSenderReason_ne_empty (channel : String) : noSenderReason channel ≠ "" := by
  intro empty
  have prefix' : "No sender configured for channel: " = "" := (String.append_eq_empty_iff.1 empty).1
  exact absurd prefix' (by decide)

theorem attempts_once (sound : Ledger.Sound l) (pending : l.pending limit maxAttempts = .ok ps)
    (tried : as.map (·.delivery) = ps) : (as.map (·.delivery.deliveryId)).Nodup := by
  have once := (Ledger.pending_ok pending).2 sound.deliveryIds
  rwa [← tried, List.map_map] at once

theorem change_row (sound : Ledger.Sound l) (pending : l.pending limit maxAttempts = .ok ps)
    (tried : as.map (·.delivery) = ps) {a : Attempt} (ha : a ∈ as) {row : Delivery}
    (hr : row ∈ l.deliveries) (same : a.delivery.deliveryId = row.id) :
    (as.filterMap (·.mark? now)).foldl (fun d m => d.marked m) row = a.noted now row := by
  have open' := open_of_pending sound pending (tried ▸ List.mem_map_of_mem ha) hr same
  rw [Attempt.foldl_marks_of_mem (attempts_once sound pending tried) ha same, a.noted_eq open' same]

section Rows

variable (sound : Ledger.Sound l) (pending : l.pending limit maxAttempts = .ok ps)
  (tried : as.map (·.delivery) = ps) (fits : ∀ a ∈ as, a.Fits registry) {row : Delivery} (hr : row ∈ l.deliveries)

include sound pending tried fits hr

theorem change_sent {s : Sending α} (hs : s ∈ as.filterMap (·.sending? registry))
    (same : s.delivery.deliveryId = row.id) : (as.filterMap (·.mark? now)).foldl (fun d m => d.marked m) row =
      match s.answer with
      | .ok () => row.passed now
      | .error f => row.refusedFor now f.reason := by
  obtain ⟨a, ha, told⟩ := List.mem_filterMap.1 hs
  rcases (fits a ha).cases with ⟨-, -, unsent⟩ | ⟨sender, -, sending, said⟩
  · rw [unsent] at told
    cases told
  · obtain rfl := Option.some.inj (sending.symm.trans told)
    rw [change_row now sound pending tried ha hr same, Attempt.noted]
    rcases said with ⟨outcome, answer⟩ | ⟨f, outcome, answer⟩
    · rw [outcome, answer]
    · rw [outcome, answer]

theorem change_unroutable {p : PendingDelivery} (hp : p ∈ ps) (unknown : registry.get? p.channel = none)
    (same : p.deliveryId = row.id) : (as.filterMap (·.mark? now)).foldl (fun d m => d.marked m) row =
      row.refused now (noSenderReason p.channel) := by
  obtain ⟨a, ha, rfl⟩ := List.mem_map.1 (tried ▸ hp)
  rw [change_row now sound pending tried ha hr same, Attempt.noted, (fits a ha).2 unknown]

theorem change_lastError {p : PendingDelivery} (hp : p ∈ ps) (same : p.deliveryId = row.id)
    (named : ∀ s ∈ as.filterMap (·.sending? registry), s.delivery.deliveryId = row.id →
      ∀ f, s.answer = .error f → f.kind ≠ "" ∧ f.text.isWhole = true) :
    ((as.filterMap (·.mark? now)).foldl (fun d m => d.marked m) row).lastError ≠ some "" := by
  obtain ⟨a, ha, rfl⟩ := List.mem_map.1 (tried ▸ hp)
  rw [change_row now sound pending tried ha hr same, Attempt.noted]
  rcases (fits a ha).cases with ⟨-, outcome, -⟩ | ⟨sender, -, sending, ⟨outcome, -⟩ | ⟨f, outcome, answer⟩⟩
  · rw [outcome]
    exact fun empty => noSenderReason_ne_empty _ (Option.some.inj empty)
  · rw [outcome]
    exact Option.some_ne_none _ ∘ Eq.symm
  · obtain ⟨kind, storable⟩ := named _ (List.mem_filterMap.2 ⟨a, ha, sending⟩) same f answer
    rw [← f.reason_isWhole] at storable
    have worded := f.reason_ne_empty kind
    rw [outcome]
    dsimp only [Delivery.refusedFor]
    cases reason : f.reason with
    | whole reason' =>
      rw [reason] at worded
      exact fun empty => worded (congrArg LooseText.whole (Option.some.inj empty))
    | halved t =>
      rw [reason] at storable
      cases storable

end Rows

theorem summary_eq {d : Dispatched σ} (fits : ∀ a ∈ d.attempts, a.Fits registry) :
    let sent := d.attempts.filterMap (·.sending? registry)
    d.summary.delivered = sent.countP (·.answer.isOk) ∧ d.summary.failed = sent.countP (!·.answer.isOk) ∧
      d.summary.unroutable = d.attempts.countP fun a => (registry.get? a.delivery.channel).isNone := by
  simp only [Dispatched.summary, List.countP_filterMap]
  refine ⟨?_, ?_, ?_⟩ <;> refine List.countP_congr fun a ha => ?_ <;>
    rcases (fits a ha).cases with ⟨found, outcome, unsent⟩ |
      ⟨sender, found, sending, ⟨outcome, answer⟩ | ⟨f, outcome, answer⟩⟩
  case refine_1.inl | refine_2.inl => simp [outcome, unsent]
  case refine_3.inl | refine_3.inr.inl | refine_3.inr.inr => simp [outcome, found]
  all_goals simp [outcome, sending, answer, Except.isOk, Except.toBool]

theorem exact_of_attempts {d : Dispatched σ} {sender? : String → Option α}
    (senders : ∀ channel, registry.get? channel = sender? channel)
    (sound : Ledger.Sound l) (pending : l.pending limit maxAttempts = .ok ps)
    (tried : d.attempts.map (·.delivery) = ps) (fits : ∀ a ∈ d.attempts, a.Fits registry)
    (store : d.store = .ofLedger ((d.attempts.filterMap (·.mark? now)).foldl (fun l m => (l.mark m).2) l)) :
    d.Exact l sender? now ps (d.attempts.filterMap (·.sending? registry)) := by
  obtain rfl : registry.get? = sender? := funext senders
  obtain ⟨delivered, failed, unroutable⟩ := summary_eq fits
  rw [Ledger.foldl_mark_ledger] at store
  constructor
  case calls =>
    rw [← tried, List.map_filterMap, List.filterMap_map]
    refine List.filterMap_congr fun a _ => ?_
    rw [Attempt.sending?, Option.map_map]
    rfl
  case once => exact (Ledger.pending_ok pending).2 sound.deliveryIds
  case rows =>
    refine ⟨_, store, fun row hr => ⟨fun s hs same => change_sent now sound pending tried fits hr hs same,
      fun p hp unknown same => change_unroutable now sound pending tried fits hr hp unknown same,
      fun others => Ledger.foldl_marked_of_absent fun m hm => ?_⟩⟩
    obtain ⟨a, ha, marked⟩ := List.mem_filterMap.1 hm
    rw [Attempt.mark?_deliveryId marked]
    exact others a.delivery (tried ▸ List.mem_map_of_mem ha)
  case errors =>
    intro new hn marked named
    rw [store] at hn
    obtain ⟨old, hr, rfl⟩ := List.mem_map.1 hn
    obtain ⟨p, hp, same⟩ := List.mem_map.1 marked
    rw [Ledger.foldl_marked_id] at same named
    exact change_lastError now sound pending tried fits hr hp same named
  case delivered => exact delivered
  case failed => exact failed
  case unroutable =>
    rw [unroutable, ← tried, List.countP_map]
    rfl
  case total => rw [d.total_eq, ← tried, List.length_map]

theorem tick_ofLedger (send : α → PendingDelivery → σ → Except SendFault Unit × σ) (registry : Registry α)
    (senders : σ) (pending : l.pending limit maxAttempts = .ok ps) :
    let d := tick send registry now limit maxAttempts (.ofLedger l) senders
    let r := attemptsAt send registry ps senders
    d.attempts = r.1 ∧ d.senders = r.2 ∧
      d.store = .ofLedger ((r.1.filterMap (·.mark? now)).foldl (fun l m => (l.mark m).2) l) := by
  simp only [tick, Store.read_ofLedger, pending]
  obtain ⟨attempts, after, store⟩ :=
    attempts_eq send registry now maxAttempts ps ⟨[], .ofLedger l, senders, []⟩
  exact ⟨attempts.trans (List.nil_append _), after, store.trans (foldl_settle_ofLedger now _ l)⟩

/-- A tick hands every pending delivery of a channel with senders to the one registered last, once and in order,
notes in its row what came of it, and touches nothing else. -/
theorem tick_settles_batch (episodes : List Episode) (registrations : List (String × α))
    (send : α → PendingDelivery → σ → Except SendFault Unit × σ) (senders : σ)
    (batch : -2 ^ 63 ≤ limit ∧ limit < 2 ^ 63) (attempts : -2 ^ 63 ≤ maxAttempts ∧ maxAttempts < 2 ^ 63) :
    let l := ((Store.ofLedger .empty).run episodes).ledger
    let registry := (Registry.ofList registrations).1
    let d := tick send registry now limit maxAttempts (.ofLedger l) senders
    ∃ ps sent, l.pending limit maxAttempts = .ok ps ∧
      tick (recording send) registry now limit maxAttempts (.ofLedger l) (senders, []) = d.withRecord sent ∧
      d.Exact l (fun channel => registrations.reverse.lookup channel) now ps sent := by
  intro l registry d
  have sound : Ledger.Sound l := Store.run_sound episodes
  have pending := Ledger.pending_line l batch attempts
  obtain ⟨made, -, store⟩ := tick_ofLedger now send registry senders pending
  refine ⟨_, _, pending, tick_withRecord send registry now maxAttempts limit _ senders, ?_⟩
  refine exact_of_attempts now (Registry.get?_ofList registrations) sound pending ?_ ?_ ?_
  · rw [made, attemptsAt_deliveries]
  · rw [made]
    exact attemptsAt_fits send registry _ senders
  · rw [made]
    exact store

/-- Of three deliveries one has no sender. The others go to the second of two senders of a channel, which fails
without a word, and to the only one of another. -/
theorem tick_settles_batch_mixed :
    let at' (n : Nat) (fits : n < Calendar.limit) : Instant := ⟨n, fits⟩
    let episodes : List Episode := [
      .step ⟨at' 1 (by decide), .createChore "Plants" .onceInAWhile none none⟩,
      .step ⟨at' 2 (by decide), .upsert (rowId "c0000000" 1) (.utc (at' 5 (by decide))) "Due" "Now"
        [some "telegram", some "mail", some "console"]⟩]
    let send (sender : Nat) (_ : PendingDelivery) (senders : Unit) : Except SendFault Unit × Unit :=
      (if sender = 2 then .error (.broken "TimeoutError" "") else .ok (), senders)
    let registrations := [("telegram", 1), ("console", 3), ("telegram", 2)]
    let l := ((Store.ofLedger .empty).run episodes).ledger
    let registry := (Registry.ofList registrations).1
    let d := tick send registry (at' 6 (by decide)) 50 5 (.ofLedger l) ()
    ∃ ps sent, l.pending 50 5 = .ok ps ∧ ps.map (·.channel) = ["telegram", "mail", "console"] ∧
      tick (recording send) registry (at' 6 (by decide)) 50 5 (.ofLedger l) ((), []) = d.withRecord sent ∧
      sent.map (·.sender) = [2, 3] ∧
      d.Exact l (fun channel => registrations.reverse.lookup channel) (at' 6 (by decide)) ps sent := by
  intro at' episodes send registrations l registry d
  obtain ⟨ps, sent, pending, recorded, exact'⟩ := tick_settles_batch (at' 6 (by decide)) episodes registrations
    send () (show -2 ^ 63 ≤ (50 : Int) ∧ (50 : Int) < 2 ^ 63 by decide)
    (show -2 ^ 63 ≤ (5 : Int) ∧ (5 : Int) < 2 ^ 63 by decide)
  let row (n : Nat) (channel : String) : PendingDelivery × Instant :=
    (⟨rowId "f0000000" n, rowId "e0000000" 1, channel, 0, rowId "c0000000" 1, at' 5 (by decide), "Due",
      "Now"⟩, at' 2 (by decide))
  have eligible : (l.deliveries.filter (Ledger.isEligible 5)).filterMap
      (fun d => (l.joined? d).map (·, d.createdAt)) = [row 1 "telegram", row 2 "mail", row 3 "console"] := by
    decide +kernel
  have known : l.pending 50 5 = .ok [(row 1 "telegram").1, (row 2 "mail").1, (row 3 "console").1] := by
    rw [Ledger.pending, eligible, Ledger.fitting_ok (by decide) (by decide),
      Ledger.fitting_ok (by decide) (by decide)]
    simp [List.mergeSort, List.MergeSort.Internal.splitInTwo, Ledger.attemptedBefore, row, at', Ledger.limited,
      bind, Except.bind, pure, Except.pure]
  obtain rfl := Except.ok.inj (pending.symm.trans known)
  refine ⟨_, sent, pending, rfl, recorded, ?_, exact'⟩
  have calls := congrArg (List.map Prod.fst) exact'.calls
  rw [List.map_map] at calls
  exact calls

end Dispatcher

end ChoreReminder
