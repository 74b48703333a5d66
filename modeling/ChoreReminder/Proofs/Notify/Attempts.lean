import ChoreReminder.Proofs.Lookup
import ChoreReminder.Proofs.Notify.Tick

/-! The attempts of a tick, apart from the store. What becomes of an attempt is decided by the registry and the
senders alone, so the attempts of a tick can be told before any of them is noted; the store takes the
notes in the same order, one call for each, and what it refuses has no say in what is attempted. -/

namespace ChoreReminder

namespace Registry

variable {α : Type}

theorem get?_register (r : Registry α) (channel other : String) (sender : α) :
    (r.register channel sender).get? other = if other = channel then some sender else r.get? other := by
  obtain ⟨entries⟩ := r
  simp only [register, get?]
  induction entries with
  | nil => rw [set, lookup_cons_ite]
  | cons entry rest ih =>
    obtain ⟨c, s⟩ := entry
    by_cases replaced : c = channel
    · simp only [set, replaced, if_true, lookup_cons_ite]
      split <;> rfl
    · simp only [set, replaced, if_false, lookup_cons_ite, ih]
      by_cases same : other = c
      · rw [if_pos same, if_pos same, if_neg (same ▸ replaced)]
      · rw [if_neg same, if_neg same]

theorem get?_foldl_register {β : Type} {next : Registry α × β → String × α → Registry α × β}
    (registers : ∀ r entry, (next r entry).1 = r.1.register entry.1 entry.2) (senders : List (String × α))
    (r : Registry α × β) (channel : String) :
    (senders.foldl next r).1.get? channel = (senders.reverse.lookup channel).or (r.1.get? channel) := by
  induction senders generalizing r with
  | nil => rfl
  | cons entry rest ih =>
    obtain ⟨c, s⟩ := entry
    rw [List.foldl_cons, ih, registers, get?_register, List.reverse_cons, List.lookup_append, Option.or_assoc]
    simp only [lookup_cons_ite, List.lookup_nil]
    split <;> rfl

theorem get?_ofList (senders : List (String × α)) (channel : String) :
    (ofList senders).1.get? channel = senders.reverse.lookup channel :=
  (get?_foldl_register (fun _ _ => rfl) senders _ channel).trans Option.or_none

end Registry

namespace Attempt

def answer (a : Attempt) : Except SendFault Unit :=
  match a.outcome with
  | .failed f => .error f
  | _ => .ok ()

def Fits {α : Type} (registry : Registry α) (a : Attempt) : Prop :=
  a.outcome = .unroutable ↔ registry.get? a.delivery.channel = none

end Attempt

namespace Dispatcher

variable {α σ : Type} (send : α → PendingDelivery → σ → Except SendFault Unit × σ)
  (registry : Registry α) (now : Instant) (maxAttempts : Int)

theorem outcomeOf_unroutable (p : PendingDelivery) (senders : σ) :
    (outcomeOf send registry p senders).1 = .unroutable ↔ registry.get? p.channel = none := by
  unfold outcomeOf
  cases registry.get? p.channel with
  | none => simp
  | some sender =>
    dsimp only
    rcases send sender p senders with ⟨f | sent, after⟩ <;> simp

theorem attemptsAt_fits (ps : List PendingDelivery) (senders : σ) :
    ∀ a ∈ (attemptsAt send registry ps senders).1, a.Fits registry := by
  induction ps generalizing senders with
  | nil => exact fun a none => absurd none List.not_mem_nil
  | cons p rest ih =>
    intro a ha
    rcases List.mem_cons.1 ha with rfl | ha
    · exact outcomeOf_unroutable send registry p senders
    · exact ih _ a ha

/-! ### What senders are asked -/

end Dispatcher

structure Sending (α : Type) where
  sender : α
  delivery : PendingDelivery
  answer : Except SendFault Unit

def Dispatcher.recording {α σ : Type} (send : α → PendingDelivery → σ → Except SendFault Unit × σ)
    (sender : α) (p : PendingDelivery) (senders : σ × List (Sending α)) :
    Except SendFault Unit × σ × List (Sending α) :=
  let (answer, after) := send sender p senders.1
  (answer, after, senders.2 ++ [⟨sender, p, answer⟩])

def Dispatched.withRecord {α σ : Type} (sent : List (Sending α)) (d : Dispatched σ) :
    Dispatched (σ × List (Sending α)) := ⟨d.attempts, d.store, (d.senders, sent), d.notices⟩

def Attempt.sending? {α : Type} (registry : Registry α) (a : Attempt) : Option (Sending α) :=
  (registry.get? a.delivery.channel).map fun sender => ⟨sender, a.delivery, a.answer⟩

theorem Attempt.Fits.cases {α : Type} {registry : Registry α} {a : Attempt} (fits : a.Fits registry) :
    (registry.get? a.delivery.channel = none ∧ a.outcome = .unroutable ∧ a.sending? registry = none) ∨
    ∃ sender, registry.get? a.delivery.channel = some sender ∧
      a.sending? registry = some ⟨sender, a.delivery, a.answer⟩ ∧
      (a.outcome = .delivered ∧ a.answer = .ok () ∨ ∃ f, a.outcome = .failed f ∧ a.answer = .error f) := by
  obtain ⟨p, outcome⟩ := a
  simp only [Fits, sending?, answer] at fits ⊢
  cases found : registry.get? p.channel with
  | none => exact .inl ⟨rfl, fits.2 found, rfl⟩
  | some sender =>
    refine .inr ⟨sender, rfl, rfl, ?_⟩
    cases outcome with
    | delivered => exact .inl ⟨rfl, rfl⟩
    | failed f => exact .inr ⟨f, rfl, rfl⟩
    | unroutable =>
      rw [fits.1 rfl] at found
      cases found

namespace Dispatcher

variable {α σ : Type} (send : α → PendingDelivery → σ → Except SendFault Unit × σ)
  (registry : Registry α) (now : Instant) (maxAttempts : Int)

theorem recordFailure_withRecord (id : String) (reason : LooseText) (d : Dispatched σ) (sent : List (Sending α)) :
    recordFailure now id reason (d.withRecord sent) = (recordFailure now id reason d).withRecord sent := by
  simp only [recordFailure, Dispatched.withRecord]
  rcases d.store.write .markFailed fun l => l.noteFailed now id reason with ⟨_ | _, store⟩ <;> rfl

theorem recordSuccess_withRecord (id : String) (d : Dispatched σ) (sent : List (Sending α)) :
    recordSuccess now id (d.withRecord sent) = (recordSuccess now id d).withRecord sent := by
  simp only [recordSuccess, Dispatched.withRecord]
  rcases d.store.write .markDelivered fun l => .ok (l.markDelivered now id) with ⟨_ | _, store⟩ <;> rfl

theorem attempt_withRecord (d : Dispatched σ) (sent : List (Sending α)) (p : PendingDelivery) :
    attempt (recording send) registry now maxAttempts (d.withRecord sent) p =
      (attempt send registry now maxAttempts d p).withRecord
        (sent ++ ((⟨p, (outcomeOf send registry p d.senders).1⟩ : Attempt).sending? registry).toList) := by
  unfold attempt outcomeOf Attempt.sending?
  cases registry.get? p.channel with
  | none =>
    simp only [Option.map_none, Option.toList_none, List.append_nil, ← recordFailure_withRecord]
    rfl
  | some sender =>
    simp only [recording, Option.map_some, Option.toList_some]
    have senders : (d.withRecord sent).senders.1 = d.senders := rfl
    rw [senders]
    rcases send sender p d.senders with ⟨f | sent', after⟩
    · simp only [← recordFailure_withRecord]
      rfl
    · simp only [← recordSuccess_withRecord]
      rfl

theorem attempts_withRecord (ps : List PendingDelivery) (d : Dispatched σ) (sent : List (Sending α)) :
    ps.foldl (attempt (recording send) registry now maxAttempts) (d.withRecord sent) =
      (ps.foldl (attempt send registry now maxAttempts) d).withRecord
        (sent ++ (attemptsAt send registry ps d.senders).1.filterMap (·.sending? registry)) := by
  induction ps generalizing d sent with
  | nil => simp [attemptsAt]
  | cons p rest ih =>
    rw [List.foldl_cons, List.foldl_cons, attempt_withRecord, ih, attemptsAt,
      (attempt_eq send registry now maxAttempts d p).2.1]
    simp only [List.filterMap_cons, List.append_assoc]
    cases (⟨p, (outcomeOf send registry p d.senders).1⟩ : Attempt).sending? registry <;> rfl

theorem tick_withRecord (batchSize : Int) (s : Store) (senders : σ) :
    let d := tick send registry now batchSize maxAttempts s senders
    tick (recording send) registry now batchSize maxAttempts s (senders, []) =
      d.withRecord (d.attempts.filterMap (·.sending? registry)) := by
  simp only [tick]
  rcases s.read .pending fun l => l.pending batchSize maxAttempts with ⟨f | ps, s'⟩
  · rfl
  · have recorded := attempts_withRecord send registry now maxAttempts ps ⟨[], s', senders, []⟩ []
    rw [List.nil_append] at recorded
    rw [(attempts_eq send registry now maxAttempts ps ⟨[], s', senders, []⟩).1]
    exact recorded

end Dispatcher

end ChoreReminder
