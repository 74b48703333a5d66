import ChoreReminder.Proofs.Run.Dispatch
import ChoreReminder.Proofs.Telegram.Keyboard
import ChoreReminder.Proofs.Text.Halved

/-! Messages that the remote side took. A message counts as sent only if the reply to its request says so in as
many words: status 200 and an object whose `ok` is true. Any other reply is a refusal with a reason, and a
transport that breaks down is passed on as it is. So a tick marks a delivery that it posts as delivered exactly
if it was taken, each by the reply to its own request, and else as failed, unless the reason in the reply has half
of a surrogate pair in it: then the failure is lost on the row, which stays as it was. -/

namespace ChoreReminder

def HttpReply.Accepts (reply : HttpReply) : Prop :=
  ∃ body members, reply = .answer 200 body ∧ Datum.Json.readSent? body = some (.obj members) ∧
    ((Datum.obj members).get "ok").isTruthy = true

/-- The reason that the reply gives has half of a surrogate pair in it. -/
def HttpReply.HalvedReason : HttpReply → Prop
  | .answer _ body => ∃ members t, Datum.Json.readSent? body = some (.obj members) ∧
      (Datum.obj members).get "description" = .halved t
  | .lost _ text | .broken _ text => ∃ t, text = .halved t

def Wire.replyAt (w : Wire) (i : Nat) : HttpReply := w.replies[i]?.getD defaultReply

theorem Wire.replyAt_zero (w : Wire) : w.replyAt 0 = w.reply := by
  rw [replyAt, reply, List.head?_eq_getElem?]

theorem Wire.replyAt_after (w : Wire) (r : HttpRequest) (i : Nat) : (w.after r).replyAt i = w.replyAt (i + 1) := by
  rw [replyAt, replyAt, after, List.getElem?_tail]

namespace TelegramChannel

variable {method : BotMethod} {reply : HttpReply}

/-! ### What a reply comes to -/

theorem interpret_ok_iff {status : Int} {body : String} :
    (∃ d, interpret method status body = .ok d) ↔ (HttpReply.answer status body).Accepts := by
  unfold HttpReply.Accepts interpret
  dsimp only
  rcases read : Datum.Json.readSent? body with _ | data
  · have missing : ((Datum.obj []).get "ok").isTruthy = false := rfl
    simp [read, missing]
  · cases data with
    | obj members =>
      simp only [Option.getD_some]
      by_cases good : status = 200 ∧ ((Datum.obj members).get "ok").isTruthy = true
      · rw [if_pos good]
        exact ⟨fun _ => ⟨body, members, by rw [good.1], read, good.2⟩, fun _ => ⟨_, rfl⟩⟩
      · rw [if_neg good]
        refine ⟨nofun, ?_⟩
        rintro ⟨body', members', same, read', ok⟩
        obtain ⟨rfl, rfl⟩ := HttpReply.answer.inj same
        obtain rfl := Datum.obj.inj (Option.some.inj (read.symm.trans read'))
        exact absurd ⟨rfl, ok⟩ good
    | _ => simp [read]

theorem outcome_ok_iff : (∃ d, outcome method reply = .ok d) ↔ reply.Accepts := by
  cases reply with
  | answer status body => exact interpret_ok_iff
  | lost kind text => simp [outcome, HttpReply.Accepts]
  | broken kind text => simp [outcome, HttpReply.Accepts]

theorem message_of_outcome {f : CallFault} (failed : outcome method reply = .error f)
    (refusal : f.isRefusal = true) : ∃ rest, f.message = method.name ++ rest := by
  cases reply with
  | answer status body =>
    simp only [outcome, interpret] at failed
    split at failed
    · split at failed
      · cases failed
      · cases failed
        exact ⟨_, by simp only [CallFault.message, LooseText.append_assoc]; rfl⟩
    · cases failed
      exact ⟨_, by simp only [CallFault.message, LooseText.append_assoc]; rfl⟩
  | lost kind text =>
    cases failed
    exact ⟨_, by simp only [CallFault.message, LooseText.append_assoc]; rfl⟩
  | broken kind text =>
    cases failed
    cases refusal

theorem display_isHalved (d : Datum) : d.display.isWhole = false ↔ ∃ t, d = .halved t := by
  cases d <;> simp [Datum.display, LooseText.isWhole]

theorem refusal_isHalved {description : Datum} {text : String} :
    (if description.isTruthy then description.display else .whole text : LooseText).isWhole = false ↔
      ∃ t, description = .halved t := by
  by_cases present : description.isTruthy = true
  · rw [if_pos present, display_isHalved]
  · rw [if_neg present]
    refine ⟨nofun, ?_⟩
    rintro ⟨t, rfl⟩
    exact absurd rfl present

theorem message_isHalved {f : CallFault} (failed : outcome method reply = .error f) :
    f.message.isWhole = false ↔ reply.HalvedReason := by
  cases reply with
  | lost kind text =>
    cases failed
    simp [CallFault.message, HttpReply.HalvedReason, LooseText.isWhole_eq_false]
  | broken kind text =>
    cases failed
    exact LooseText.isWhole_eq_false
  | answer status body =>
    simp only [outcome, interpret] at failed
    rcases read : Datum.Json.readSent? body with _ | data
    · have silent : ((Datum.obj []).get "description").isTruthy = false := rfl
      rw [read] at failed
      simp only [Option.getD_none] at failed
      split at failed
      · cases failed
      · cases failed
        simp [CallFault.message, HttpReply.HalvedReason, read, silent]
    · rw [read, Option.getD_some] at failed
      cases data with
      | obj members =>
        dsimp only at failed
        split at failed
        · cases failed
        · cases failed
          simp [CallFault.message, HttpReply.HalvedReason, read, refusal_isHalved]
      | _ =>
        cases failed
        simp [CallFault.message, HttpReply.HalvedReason, read]

/-! ### What a sending comes to -/

theorem verdict_ok_iff : verdict reply = .ok () ↔ reply.Accepts := by
  have called : (∃ d, outcome .sendMessage reply = .ok d) ↔ reply.Accepts := outcome_ok_iff
  rw [← called, verdict]
  cases outcome .sendMessage reply <;> simp

theorem verdict_refused (refused : ¬ reply.Accepts) (whole : ∀ kind text, reply ≠ .broken kind text) :
    ∃ rest, verdict reply = .error (.refused ("Telegram send failed: sendMessage" ++ rest)) := by
  cases came : outcome .sendMessage reply with
  | ok d => exact absurd (outcome_ok_iff.1 ⟨d, came⟩) refused
  | error f =>
    have refusal := (outcome_isRefusal came).2 whole
    obtain ⟨rest, message⟩ := message_of_outcome came refusal
    have told : sendFault f = .refused ("Telegram send failed: " ++ f.message) := by
      cases f <;> first | rfl | cases refusal
    have start : ("Telegram send failed: sendMessage" : LooseText) =
        "Telegram send failed: " ++ (BotMethod.sendMessage.name : LooseText) := rfl
    refine ⟨rest, ?_⟩
    rw [verdict, came, start, LooseText.append_assoc, ← message, ← told]

theorem sendFault_isWhole (f : CallFault) : (sendFault f).text.isWhole = f.message.isWhole := by
  cases f <;> simp [sendFault, SendFault.text, CallFault.message]

theorem verdict_isHalved {f : SendFault} (failed : verdict reply = .error f) :
    f.reason.isWhole = false ↔ reply.HalvedReason := by
  unfold verdict at failed
  cases came : outcome .sendMessage reply with
  | ok d =>
    rw [came] at failed
    cases failed
  | error g =>
    rw [came] at failed
    obtain rfl := Except.error.inj failed
    rw [SendFault.reason_isWhole, sendFault_isWhole, message_isHalved came]

theorem verdict_kind (named : ∀ kind text, reply = .broken kind text → kind ≠ "") {f : SendFault}
    (failed : verdict reply = .error f) : f.kind ≠ "" := by
  by_cases broken : ∃ kind text, reply = .broken kind text
  · obtain ⟨kind, text, rfl⟩ := broken
    cases failed
    exact named kind text rfl
  · have refused : ¬ reply.Accepts := by
      rw [← verdict_ok_iff, failed]
      exact nofun
    obtain ⟨rest, told⟩ := verdict_refused refused fun kind text same => broken ⟨kind, text, same⟩
    obtain rfl := Except.error.inj (failed.symm.trans told)
    exact (by decide : "ChannelSendError" ≠ "")

end TelegramChannel

namespace Dispatcher

open TelegramChannel (verdict verdict_ok_iff verdict_refused verdict_kind verdict_isHalved send_eq)

variable {β σ : Type} (other : β → PendingDelivery → σ → Except SendFault Unit × σ)
  (registry : Registry (TelegramChannel ⊕ β)) (now : Instant) (maxAttempts : Int)

def told : Except SendFault Unit → Outcome
  | .ok () => .delivered
  | .error f => .failed f

def posts (as : List Attempt) : List Attempt := as.filter fun a => (poster? registry a.delivery).isSome

theorem outcomeOf_posted {p : PendingDelivery} {c : TelegramChannel} (poster : poster? registry p = some c)
    (w : Wire) (x : σ) : outcomeOf (sendEither other) registry p (w, x) =
      (told (verdict w.reply), (w.after (c.sendRequest p), x)) := by
  obtain ⟨sender, found, left⟩ := Option.bind_eq_some_iff.1 poster
  cases sender with
  | inr b => cases left
  | inl c' =>
    cases left
    simp only [outcomeOf, found, sendEither, send_eq]
    cases verdict w.reply <;> rfl

theorem outcomeOf_wire {p : PendingDelivery} (poster : poster? registry p = none) (w : Wire) (x : σ) :
    (outcomeOf (sendEither other) registry p (w, x)).2.1 = w := by
  unfold outcomeOf
  cases found : registry.get? p.channel with
  | none => rfl
  | some sender =>
    cases sender with
    | inl c => simp [poster?, found] at poster
    | inr b =>
      simp only [sendEither]
      rcases (other b p x).1 with f | sent <;> rfl

theorem attemptsAt_replies (ps : List PendingDelivery) (w : Wire) (x : σ) {i : Nat} {a : Attempt}
    (posted : (posts registry (attemptsAt (sendEither other) registry ps (w, x)).1)[i]? = some a) :
    a.outcome = told (verdict (w.replyAt i)) := by
  induction ps generalizing w x i with
  | nil => cases posted
  | cons p rest ih =>
    unfold posts at posted ih
    cases poster : poster? registry p with
    | none =>
      have wire := outcomeOf_wire other registry poster w x
      simp only [attemptsAt, List.filter_cons, poster, Option.isSome_none, Bool.false_eq_true, if_false] at posted
      rw [← Prod.mk.eta (p := (outcomeOf (sendEither other) registry p (w, x)).2), wire] at posted
      exact ih _ _ posted
    | some c =>
      simp only [attemptsAt, List.filter_cons, poster, Option.isSome_some, if_true,
        outcomeOf_posted other registry poster] at posted
      cases i with
      | zero =>
        obtain rfl := Option.some.inj posted
        rw [w.replyAt_zero]
      | succ i => rw [← w.replyAt_after (c.sendRequest p)]; exact ih _ _ posted

theorem attempted_row {l : Ledger} {ps : List PendingDelivery} {limit : Int} {as : List Attempt}
    (sound : Ledger.Sound l) (pending : l.pending limit maxAttempts = .ok ps)
    (tried : as.map (·.delivery) = ps) {a : Attempt} (ha : a ∈ as) :
    ∃ row, l.delivery? a.delivery.deliveryId = some row ∧
      ((as.filterMap (·.mark? now)).foldl (fun l m => (l.mark m).2) l).delivery? a.delivery.deliveryId =
        some (a.noted now row) := by
  have hp : a.delivery ∈ ps := tried ▸ List.mem_map_of_mem ha
  obtain ⟨held, member, joined, -⟩ := (Ledger.pending_ok pending).1 _ hp
  obtain ⟨-, -, -, id, -⟩ := Ledger.joined?_eq_some joined
  have found : (l.delivery? a.delivery.deliveryId).isSome :=
    List.find?_isSome.2 ⟨held, member, decide_eq_true id.symm⟩
  obtain ⟨row, known⟩ := Option.isSome_iff_exists.1 found
  have hr : row ∈ l.deliveries := List.mem_of_find?_eq_some known
  have same : row.id = a.delivery.deliveryId := by simpa using List.find?_some known
  have changed : (as.filterMap (·.mark? now)).foldl (fun d m => d.marked m) row = a.noted now row :=
    change_row now sound pending tried ha hr same.symm
  refine ⟨row, known, ?_⟩
  rw [← changed, Ledger.foldl_mark_ledger, Ledger.delivery?, List.find?_map]
  simp only [Function.comp_def, Ledger.foldl_marked_id]
  exact congrArg (Option.map _) known

theorem noted_of_reply {reply : HttpReply} {a : Attempt} (outcome : a.outcome = told (verdict reply)) (row : Delivery) :
    (reply.Accepts → a.noted now row = row.passed now) ∧
    (¬ reply.Accepts → ¬ reply.HalvedReason → ∃ reason, a.noted now row = row.refused now reason ∧
      ((∀ kind text, reply = .broken kind text → kind ≠ "") → reason ≠ "")) ∧
    (¬ reply.Accepts → reply.HalvedReason → a.noted now row = row) := by
  rw [Attempt.noted, outcome]
  cases said : verdict reply with
  | ok sent =>
    have taken := verdict_ok_iff.1 said
    exact ⟨fun _ => rfl, fun refused => absurd taken refused, fun refused => absurd taken refused⟩
  | error f =>
    have untaken : ¬ reply.Accepts := fun taken => by
      rw [verdict_ok_iff.2 taken] at said
      cases said
    have halved := verdict_isHalved said
    have worded (named : ∀ kind text, reply = .broken kind text → kind ≠ "") :=
      f.reason_ne_empty (verdict_kind named said)
    dsimp only [told, Delivery.refusedFor]
    cases reason : f.reason with
    | whole text =>
      rw [reason] at halved worded
      exact ⟨fun taken => absurd taken untaken,
        fun _ _ => ⟨text, rfl, fun named empty => worded named (congrArg LooseText.whole empty)⟩,
        fun _ half => absurd (halved.2 half) (by simp)⟩
    | halved text =>
      rw [reason] at halved
      exact ⟨fun taken => absurd taken untaken, fun _ whole => absurd (halved.1 rfl) whole, fun _ _ => rfl⟩

/-- A sending succeeds exactly if the reply to its one request says so. Every other reply is a refusal that names
the method, and a transport that breaks down is passed on. So a tick on a ledger that a run left behind marks a
delivery that it posts as delivered if the reply to it says so, and else as failed, with a reason; but if the reason
in the reply has half of a surrogate pair in it, the row stays as it was. -/
theorem posted_iff_accepted (c : TelegramChannel) (p : PendingDelivery) (w : Wire) (episodes : List Episode)
    (batchSize : Int) (state : σ) :
    ((c.send p w).2 = w.after (c.sendRequest p) ∧ ((c.send p w).1 = .ok () ↔ w.reply.Accepts) ∧
      (∀ kind text, w.reply = .broken kind text → (c.send p w).1 = .error (.broken kind text)) ∧
      (¬ w.reply.Accepts → ¬ w.Breaks →
        ∃ rest, (c.send p w).1 = .error (.refused ("Telegram send failed: sendMessage" ++ rest)))) ∧
    let l := ((Store.ofLedger .empty).run episodes).ledger
    let d := tick (sendEither other) registry now batchSize maxAttempts (.ofLedger l) (w, state)
    (∀ ps, l.pending batchSize maxAttempts = .ok ps → d.attempts.map (·.delivery) = ps) ∧
    d.senders.1.requests = w.requests ++ postRequests registry (d.attempts.map (·.delivery)) ∧
    ∀ i a, (posts registry d.attempts)[i]? = some a → ∃ row row' : Delivery,
      l.delivery? a.delivery.deliveryId = some row ∧
      d.store.ledger.delivery? a.delivery.deliveryId = some row' ∧
      ((w.replyAt i).Accepts → row' = row.passed now) ∧
      (¬ (w.replyAt i).Accepts → ¬ (w.replyAt i).HalvedReason → ∃ reason, row' = row.refused now reason ∧
        ((∀ kind text, w.replyAt i = .broken kind text → kind ≠ "") → reason ≠ "")) ∧
      (¬ (w.replyAt i).Accepts → (w.replyAt i).HalvedReason → row' = row) := by
  constructor
  case left =>
    rw [send_eq]
    exact ⟨rfl, verdict_ok_iff, fun kind text broken => by rw [broken]; rfl, fun refused whole =>
      verdict_refused refused fun kind text broken => whole ⟨kind, text, broken⟩⟩
  case right =>
    intro l d
    have sound : Ledger.Sound l := Store.run_sound episodes
    cases pending : l.pending batchSize maxAttempts with
    | error f =>
      have none' : d.attempts = [] := by simp only [d, tick, Store.read_ofLedger, pending]
      refine ⟨fun ps found => ?_, tick_requests other registry now maxAttempts batchSize _ _, fun i a posted => ?_⟩
      · cases found
      · rw [none'] at posted
        cases posted
    | ok ps =>
      obtain ⟨made, -, store⟩ := tick_ofLedger now (sendEither other) registry (w, state) pending
      have tried : d.attempts.map (·.delivery) = ps := by rw [made, attemptsAt_deliveries]
      refine ⟨fun ps' found => tried.trans (Except.ok.inj found),
        tick_requests other registry now maxAttempts batchSize _ _, fun i a posted => ?_⟩
      have member : a ∈ d.attempts := (List.mem_filter.1 (List.mem_of_getElem? posted)).1
      have outcome := attemptsAt_replies other registry ps w state (made ▸ posted)
      obtain ⟨row, known, settled⟩ := attempted_row now maxAttempts sound pending tried member
      rw [← made] at store
      exact ⟨row, a.noted now row, known, store ▸ settled, noted_of_reply now outcome row⟩

/-- A reply with status 200 whose `ok` is zero leaves its delivery failed, with a reason. -/
theorem posted_iff_accepted_refused :
    let at' (n : Nat) (fits : n < Calendar.limit) : Instant := ⟨n, fits⟩
    let episodes : List Episode := [
      .step ⟨at' 1 (by decide), .createChore "Plants" .onceInAWhile none none⟩,
      .step ⟨at' 2 (by decide), .upsert (rowId "c0000000" 1) (.utc (at' 5 (by decide))) "Due" "Now"
        [some "telegram"]⟩]
    let c : TelegramChannel := ⟨"1:abc", 42, 30000⟩
    let other (_ : Empty) (_ : PendingDelivery) (x : Unit) : Except SendFault Unit × Unit := (.ok (), x)
    let registry := (Registry.ofList [("telegram", Sum.inl c)]).1
    let w : Wire := ⟨[.answer 200 "\x7b\"ok\":0\x7d"], []⟩
    let l := ((Store.ofLedger .empty).run episodes).ledger
    let d := tick (sendEither other) registry (at' 6 (by decide)) 50 5 (.ofLedger l) (w, ())
    ¬ w.reply.Accepts ∧ ∃ row row' reason, l.delivery? (rowId "f0000000" 1) = some row ∧
      d.store.ledger.delivery? (rowId "f0000000" 1) = some row' ∧ row'.status = .failed ∧
      row'.lastError = some reason ∧ reason ≠ "" := by
  intro at' episodes c other registry w l d
  let p : PendingDelivery := ⟨rowId "f0000000" 1, rowId "e0000000" 1, "telegram", 0, rowId "c0000000" 1,
    at' 5 (by decide), "Due", "Now"⟩
  have eligible : (l.deliveries.filter (Ledger.isEligible 5)).filterMap
      (fun d => (l.joined? d).map (·, d.createdAt)) = [(p, at' 2 (by decide))] := by decide +kernel
  have pending : l.pending 50 5 = .ok [p] := by
    rw [Ledger.pending, eligible, Ledger.fitting_ok (by decide) (by decide),
      Ledger.fitting_ok (by decide) (by decide)]
    simp [Ledger.limited, bind, Except.bind, pure, Except.pure]
  obtain ⟨⟨-, taken, -⟩, attempts, -, rows⟩ :=
    posted_iff_accepted other registry (at' 6 (by decide)) 5 c p w episodes 50 ()
  have refused : ¬ w.reply.Accepts := by
    rw [← taken]
    decide +kernel
  have tried := attempts _ pending
  obtain ⟨a, only⟩ := List.length_eq_one_iff.1 (by simpa using congrArg List.length tried)
  rw [only] at tried rows
  have delivery : a.delivery = p := (List.cons.inj tried).1
  have posted : posts registry [a] = [a] := by
    rw [posts, List.filter_cons, delivery]
    rfl
  obtain ⟨row, row', known, noted, -, failed, -⟩ := rows 0 a (by rw [posted]; rfl)
  have whole : ¬ (w.replyAt 0).HalvedReason := by
    rintro ⟨members, t, read, half⟩
    have silent : (Datum.Json.readSent? "\x7b\"ok\":0\x7d").map (fun d => (d.get "description").isTruthy) =
        some false := by decide +kernel
    rw [read, Option.map_some, half] at silent
    cases silent
  obtain ⟨reason, rfl, named⟩ := failed (by rwa [w.replyAt_zero]) whole
  rw [delivery] at known noted
  refine ⟨refused, row, _, reason, known, noted, rfl, rfl, named fun kind text broken => ?_⟩
  cases broken

/-- A refusal whose description is half of a surrogate pair leaves its delivery pending, without an error. -/
theorem posted_iff_accepted_halved :
    let at' (n : Nat) (fits : n < Calendar.limit) : Instant := ⟨n, fits⟩
    let episodes : List Episode := [
      .step ⟨at' 1 (by decide), .createChore "Plants" .onceInAWhile none none⟩,
      .step ⟨at' 2 (by decide), .upsert (rowId "c0000000" 1) (.utc (at' 5 (by decide))) "Due" "Now"
        [some "telegram"]⟩]
    let c : TelegramChannel := ⟨"1:abc", 42, 30000⟩
    let other (_ : Empty) (_ : PendingDelivery) (x : Unit) : Except SendFault Unit × Unit := (.ok (), x)
    let registry := (Registry.ofList [("telegram", Sum.inl c)]).1
    let w : Wire := ⟨[.answer 400 "\x7b\"ok\":false,\"description\":\"\\ud800\"\x7d"], []⟩
    let l := ((Store.ofLedger .empty).run episodes).ledger
    let d := tick (sendEither other) registry (at' 6 (by decide)) 50 5 (.ofLedger l) (w, ())
    d.attempts.map (·.outcome) = [.failed (.refused
      ("Telegram send failed: sendMessage returned 400: " ++ .halved ⟨"", ⟨0⟩, []⟩))] ∧
    d.store.ledger.deliveries.map (fun row => (row.status, row.attemptCount, row.lastError)) =
      [(.pending, 0, none)] := by
  decide +kernel

end Dispatcher

end ChoreReminder
