import ChoreReminder.Proofs.Run.Dispatch
import ChoreReminder.Proofs.Run.Generation
import ChoreReminder.Proofs.Run.Selection

/-! Ticks on a store that refuses some of their calls. A call that fails costs the item that it was made for and no
other: the generator records the other chores on the agenda, and the dispatcher attempts all that is pending
and notes what came of the others. A delivery whose note was refused stays as it was, so it is still in line. -/

namespace ChoreReminder

namespace Store

variable {α : Type} {s : Store} {call : Call} {outages : List Outage}
  {f : Ledger → Except LedgerFault (α × Ledger)}

theorem write_up {a : α} {l' : Ledger} (up : connect call s.outages = (none, outages))
    (done : f s.ledger = .ok (a, l')) : s.write call f = (.ok a, ⟨l', outages⟩) := by
  simp only [write, up, done]

theorem write_up_error {e : LedgerFault} (up : connect call s.outages = (none, outages))
    (refused : f s.ledger = .error e) : s.write call f = (.error e, ⟨s.ledger, outages⟩) := by
  simp only [write, up, refused]

theorem write_down {reason : String} (down : connect call s.outages = (some reason, outages)) :
    s.write call f = (.error (.unavailable reason), ⟨s.ledger, outages⟩) := by
  simp only [write, down]

theorem read_up {f : Ledger → Except LedgerFault α} (up : connect call s.outages = (none, s.outages)) :
    s.read call f = (f s.ledger, s) := by
  cases h : f s.ledger with
  | ok a => exact write_up up (by rw [h]; rfl)
  | error e => simp only [read, write, up, h, Except.map]

theorem agenda_up {l : Ledger} (up : connect .candidates outages = (none, outages)) (time : Stamp)
    (includeUpcoming : Bool) :
    (Store.mk l outages).agenda time includeUpcoming =
      (((ofLedger l).agenda time includeUpcoming).1, ⟨l, outages⟩,
        ((ofLedger l).agenda time includeUpcoming).2.2) := by
  have read : (Store.mk l outages).read .candidates (fun l => .ok l.candidates) =
      (.ok l.candidates, ⟨l, outages⟩) := read_up up
  rw [agenda, agenda, read, read_ofLedger]

end Store

/-! ### The generator -/

namespace Generator

variable {l : Ledger} {time : Stamp} {infos : List DueInfo} {info : DueInfo} {due : Instant}
  {outages : List Outage} {g : Generated} {reason : String}

theorem generateOne_up (now : Instant) (channels : List String) (next : info.nextDue = some due)
    (present : g.store.ledger.choreExists info.chore.id = true)
    (up : Store.connect .upsert g.store.outages = (none, outages)) :
    generateOne now (channels.map some) g info =
      { g with
        count := g.count + 1
        store := ⟨g.store.ledger.asked [request now channels info.chore due], outages⟩ } := by
  obtain ⟨id, l', done, -⟩ := Ledger.ask_granted (r := request now channels info.chore due) present
    (Stamp.instant?_utc due)
  have call : g.store.write .upsert (fun l => l.upsert now info.chore.id (.utc due)
      (DueMessage.of info.chore.name due).title (DueMessage.of info.chore.name due).body
      (channels.map some)) = (.ok id, ⟨l', outages⟩) := Store.write_up up done
  simp only [generateOne, next, call, Ledger.asked_of_ok done]

theorem generateOne_down (now : Instant) (channels : List String) (next : info.nextDue = some due)
    (down : Store.connect .upsert g.store.outages = (some reason, outages)) :
    generateOne now (channels.map some) g info =
      { g with
        store := ⟨g.store.ledger, outages⟩
        notices := g.notices ++ [.eventNotCreated info.chore.id (.unavailable reason)] } := by
  simp only [generateOne, next, Store.write_down down]

theorem generate_spared (now : Instant) (channels : List String) (fails : DueInfo → Bool) (more : List Bool)
    (reason : String) (outages : List Outage)
    (overdue : ∀ info ∈ infos, (∃ due, info.nextDue = some due) ∧ l.choreExists info.chore.id = true)
    (count : Nat) (notices : List Notice) :
    infos.foldl (generateOne now (channels.map some))
        ⟨count, ⟨l, ⟨.upsert, infos.map fails ++ more, reason⟩ :: outages⟩, notices⟩ =
      { count := count + infos.countP (!fails ·)
        store := ⟨l.asked (requests now channels (infos.filter (!fails ·))), ⟨.upsert, more, reason⟩ :: outages⟩
        notices := notices ++ (infos.filter fails).map fun info =>
          .eventNotCreated info.chore.id (.unavailable reason) } := by
  induction infos generalizing l count notices with
  | nil => simp [requests, Ledger.asked, Ledger.run]
  | cons info rest ih =>
    obtain ⟨⟨due, next⟩, present⟩ := overdue info List.mem_cons_self
    have overdue' := fun other (member : other ∈ rest) => overdue other (List.mem_cons_of_mem _ member)
    rw [List.foldl_cons]
    cases failing : fails info with
    | true =>
      have down : Store.connect .upsert
          (⟨.upsert, (info :: rest).map fails ++ more, reason⟩ :: outages) =
            (some reason, ⟨.upsert, rest.map fails ++ more, reason⟩ :: outages) := by
        simp [Store.connect, failing]
      rw [generateOne_down now channels next down, ih overdue']
      simp [failing]
    | false =>
      let r := request now channels info.chore due
      have up : Store.connect .upsert
          (⟨.upsert, (info :: rest).map fails ++ more, reason⟩ :: outages) =
            (none, ⟨.upsert, rest.map fails ++ more, reason⟩ :: outages) := by
        simp [Store.connect, failing]
      have still : ∀ other ∈ rest, (∃ due, other.nextDue = some due) ∧
          (l.asked [r]).choreExists other.chore.id = true := by
        intro other member
        rw [(l.asked_grown [r]).choreExists]
        exact overdue' other member
      have asked : requests now channels ((info :: rest).filter (!fails ·)) =
          r :: requests now channels (rest.filter (!fails ·)) := by
        simp [requests, failing, next, r]
      rw [generateOne_up now channels next present up, ih still, asked,
        Ledger.asked_cons l r (requests now channels (rest.filter (!fails ·)))]
      simp [failing, r, Nat.add_assoc, Nat.add_comm]

theorem tick_spared (k : Ledger.Kept l) (agenda : ((Store.ofLedger l).agenda time false).1 = .ok infos)
    (now : Instant) (channels : List String) (fails : DueInfo → Bool) (more : List Bool) (reason : String) :
    tick now time (channels.map some)
        ((Store.ofLedger l).announce ⟨.upsert, infos.map fails ++ more, reason⟩) =
      { count := infos.length - infos.countP fails
        store := (Store.ofLedger (l.asked (requests now channels (infos.filter (!fails ·))))).announce
          ⟨.upsert, more, reason⟩
        notices := ((Store.ofLedger l).agenda time false).2.2 ++ (infos.filter fails).map fun info =>
          .eventNotCreated info.chore.id (.unavailable reason) } := by
  have overdue : ∀ info ∈ infos, (∃ due, info.nextDue = some due) ∧ l.choreExists info.chore.id = true :=
    fun info member => ⟨(k.overdue agenda member).1, (k.overdue agenda member).2.1⟩
  have others : infos.countP (!fails ·) = infos.length - infos.countP fails := by
    have parts := infos.length_eq_countP_add_countP fails
    simp only [Bool.not_eq_true, Bool.decide_eq_false] at parts
    omega
  change tick now time (channels.map some) ⟨l, [⟨.upsert, infos.map fails ++ more, reason⟩]⟩ = _
  rw [tick, Store.agenda_up rfl, agenda]
  refine (generate_spared now channels fails more reason [] overdue 0 _).trans ?_
  rw [Nat.zero_add, others]
  rfl

end Generator

/-! ### The dispatcher -/

namespace Dispatcher

variable {α σ : Type} {l : Ledger} {limit maxAttempts : Int} {ps : List PendingDelivery}

def failing (fails : PendingDelivery → Bool) (as : List Attempt) (call : Call) (more : List Bool) : List Bool :=
  (as.filter (·.call = call)).map (fails ·.delivery) ++ more

/-- A store that refuses to take note of what becomes of some deliveries. -/
def refusing (l : Ledger) (fails : PendingDelivery → Bool) (as : List Attempt)
    (delivered failed : List Bool) (reason reason' : String) : Store :=
  ((Store.ofLedger l).announce ⟨.markDelivered, failing fails as .markDelivered delivered, reason⟩).announce
    ⟨.markFailed, failing fails as .markFailed failed, reason'⟩

theorem connect_refusing (l : Ledger) (fails : PendingDelivery → Bool) (a : Attempt) (as : List Attempt)
    (delivered failed : List Bool) (reason reason' : String) :
    ∃ why, Store.connect a.call (refusing l fails (a :: as) delivered failed reason reason').outages =
      (if fails a.delivery then some why else none,
        (refusing l fails as delivered failed reason reason').outages) := by
  obtain ⟨p, outcome⟩ := a
  refine ⟨if outcome = .delivered then reason else reason', ?_⟩
  cases outcome <;>
    simp [refusing, failing, Attempt.call, Store.announce, Store.ofLedger, Store.connect]

theorem settle_refusing (now : Instant) (fails : PendingDelivery → Bool) (a : Attempt) (as : List Attempt)
    (delivered failed : List Bool) (reason reason' : String) :
    settle now (refusing l fails (a :: as) delivered failed reason reason') a =
      refusing (if fails a.delivery then l else l.noted now a) fails as delivered failed reason reason' := by
  obtain ⟨why, connect⟩ := connect_refusing l fails a as delivered failed reason reason'
  unfold settle
  cases refused : fails a.delivery <;> rw [refused] at connect
  · rcases a.note_eq now l with ⟨m, marked, done⟩ | ⟨unmarked, f, failed'⟩
    · have done : a.note now l = .ok ((l.mark m).1, (l.mark m).2) := done
      rw [Store.write_up connect done, Ledger.noted, marked]
      rfl
    · rw [Store.write_up_error connect failed', Ledger.noted, unmarked]
      rfl
  · rw [Store.write_down connect]
    rfl

theorem foldl_settle_refusing (now : Instant) (fails : PendingDelivery → Bool) (as : List Attempt)
    (l : Ledger) (delivered failed : List Bool) (reason reason' : String) :
    as.foldl (settle now) (refusing l fails as delivered failed reason reason') =
      refusing (((as.filter (!fails ·.delivery)).filterMap (·.mark? now)).foldl (fun l m => (l.mark m).2) l) fails []
        delivered failed reason reason' := by
  rw [← Ledger.foldl_noted]
  induction as generalizing l with
  | nil => rfl
  | cons a rest ih =>
    rw [List.foldl_cons, settle_refusing, ih]
    cases refused : fails a.delivery <;> simp [refused]

theorem foldl_marked_spared {now : Instant} {as : List Attempt} (once : (as.map (·.delivery.deliveryId)).Nodup)
    (fails : PendingDelivery → Bool) (d : Delivery) :
    ((as.filter (!fails ·.delivery)).filterMap (·.mark? now)).foldl (fun d m => d.marked m) d =
      if ∃ a ∈ as, fails a.delivery = true ∧ a.delivery.deliveryId = d.id then d
      else (as.filterMap (·.mark? now)).foldl (fun d m => d.marked m) d := by
  have same {a b : Attempt} (ha : a ∈ as) (hb : b ∈ as) (ids : a.delivery.deliveryId = b.delivery.deliveryId) :
      a = b := Ledger.eq_of_key once ha hb ids
  by_cases tried : ∃ a ∈ as, a.delivery.deliveryId = d.id
  · obtain ⟨a, ha, meant⟩ := tried
    cases refused : fails a.delivery with
    | true =>
      rw [if_pos ⟨a, ha, refused, meant⟩]
      refine Attempt.foldl_marks_of_absent fun b hb hit => ?_
      obtain ⟨hb, taken⟩ := List.mem_filter.1 hb
      obtain rfl := same ha hb (meant.trans hit.symm)
      simp [refused] at taken
    | false =>
      have others : ¬ ∃ b ∈ as, fails b.delivery = true ∧ b.delivery.deliveryId = d.id := by
        rintro ⟨b, hb, down, hit⟩
        obtain rfl := same ha hb (meant.trans hit.symm)
        simp [refused] at down
      have taken : a ∈ as.filter (!fails ·.delivery) := List.mem_filter.2 ⟨ha, by simp [refused]⟩
      rw [if_neg others, Attempt.foldl_marks_of_mem once ha meant]
      exact Attempt.foldl_marks_of_mem (once.sublist (List.filter_sublist.map _)) taken meant
  · have absent : ∀ a ∈ as, a.delivery.deliveryId ≠ d.id := fun a ha hit => tried ⟨a, ha, hit⟩
    rw [if_neg fun ⟨a, ha, _, hit⟩ => tried ⟨a, ha, hit⟩, Attempt.foldl_marks_of_absent absent]
    exact Attempt.foldl_marks_of_absent fun a ha => absent a (List.mem_filter.1 ha).1

theorem tick_spared (send : α → PendingDelivery → σ → Except SendFault Unit × σ) (registry : Registry α)
    (now : Instant) (senders : σ) (pending : l.pending limit maxAttempts = .ok ps)
    (fails : PendingDelivery → Bool) (delivered failed : List Bool) (reason reason' : String) :
    let as := (tick send registry now limit maxAttempts (.ofLedger l) senders).attempts
    let d := tick send registry now limit maxAttempts (refusing l fails as delivered failed reason reason') senders
    d.attempts = as ∧ d.senders = (tick send registry now limit maxAttempts (.ofLedger l) senders).senders ∧
      d.store = refusing (((as.filter (!fails ·.delivery)).filterMap (·.mark? now)).foldl (fun l m => (l.mark m).2) l)
        fails [] delivered failed reason reason' := by
  obtain ⟨attempts, after, -⟩ := tick_ofLedger now send registry senders pending
  rw [attempts, after]
  let s := refusing l fails (attemptsAt send registry ps senders).1 delivered failed reason reason'
  have read : s.read .pending (fun l => l.pending limit maxAttempts) = (.ok ps, s) := by
    rw [Store.read_up rfl]
    exact congrArg (·, s) pending
  obtain ⟨attempts', after', store⟩ := attempts_eq send registry now maxAttempts ps ⟨[], s, senders, []⟩
  change (_ ∧ _ ∧ _)
  simp only [tick, s, read]
  exact ⟨attempts'.trans (List.nil_append _), after', store.trans (foldl_settle_refusing ..)⟩

end Dispatcher

/-- A tick attempts what a tick without refusals attempts, and the rows that it is to note its attempts in show
them, those apart whose note was refused. -/
structure Dispatched.Spared {σ : Type} (l : Ledger) (ps : List PendingDelivery)
    (fails : PendingDelivery → Bool) (d clean : Dispatched σ) : Prop where
  order : d.attempts.map (·.delivery) = ps
  once : (ps.map (·.deliveryId)).Nodup
  attempts : d.attempts = clean.attempts
  senders : d.senders = clean.senders
  summary : d.summary = clean.summary
  rows : ∃ change : Delivery → Delivery,
    clean.store = .ofLedger { l with deliveries := l.deliveries.map change } ∧
    d.store.ledger = { l with
      deliveries := l.deliveries.map fun row =>
        if ∃ p ∈ ps, fails p = true ∧ p.deliveryId = row.id then row else change row }

namespace Dispatcher

variable {α σ : Type} {l : Ledger} {limit maxAttempts : Int} {ps : List PendingDelivery}

theorem spared_of_tick (send : α → PendingDelivery → σ → Except SendFault Unit × σ) (registry : Registry α)
    (now : Instant) (senders : σ) (sound : Ledger.Sound l) (pending : l.pending limit maxAttempts = .ok ps)
    (fails : PendingDelivery → Bool) (delivered failed : List Bool) (reason reason' : String) :
    let clean := tick send registry now limit maxAttempts (.ofLedger l) senders
    (tick send registry now limit maxAttempts
      (refusing l fails clean.attempts delivered failed reason reason') senders).Spared l ps fails clean := by
  intro clean
  obtain ⟨attempts, after, store⟩ :=
    tick_spared send registry now senders pending fails delivered failed reason reason'
  obtain ⟨made, -, noted⟩ := tick_ofLedger now send registry senders pending
  have tried : clean.attempts.map (·.delivery) = ps := by
    rw [made, attemptsAt_deliveries]
  have once := (Ledger.pending_ok pending).2 sound.deliveryIds
  constructor
  case order => exact (congrArg (List.map (·.delivery)) attempts).trans tried
  case once => exact once
  case attempts => exact attempts
  case senders => exact after
  case summary => simp only [Dispatched.summary, attempts, clean]
  case rows =>
    rw [← made, Ledger.foldl_mark_ledger] at noted
    refine ⟨_, noted, ?_⟩
    have ids : (clean.attempts.map (·.delivery.deliveryId)).Nodup := by
      rwa [← tried, List.map_map] at once
    have rows := Ledger.foldl_mark_ledger ((clean.attempts.filter (!fails ·.delivery)).filterMap (·.mark? now)) l
    simp only [foldl_marked_spared ids fails] at rows
    rw [← tried]
    simp only [List.mem_map, exists_exists_and_eq_and]
    exact (congrArg Store.ledger store).trans rows

end Dispatcher

namespace Ledger

variable {l l' : Ledger} {limit maxAttempts : Int} {ps : List PendingDelivery}

theorem row_of_pending (cut : -2 ^ 63 ≤ limit ∧ limit < 2 ^ 63)
    (attempts : -2 ^ 63 ≤ maxAttempts ∧ maxAttempts < 2 ^ 63) (pending : l.pending limit maxAttempts = .ok ps)
    {p : PendingDelivery} (hp : p ∈ ps) : ∃ row ∈ l.eligibleRows maxAttempts, item row = p := by
  rw [pending_line l cut attempts] at pending
  obtain rfl := Except.ok.inj pending
  obtain ⟨row, hr, same⟩ := List.mem_map.1 hp
  exact ⟨row, (line_perm maxAttempts l).subset ((limited_sublist limit _).subset hr), same⟩

theorem Sound.in_line (s : Sound l') (n : Numbered l') (sound : Sound l)
    (cut : -2 ^ 63 ≤ limit ∧ limit < 2 ^ 63)
    (attempts : -2 ^ 63 ≤ maxAttempts ∧ maxAttempts < 2 ^ 63) (pending : l.pending limit maxAttempts = .ok ps)
    {p : PendingDelivery} (hp : p ∈ ps) {d : Delivery} (hd : d ∈ l.deliveries) (own : d.id = p.deliveryId)
    (still : d ∈ l'.deliveries) :
    ∃ e, (d, e) ∈ l'.eligibleRows maxAttempts ∧
      ((∃ ps', l'.pending limit maxAttempts = .ok ps' ∧ item (d, e) ∈ ps') ↔
        limit < 0 ∨ ((l'.eligibleRows maxAttempts).countP (AheadOf · (d, e)) : Int) < limit) := by
  obtain ⟨row, eligible, rfl⟩ := row_of_pending cut attempts pending hp
  obtain ⟨member, open', -⟩ := mem_eligibleRows.1 eligible
  obtain rfl : row.1 = d := eq_of_key sound.deliveryIds member hd own.symm
  obtain ⟨e, he, same⟩ := s.deliveryEvent row.1 still
  have waiting : (row.1, e) ∈ l'.eligibleRows maxAttempts :=
    mem_eligibleRows.2 ⟨still, open', same ▸ s.event?_of_mem he⟩
  exact ⟨e, waiting, s.selected_iff n cut attempts waiting⟩

end Ledger

theorem Dispatched.Spared.again {σ : Type} {l : Ledger} {limit maxAttempts : Int} {ps : List PendingDelivery}
    {fails : PendingDelivery → Bool} {d clean : Dispatched σ} (spared : d.Spared l ps fails clean)
    (sound : Ledger.Sound l) (numbered : Ledger.Numbered l) (cut : -2 ^ 63 ≤ limit ∧ limit < 2 ^ 63)
    (attempts : -2 ^ 63 ≤ maxAttempts ∧ maxAttempts < 2 ^ 63) (pending : l.pending limit maxAttempts = .ok ps)
    {ms : List Mark} (marked : d.store.ledger = ms.foldl (fun l m => (l.mark m).2) l)
    {p : PendingDelivery} (hp : p ∈ ps) (refused : fails p = true) :
    ∃ ps', d.store.ledger.pending limit maxAttempts = .ok ps' ∧ p ∈ ps' := by
  obtain ⟨row, eligible, rfl⟩ := Ledger.row_of_pending cut attempts pending hp
  obtain ⟨change, -, rows⟩ := spared.rows
  have still : row.1 ∈ d.store.ledger.deliveries := by
    rw [rows]
    exact List.mem_map.2 ⟨row.1, (Ledger.mem_eligibleRows.1 eligible).1, if_pos ⟨_, hp, refused, rfl⟩⟩
  rw [marked] at still ⊢
  exact sound.selected_again numbered cut attempts ms eligible still ⟨ps, pending, hp⟩

namespace Store

open Dispatcher (refusing)

/-- A call that fails costs the item that it was made for, and no other. A tick of the generator asks once for each
chore on the agenda and leaves behind what the requests of the others leave behind. A tick of the dispatcher
attempts what it attempts without refusals; what is not noted stays in line. -/
theorem refusal_costs_own_item {α σ : Type} (before : List Episode) :
    let l := ((ofLedger .empty).run before).ledger
    (∀ (now : Instant) (time : Stamp) (channels : List String) (infos : List DueInfo),
      ((ofLedger l).agenda time false).1 = .ok infos →
      let notices := ((ofLedger l).agenda time false).2.2
      let recorded (infos : List DueInfo) : Ledger := l.asked (Generator.requests now channels infos)
      Generator.tick now time (channels.map some) (ofLedger l) =
        ⟨infos.length, ofLedger (recorded infos), notices⟩ ∧
      ∀ (fails : DueInfo → Bool) (more : List Bool) (reason : String),
        Generator.tick now time (channels.map some)
            ((ofLedger l).announce ⟨.upsert, infos.map fails ++ more, reason⟩) =
          ⟨infos.length - infos.countP fails,
            (ofLedger (recorded (infos.filter (!fails ·)))).announce ⟨.upsert, more, reason⟩,
            notices ++ (infos.filter fails).map fun info =>
              .eventNotCreated info.chore.id (.unavailable reason)⟩) ∧
    ∀ (send : α → PendingDelivery → σ → Except SendFault Unit × σ) (registry : Registry α) (senders : σ)
      (now : Instant) (limit maxAttempts : Int),
      -2 ^ 63 ≤ limit ∧ limit < 2 ^ 63 → -2 ^ 63 ≤ maxAttempts ∧ maxAttempts < 2 ^ 63 →
      let clean := Dispatcher.tick send registry now limit maxAttempts (ofLedger l) senders
      ∃ ps, l.pending limit maxAttempts = .ok ps ∧
        ∀ (fails : PendingDelivery → Bool) (delivered failed : List Bool) (reason reason' : String),
          let s := refusing l fails clean.attempts delivered failed reason reason'
          let d := Dispatcher.tick send registry now limit maxAttempts s senders
          d.Spared l ps fails clean ∧ d.store = refusing d.store.ledger fails [] delivered failed reason reason' ∧
          ∀ p ∈ ps, fails p = true →
            (∃ ps', d.store.ledger.pending limit maxAttempts = .ok ps' ∧ p ∈ ps') ∧
            ∀ later : List Episode,
              let l' := (d.store.run later).ledger
              ∀ row ∈ l.deliveries, row.id = p.deliveryId → row ∈ l'.deliveries →
                ∃ e, (row, e) ∈ l'.eligibleRows maxAttempts ∧
                  ((∃ ps', l'.pending limit maxAttempts = .ok ps' ∧ Ledger.item (row, e) ∈ ps') ↔
                    limit < 0 ∨
                      ((l'.eligibleRows maxAttempts).countP (Ledger.AheadOf · (row, e)) : Int) < limit) := by
  intro l
  have sound : Ledger.Sound l := run_sound before
  have kept : Ledger.Kept l := run_kept before
  have numbered : Ledger.Numbered l := run_numbered before
  constructor
  · intro now time channels infos agenda notices recorded
    exact ⟨(Generator.tick_merged kept sound agenda now channels).1,
      Generator.tick_spared kept agenda now channels⟩
  · intro send registry senders now limit maxAttempts cut attempts clean
    refine ⟨_, Ledger.pending_line l cut attempts, fun fails delivered failed reason reason' => ?_⟩
    have pending := Ledger.pending_line l cut attempts
    intro s d
    have spared : d.Spared l _ fails clean :=
      Dispatcher.spared_of_tick send registry now senders sound pending fails delivered failed reason reason'
    have store := (Dispatcher.tick_spared send registry now senders pending fails delivered failed reason
      reason').2.2
    obtain ⟨ms, marked⟩ := Dispatcher.tick_ledger send registry now maxAttempts limit s senders
    refine ⟨spared, store.trans (congrArg (refusing · ..) (congrArg Store.ledger store).symm),
      fun p hp refused => ⟨spared.again sound numbered cut attempts pending marked hp refused, ?_⟩⟩
    intro later l' row hr own still
    have course := Ledger.Course.marks l ms
    have left : d.store.ledger = _ := marked
    obtain ⟨ms', goes_on⟩ := d.store.run_course later
    rw [left] at goes_on
    exact ((sound.course course).course goes_on).in_line
      (goes_on.numbered (sound.course course) (course.numbered sound numbered)) sound cut attempts pending hp
      hr own still

/-- Two chores are due, and the first is not recorded. Two deliveries are pending, and that the first of them went
through is not noted, so it is pending once more. -/
theorem refusal_costs_own_item_first :
    let day (n : Nat) (h : n < Calendar.dayLimit := by decide) : Instant :=
      ⟨n * Calendar.day, Nat.mul_lt_mul_of_pos_right h (by decide)⟩
    let chore (name : String) : Action := .createChore name (.interval 1 none none) none none
    let before : List Episode := [
      .step ⟨day 1, chore "Plants"⟩, .step ⟨day 1, chore "Windows"⟩,
      .step ⟨day 1, .upsert (rowId "c0000000" 2) (.utc (day 1)) "Due" "Now" [some "telegram", some "mail"]⟩]
    let l := ((ofLedger .empty).run before).ledger
    let send (_ : Nat) (_ : PendingDelivery) (senders : Unit) : Except SendFault Unit × Unit := (.ok (), senders)
    let registry : Registry Nat := ⟨[("telegram", 1)]⟩
    let clean := Dispatcher.tick send registry (day 2) 50 5 (ofLedger l) ()
    let undelivered (p : PendingDelivery) : Bool := p.deliveryId = rowId "f0000000" 1
    let s := refusing l undelivered clean.attempts [] [] "locked" "locked"
    let d := Dispatcher.tick send registry (day 2) 50 5 s ()
    (∃ infos, ((ofLedger l).agenda (.utc (day 3)) false).1 = .ok infos ∧
      infos.map (·.chore.id) = [rowId "c0000000" 1, rowId "c0000000" 2] ∧
      (Generator.tick (day 3) (.utc (day 3)) (["telegram"].map some)
        ((ofLedger l).announce ⟨.upsert, [true, false], "locked"⟩)).count = 1) ∧
    ∃ ps, l.pending 50 5 = .ok ps ∧ ps.map (·.deliveryId) = [rowId "f0000000" 1, rowId "f0000000" 2] ∧
      d.Spared l ps undelivered clean ∧
      ∃ ps', d.store.ledger.pending 50 5 = .ok ps' ∧ rowId "f0000000" 1 ∈ ps'.map (·.deliveryId) := by
  intro day chore before l send registry clean undelivered s d
  obtain ⟨generator, dispatcher⟩ := refusal_costs_own_item (α := Nat) (σ := Unit) before
  constructor
  · have sorted : l.chores.mergeSort (fun a b => a.name ≤ b.name) = l.chores :=
      List.mergeSort_of_pairwise (by decide +kernel)
    have evaluated : (Agenda.evaluate (.utc (day 3)) false l.candidates.1).1.toOption.map
        (·.map fun info => (info.chore.id, info.nextDue)) =
          some [(rowId "c0000000" 1, some (day 2)), (rowId "c0000000" 2, some (day 2))] := by
      rw [Ledger.candidates, sorted]
      decide +kernel
    cases listed : (Agenda.evaluate (.utc (day 3)) false l.candidates.1).1 with
    | error o =>
      rw [listed] at evaluated
      cases evaluated
    | ok infos =>
      rw [listed] at evaluated
      obtain ⟨a, rest, rfl, first, last⟩ := List.map_eq_cons_iff.1 (Option.some.inj evaluated)
      obtain ⟨b, rfl, second⟩ := List.map_eq_singleton_iff.1 last
      obtain ⟨id, next⟩ := Prod.mk.inj first
      obtain ⟨id', next'⟩ := Prod.mk.inj second
      have inOrder : [a, b].Pairwise fun a b => DueInfo.le a b = true := by
        simp [DueInfo.le, next, next']
      have agenda : ((ofLedger l).agenda (.utc (day 3)) false).1 = .ok [a, b] := by
        have collected : (Agenda.collect l.candidates.1 (.utc (day 3)) false).1 =
            (Agenda.evaluate (.utc (day 3)) false l.candidates.1).1.map (·.mergeSort DueInfo.le) := rfl
        rw [Ledger.agenda_eq, collected, listed]
        exact congrArg Except.ok (List.mergeSort_of_pairwise inOrder)
      refine ⟨[a, b], agenda, by simp [id, id'], ?_⟩
      have spared := (generator (day 3) (.utc (day 3)) ["telegram"] [a, b] agenda).2
        (·.chore.id = rowId "c0000000" 1) [] "locked"
      have pattern : [a, b].map (fun info => decide (info.chore.id = rowId "c0000000" 1)) ++ [] = [true, false] := by
        rw [List.map_cons, List.map_singleton, id, id']
        decide
      rw [pattern] at spared
      have other : rowId "c0000000" 2 ≠ rowId "c0000000" 1 := by decide
      refine (congrArg Generated.count spared).trans ?_
      simp [id, id', other]
  · obtain ⟨ps, pending, spared⟩ := dispatcher send registry () (day 2) 50 5 (by decide) (by decide)
    let row (n : Nat) (channel : String) : PendingDelivery × Instant :=
      (⟨rowId "f0000000" n, rowId "e0000000" 1, channel, 0, rowId "c0000000" 2, day 1, "Due", "Now"⟩, day 1)
    have eligible : (l.deliveries.filter (Ledger.isEligible 5)).filterMap
        (fun d => (l.joined? d).map (·, d.createdAt)) = [row 1 "telegram", row 2 "mail"] := by
      decide +kernel
    have known : l.pending 50 5 = .ok [(row 1 "telegram").1, (row 2 "mail").1] := by
      rw [Ledger.pending, eligible, Ledger.fitting_ok (by decide) (by decide),
        Ledger.fitting_ok (by decide) (by decide)]
      simp [List.mergeSort, List.MergeSort.Internal.splitInTwo, Ledger.attemptedBefore, row, Ledger.limited,
        bind, Except.bind, pure, Except.pure]
    obtain rfl := Except.ok.inj (pending.symm.trans known)
    obtain ⟨spared, -, again⟩ := spared undelivered [] [] "locked" "locked"
    obtain ⟨⟨ps', listed, member⟩, -⟩ := again _ List.mem_cons_self (by decide)
    exact ⟨_, pending, rfl, spared, ps', listed, List.mem_map_of_mem member⟩

end Store

end ChoreReminder
