import ChoreReminder.Proofs.Ledger.Candidates
import ChoreReminder.Proofs.Run.Agenda
import ChoreReminder.Proofs.Run.Merge
import ChoreReminder.Proofs.Schedule.NextDue

/-! A tick of the generator from end to end. Once the agenda is known, a tick is a series of requests, one for
each chore on it, and all of them are granted. So it leaves behind the events of the chores on the agenda with
their channels and nothing else; and as the agenda reads chores and completions only, which a tick does
not touch, the same tick finds everything there the next time. -/

namespace ChoreReminder

namespace Generator

variable {l : Ledger} {time : Stamp} {infos : List DueInfo}

def request (now : Instant) (channels : List String) (chore : Chore) (due : Instant) : Request :=
  let message := DueMessage.of chore.name due
  ⟨now, chore.id, .utc due, message.title, message.body, channels⟩

def requests (now : Instant) (channels : List String) (infos : List DueInfo) : List Request :=
  infos.filterMap fun info => info.nextDue.map (request now channels info.chore)

theorem mem_requests {now : Instant} {channels : List String} {r : Request} :
    r ∈ requests now channels infos ↔
      ∃ info ∈ infos, ∃ due, info.nextDue = some due ∧ request now channels info.chore due = r := by
  simp only [requests, List.mem_filterMap, Option.map_eq_some_iff]

theorem generateOne_asked (now : Instant) (channels : List String) {g : Generated}
    (h : g.store = .ofLedger l) {info : DueInfo} {due : Instant} (next : info.nextDue = some due)
    (present : l.choreExists info.chore.id = true) :
    generateOne now (channels.map some) g info =
      { g with
        count := g.count + 1
        store := .ofLedger (l.asked [request now channels info.chore due]) } := by
  obtain ⟨id, l', done, -⟩ := Ledger.ask_granted (r := request now channels info.chore due) present
    (Stamp.instant?_utc due)
  have call : g.store.write .upsert (fun l => l.upsert now info.chore.id (.utc due)
      (DueMessage.of info.chore.name due).title (DueMessage.of info.chore.name due).body
      (channels.map some)) = (.ok id, .ofLedger l') := by
    rw [h]
    exact Store.write_ofLedger_ok done
  simp only [generateOne, next, call, Ledger.asked_of_ok done]

theorem generate_asked (now : Instant) (channels : List String) {g : Generated}
    (h : g.store = .ofLedger l) (exist : ∀ info ∈ infos, l.choreExists info.chore.id = true) :
    infos.foldl (generateOne now (channels.map some)) g =
      { g with
        count := g.count + (requests now channels infos).length
        store := .ofLedger (l.asked (requests now channels infos)) } := by
  induction infos generalizing l g with
  | nil =>
    obtain ⟨count, store, notices⟩ := g
    obtain rfl := h
    rfl
  | cons info rest ih =>
    have exist' := fun other (member : other ∈ rest) => exist other (List.mem_cons_of_mem _ member)
    rw [List.foldl_cons]
    cases next : info.nextDue with
    | none =>
      have passed : generateOne now (channels.map some) g info = g := by rw [generateOne, next]
      have unasked : requests now channels (info :: rest) = requests now channels rest := by
        simp only [requests, List.filterMap_cons, next, Option.map_none]
      rw [passed, ih h exist', unasked]
    | some due =>
      let r := request now channels info.chore due
      have asked : requests now channels (info :: rest) = r :: requests now channels rest := by
        simp only [requests, List.filterMap_cons, next, Option.map_some, r]
      have still : ∀ other ∈ rest, (l.asked [r]).choreExists other.chore.id = true := by
        intro other member
        rw [(l.asked_grown [r]).choreExists]
        exact exist' other member
      rw [generateOne_asked now channels h next (exist info List.mem_cons_self), ih rfl still, asked,
        Ledger.asked_cons, List.length_cons, Nat.add_right_comm]
      rfl

theorem tick_asked (now : Instant) (channels : List String)
    (agenda : ((Store.ofLedger l).agenda time false).1 = .ok infos)
    (exist : ∀ info ∈ infos, l.choreExists info.chore.id = true) :
    tick now time (channels.map some) (.ofLedger l) =
      { count := (requests now channels infos).length
        store := .ofLedger (l.asked (requests now channels infos))
        notices := ((Store.ofLedger l).agenda time false).2.2 } := by
  have unchanged := agenda_store l time false
  unfold tick
  rcases h : (Store.ofLedger l).agenda time false with ⟨f | found, s, notices⟩ <;>
    rw [h] at agenda unchanged
  · cases agenda
  · obtain rfl := Except.ok.inj agenda
    have granted := generate_asked now channels (g := ⟨0, s, notices⟩) unchanged exist
    rw [Nat.zero_add] at granted
    exact granted

end Generator

namespace Ledger

variable {l l' : Ledger} {time : Stamp} {infos : List DueInfo} {info : DueInfo}

theorem agenda_congr (chores : l'.chores = l.chores) (completions : l'.completions = l.completions)
    (time : Stamp) (includeUpcoming : Bool) :
    (((Store.ofLedger l').agenda time includeUpcoming).1,
        ((Store.ofLedger l').agenda time includeUpcoming).2.2) =
      (((Store.ofLedger l).agenda time includeUpcoming).1,
        ((Store.ofLedger l).agenda time includeUpcoming).2.2) := by
  simp only [Store.agenda, Store.read_ofLedger, candidates_congr chores completions]

namespace Kept

theorem candidate_name (k : Kept l) {c : Chore} (hc : c ∈ l.candidates.1) :
    ∃ r ∈ l.chores, r.id = c.id ∧ r.name = c.name := by
  obtain ⟨r, hr, id, read⟩ := k.candidate_row hc
  obtain ⟨d, -, same, own, name, -⟩ := k.read hr
  rw [id, read] at same
  obtain rfl := Except.ok.inj same
  exact ⟨r, hr, id, name.symm⟩

theorem grown (k : Kept l) (grown : Grown l l') : Kept l' :=
  ⟨grown.chores ▸ k.chores, grown.completions ▸ k.completions⟩

theorem overdue (k : Kept l) (agenda : ((Store.ofLedger l).agenda time false).1 = .ok infos)
    (member : info ∈ infos) :
    (∃ due, info.nextDue = some due) ∧ l.choreExists info.chore.id = true ∧
      ∃ r ∈ l.chores, r.id = info.chore.id ∧ r.name = info.chore.name := by
  rw [agenda_eq, mapError_eq_ok] at agenda
  obtain ⟨c, hc, given⟩ := Agenda.listed_of_mem_collect agenda member
  obtain ⟨found, late⟩ := Agenda.due_of_listed given
  rw [Agenda.chore_of_listed given]
  refine ⟨?_, k.candidate_exists hc, k.candidate_name hc⟩
  obtain ⟨base, settled⟩ := k.candidates.2.2 c hc
  rcases settled.due_cases found with ⟨rfl, -⟩ | ⟨n, due, -, -, rfl⟩
  · cases late
  · exact ⟨due, rfl⟩

theorem agenda_whole (k : Kept l) (whole : ∀ c ∈ l.candidates.1, ∀ o, c.due time ≠ .overflow o)
    (includeUpcoming : Bool) :
    ∃ infos, ((Store.ofLedger l).agenda time includeUpcoming).1 = .ok infos := by
  cases agenda : ((Store.ofLedger l).agenda time includeUpcoming).1 with
  | ok infos => exact ⟨infos, rfl⟩
  | error f =>
    obtain ⟨c, hc, o, broken⟩ := k.overflows.2 ((k.agenda_error includeUpcoming).1 ⟨f, agenda⟩)
    exact absurd broken (whole c hc o)

end Kept

end Ledger

open Ledger (Grown Kept Merged Sound)

namespace Generator

variable {l l' : Ledger} {time : Stamp} {infos : List DueInfo} {now : Instant} {channels : List String}

theorem length_requests (k : Kept l) (agenda : ((Store.ofLedger l).agenda time false).1 = .ok infos) :
    (requests now channels infos).length = infos.length := by
  rw [requests, List.filterMap_length_eq_length]
  intro info member
  obtain ⟨⟨due, next⟩, -⟩ := k.overdue agenda member
  rw [next]
  rfl

theorem tick_merged (k : Kept l) (sound : Sound l)
    (agenda : ((Store.ofLedger l).agenda time false).1 = .ok infos) (now : Instant)
    (channels : List String) :
    let rs := requests now channels infos
    tick now time (channels.map some) (.ofLedger l) =
        ⟨infos.length, .ofLedger (l.asked rs), ((Store.ofLedger l).agenda time false).2.2⟩ ∧
      Sound (l.asked rs) ∧ Merged l rs (l.asked rs) := by
  intro rs
  have exist : ∀ info ∈ infos, l.choreExists info.chore.id = true :=
    fun info member => (k.overdue agenda member).2.1
  have present : ∀ r ∈ rs, l.choreExists r.choreId = true := by
    intro r hr
    obtain ⟨info, member, due, -, rfl⟩ := mem_requests.1 hr
    exact exist info member
  obtain ⟨sound', merged, -⟩ := Ledger.asked_merged rs sound present
  refine ⟨?_, sound', merged⟩
  rw [tick_asked now channels agenda exist, length_requests k agenda]

theorem recorded (merged : Merged l (requests now channels infos) l') {info : DueInfo}
    (member : info ∈ infos) {due : Instant} (next : info.nextDue = some due) :
    l'.HasEvent info.chore.id due ∧ ∀ channel ∈ channels, l'.HasChannel info.chore.id due channel := by
  have asked : ∃ r ∈ requests now channels infos, r.Names info.chore.id due ∧ r.channels = channels :=
    ⟨_, mem_requests.2 ⟨info, member, due, next, rfl⟩, ⟨rfl, Stamp.instant?_utc due⟩, rfl⟩
  obtain ⟨r, hr, names, listed⟩ := asked
  exact ⟨(merged.hasEvent ..).2 (.inr ⟨r, hr, names⟩),
    fun channel wanted => (merged.hasChannel ..).2 (.inr ⟨r, hr, names, listed ▸ wanted⟩)⟩

theorem added (k : Kept l) (agenda : ((Store.ofLedger l).agenda time false).1 = .ok infos)
    (merged : Merged l (requests now channels infos) l') {e : Event} (he : e ∈ l'.events) :
    e ∈ l.events ∨ (∃ info ∈ infos, e.choreId = info.chore.id ∧ info.nextDue = some e.dueAt) ∧
      ∃ r ∈ l.chores, r.id = e.choreId ∧ ⟨e.title, e.body⟩ = DueMessage.of r.name e.dueAt := by
  refine (merged.events e he).imp_right ?_
  rintro ⟨-, r, found, title, body⟩
  have names : r.Names e.choreId e.dueAt := by simpa using List.find?_some found
  obtain ⟨chore, at'⟩ := names
  obtain ⟨info, member, due, next, rfl⟩ := mem_requests.1 (List.mem_of_find?_eq_some found)
  obtain rfl : due = e.dueAt := Option.some.inj ((Stamp.instant?_utc due).symm.trans at')
  obtain ⟨-, -, row, hr, id, name⟩ := k.overdue agenda member
  exact ⟨⟨info, member, chore.symm, next⟩, row, hr, id.trans chore, by rw [title, body, name]; rfl⟩

theorem tick_again (k : Kept l) (sound : Sound l)
    (agenda : ((Store.ofLedger l).agenda time false).1 = .ok infos) (later : Instant) :
    let g := tick now time (channels.map some) (.ofLedger l)
    tick later time (channels.map some) g.store = g := by
  intro g
  obtain ⟨first, sound', merged⟩ := tick_merged k sound agenda now channels
  obtain ⟨agenda', notices⟩ := Prod.mk.inj
    (Ledger.agenda_congr merged.grown.chores merged.grown.completions time false)
  obtain ⟨second, -⟩ :=
    tick_merged (k.grown merged.grown) sound' (agenda'.trans agenda) later channels
  have idle : (l.asked (requests now channels infos)).asked (requests later channels infos) =
      l.asked (requests now channels infos) := by
    refine sound'.asked_idle fun r hr => ?_
    obtain ⟨info, member, due, next, rfl⟩ := mem_requests.1 hr
    exact ⟨due, Stamp.instant?_utc due, recorded merged member next⟩
  rw [idle, notices] at second
  simp only [g, first]
  exact second

end Generator

namespace Store

/-- A tick at a time at which every chore can be evaluated records each chore on the agenda of overdue chores,
with one event for its due time and a delivery for each channel, and adds no other event; after it, the same
tick gives the same and adds nothing at all. -/
theorem tick_generates (before : List Episode) (now : Instant) (time : Stamp) (channels : List String)
    (whole : ∀ c ∈ ((ofLedger .empty).run before).ledger.candidates.1, ∀ o, c.due time ≠ .overflow o) :
    let l := ((ofLedger .empty).run before).ledger
    let g := Generator.tick now time (channels.map some) (ofLedger l)
    let l' := g.store.ledger
    ∃ infos, ((ofLedger l).agenda time false).1 = .ok infos ∧ g.count = infos.length ∧
      (∀ info ∈ infos, ∃ due, info.nextDue = some due ∧
        (∃! e, e ∈ l'.events ∧ e.choreId = info.chore.id ∧
          Stamp.read e.dueAt.stored = .ok (.utc due)) ∧
        ∀ channel ∈ channels, l'.HasChannel info.chore.id due channel) ∧
      (∀ e ∈ l'.events, e ∈ l.events ∨
        (∃ info ∈ infos, e.choreId = info.chore.id ∧ info.nextDue = some e.dueAt) ∧
        ∃ r ∈ l.chores, r.id = e.choreId ∧ ⟨e.title, e.body⟩ = DueMessage.of r.name e.dueAt) ∧
      (∀ d ∈ l'.deliveries, d ∈ l.deliveries ∨ d.status = .pending ∧ d.attemptCount = 0) ∧
      (l'.chores = l.chores ∧ l'.completions = l.completions ∧ l.events <+: l'.events ∧
        l.deliveries <+: l'.deliveries) ∧
      ∀ later, Generator.tick later time (channels.map some) g.store = g := by
  intro l g l'
  have k : Kept l := run_kept before
  have sound : Sound l := run_sound before
  obtain ⟨infos, agenda⟩ := k.agenda_whole whole false
  obtain ⟨tick, sound', merged⟩ := Generator.tick_merged k sound agenda now channels
  have ledger : l' = l.asked (Generator.requests now channels infos) := congrArg (·.store.ledger) tick
  rw [← ledger] at sound' merged
  refine ⟨infos, agenda, congrArg (·.count) tick, fun info member => ?_, fun e he => ?_,
    merged.deliveries, ?_, fun later => Generator.tick_again k sound agenda later⟩
  · obtain ⟨⟨due, next⟩, -⟩ := k.overdue agenda member
    obtain ⟨event, delivered⟩ := Generator.recorded merged member next
    simp only [Stamp.read_stored_iff]
    exact ⟨due, next, sound'.event_unique event, delivered⟩
  · exact Generator.added k agenda merged he
  · obtain ⟨chores, completions, events, deliveries⟩ := merged.grown
    exact ⟨chores, completions, events, deliveries⟩

/-- A daily chore that is a day late is recorded for two channels, and only once. -/
theorem tick_generates_daily :
    let day (n : Nat) (h : n < Calendar.dayLimit := by decide) : Instant :=
      ⟨n * Calendar.day, Nat.mul_lt_mul_of_pos_right h (by decide)⟩
    let id := rowId "c0000000" 1
    let before : List Episode := [
      .step ⟨day 1, .createChore "Plants" (.interval 1 none none) none none⟩]
    let l := ((ofLedger .empty).run before).ledger
    let channels := ["telegram", "console"]
    let g := Generator.tick (day 3) (.utc (day 3)) (channels.map some) (ofLedger l)
    (∀ c ∈ l.candidates.1, ∀ o, c.due (.utc (day 3)) ≠ .overflow o) ∧
    g.count = 1 ∧
    (∃! e, e ∈ g.store.ledger.events ∧ e.choreId = id ∧
      Stamp.read e.dueAt.stored = .ok (.utc (day 2))) ∧
    g.store.ledger.HasChannel id (day 2) "console" ∧
    Generator.tick (day 4) (.utc (day 3)) (channels.map some) g.store = g := by
  intro day id before l channels g
  have evaluated : ∀ c ∈ l.candidates.1, c.due (.utc (day 3)) = .due ⟨c, some (day 2), true⟩ := by
    decide +kernel
  have whole : ∀ c ∈ l.candidates.1, ∀ o, c.due (.utc (day 3)) ≠ .overflow o := by
    intro c hc o broken
    rw [evaluated c hc] at broken
    cases broken
  have listed : ((ofLedger l).agenda (.utc (day 3)) false).1.toOption.map
      (·.map fun info => (info.chore.id, info.nextDue)) = some [(id, some (day 2))] := by
    decide +kernel
  obtain ⟨infos, agenda, count, each, -, -, -, again⟩ :=
    tick_generates before (day 3) (.utc (day 3)) channels whole
  rw [agenda] at listed
  obtain ⟨info, rfl, key⟩ := List.map_eq_singleton_iff.1 (Option.some.inj listed)
  obtain ⟨own, next⟩ := Prod.mk.inj key
  obtain ⟨due, next', event, delivered⟩ := each info List.mem_cons_self
  obtain rfl := Option.some.inj (next.symm.trans next')
  rw [own] at event delivered
  exact ⟨whole, count, event, delivered "console" (by decide), again (day 4)⟩

end Store

end ChoreReminder
