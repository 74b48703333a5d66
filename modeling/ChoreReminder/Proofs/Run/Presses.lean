import ChoreReminder.Proofs.Run.Completed
import ChoreReminder.Proofs.Telegram.Repeat

/-! Presses of one button over whole runs. A press by a clock that stands at the moment of the message or
later settles it: from then on presses of the button leave the store alone, whatever happens in between.
A clock that is behind the message settles nothing, so every press by such a clock counts until
one comes that is not behind. -/

namespace ChoreReminder

structure Pressing where
  channel : TelegramChannel
  now : Instant
  wire : Wire

def Pressing.step (query : Datum) (p : Pressing) : Step := ⟨p.now, .press p.channel query p.wire⟩

namespace Ledger

variable {l l₁ l' : Ledger} {id : String} {sent now : Instant} {query : Datum}

/-- The chore was completed at these times by presses, and nothing else changed. -/
structure CompletedBy (l : Ledger) (id : String) (times : List Instant) (l' : Ledger) : Prop where
  chores : l'.chores = l.chores
  events : l'.events = l.events
  deliveries : l'.deliveries = l.deliveries
  completions : ∃ rows, l'.completions = l.completions ++ rows ∧
    (∀ row ∈ rows, row.choreId = id ∧ row.notes = some Press.notes) ∧
    rows.map (·.completedAt) = times.map Instant.stored

namespace CompletedBy

theorem refl (l : Ledger) (id : String) : CompletedBy l id [] l :=
  ⟨rfl, rfl, rfl, [], (List.append_nil _).symm, by simp, rfl⟩

theorem append {times times' : List Instant} (h : CompletedBy l id times l₁)
    (h' : CompletedBy l₁ id times' l') : CompletedBy l id (times ++ times') l' := by
  obtain ⟨rows, added, own, at'⟩ := h.completions
  obtain ⟨rows', added', own', at''⟩ := h'.completions
  refine ⟨h'.chores.trans h.chores, h'.events.trans h.events, h'.deliveries.trans h.deliveries,
    rows ++ rows', ?_, ?_, ?_⟩
  · rw [added', added, List.append_assoc]
  · intro row member
    exact (List.mem_append.1 member).elim (own row) (own' row)
  · rw [List.map_append, List.map_append, at', at'']

theorem complete {completion : Completion}
    (done : l.complete now id none (some Press.notes) = .ok (completion, l')) :
    CompletedBy l id [now] l' := by
  obtain ⟨-, i, meant, rfl⟩ := complete_ok done
  obtain rfl := Option.some.inj ((Stamp.instant?_utc now).symm.trans meant)
  exact ⟨rfl, rfl, rfl, _, rfl, by simp [newCompletionRow], rfl⟩

theorem length {times : List Instant} (h : CompletedBy l id times l') :
    l'.completions.length = l.completions.length + times.length := by
  obtain ⟨rows, added, -, at'⟩ := h.completions
  have same := congrArg List.length at'
  rw [List.length_map, List.length_map] at same
  rw [added, List.length_append, same]

theorem completedSince {times : List Instant} (h : CompletedBy l id times l') :
    l'.CompletedSince id sent ↔ l.CompletedSince id sent ∨ ∃ t ∈ times, sent ≤ t := by
  obtain ⟨rows, added, own, at'⟩ := h.completions
  constructor
  · rintro ⟨i, ⟨row, member, chore, time⟩, le⟩
    rw [added] at member
    rcases List.mem_append.1 member with before | new
    · exact .inl ⟨i, ⟨row, before, chore, time⟩, le⟩
    · have listed : row.completedAt ∈ times.map Instant.stored :=
        at' ▸ List.mem_map_of_mem (f := (·.completedAt)) new
      obtain ⟨t, ht, same⟩ := List.mem_map.1 listed
      obtain rfl := Instant.stored_inj.1 (same.trans time)
      exact .inr ⟨t, ht, le⟩
  · rintro (⟨i, ⟨row, member, key⟩, le⟩ | ⟨t, ht, le⟩)
    · exact ⟨i, ⟨row, added ▸ List.mem_append_left _ member, key⟩, le⟩
    · have listed : t.stored ∈ rows.map (·.completedAt) := at' ▸ List.mem_map_of_mem ht
      obtain ⟨row, member, same⟩ := List.mem_map.1 listed
      exact ⟨t, ⟨row, added ▸ List.mem_append_right _ member, (own row member).1, same⟩, le⟩

end CompletedBy

theorem Kept.press (k : Kept l) (marks : Press.Marks query id sent) (present : l.choreExists id = true)
    (p : Pressing) :
    (l.CompletedSince id sent → (l.perform (p.step query)).ledger = l) ∧
      (¬ l.CompletedSince id sent → CompletedBy l id [p.now] (l.perform (p.step query)).ledger) := by
  have handled : (l.perform (p.step query)).ledger =
      (Press.record p.now id (some sent) (.ofLedger l)).2.ledger :=
    congrArg Store.ledger (marks.handled p.channel p.now ⟨.ofLedger l, p.wire, []⟩)
  rw [handled]
  constructor
  · intro since
    rw [Press.record_again k since]
    rfl
  · intro fresh
    have meant : ((none : Option Stamp).getD (.utc p.now)).instant? = some p.now :=
      Stamp.instant?_utc p.now
    obtain ⟨completion, l', done, -⟩ := complete_recorded present meant (some Press.notes)
    rw [Press.record_first k fresh done]
    exact .complete done

theorem Kept.presses (k : Kept l) (marks : Press.Marks query id sent)
    (present : l.choreExists id = true) (presses : List Pressing) :
    (l.CompletedSince id sent → l.run (presses.map (·.step query)) = l) ∧
      (¬ l.CompletedSince id sent →
        CompletedBy l id ((presses.map (·.now)).take
            (((presses.map (·.now)).takeWhile (· < sent)).length + 1))
          (l.run (presses.map (·.step query)))) := by
  induction presses generalizing l with
  | nil => exact ⟨fun _ => rfl, fun _ => .refl l id⟩
  | cons p rest ih =>
    let l₁ := (l.perform (p.step query)).ledger
    obtain ⟨idle, counted⟩ := k.press marks present p
    have k₁ : Kept l₁ := k.course (l.perform_course (p.step query))
    rw [List.map_cons, List.map_cons, run]
    constructor
    · intro since
      rw [idle since]
      exact (ih k present).1 since
    · intro fresh
      have first := counted fresh
      have present₁ : l₁.choreExists id = true := by
        rw [choreExists, first.chores]
        exact present
      obtain ⟨idle', counted'⟩ := ih k₁ present₁
      have since₁ : l₁.CompletedSince id sent ↔ l.CompletedSince id sent ∨ ∃ t ∈ [p.now], sent ≤ t :=
        first.completedSince
      have settled : l₁.CompletedSince id sent ↔ sent ≤ p.now := by simpa [fresh] using since₁
      by_cases behind : p.now < sent
      · have fresh₁ : ¬ l₁.CompletedSince id sent := mt settled.1 (Nat.not_le.2 behind)
        rw [List.takeWhile_cons_of_pos (by simpa using behind), List.length_cons, List.take_succ_cons]
        exact first.append (counted' fresh₁)
      · rw [List.takeWhile_cons_of_neg (by simpa using behind),
          idle' (settled.2 (Nat.not_lt.1 behind))]
        exact first

/-! ### After the chore was completed -/

theorem Effect.keeps_completion {t : Episode} (h : Effect l t l') {row : CompletionRow}
    (member : row ∈ l.completions) :
    row ∈ l'.completions ∨ t.action? = some (.deleteChore row.choreId) := by
  cases h with
  | none => exact .inl member
  | createChore done =>
    obtain ⟨-, created, -, -, rfl⟩ := createChore_ok done
    exact .inl member
  | updateSchedule done =>
    obtain ⟨-, -, rfl⟩ := updateSchedule_ok done
    exact .inl member
  | deleteChore now choreId =>
    by_cases own : row.choreId = choreId
    · exact .inr (own ▸ rfl)
    · exact .inl (List.mem_filter.2 ⟨member, by simpa using own⟩)
  | complete done =>
    obtain ⟨-, completed, -, rfl⟩ := complete_ok done
    exact .inl (List.mem_append_left _ member)
  | ask asks grown => exact .inl (grown.completions ▸ member)
  | mark s ms =>
    rw [foldl_mark_ledger]
    exact .inl member

end Ledger

open Ledger (CompletedBy Kept Sound)

namespace Store

theorem run_keeps_completion {s : Store} {row : CompletionRow} (member : row ∈ s.ledger.completions)
    (later : List Episode) :
    row ∈ (s.run later).ledger.completions ∨
      ∃ t ∈ later, t.action? = some (.deleteChore row.choreId) := by
  induction later generalizing s with
  | nil => exact .inl member
  | cons t rest ih =>
    rcases (s.episode_effect t).keeps_completion member with still | removed
    · rcases ih still with still | ⟨t', ht', removed⟩
      · exact .inl still
      · exact .inr ⟨t', List.mem_cons_of_mem _ ht', removed⟩
    · exact .inr ⟨t, List.mem_cons_self, removed⟩

/-- After a press that is not behind the message, a press of the same button leaves the ledger alone,
whatever happens in between and whichever calls fail. -/
theorem press_settled {l : Ledger} {query : Datum} {id : String} {sent : Instant} (k : Kept l)
    (sound : Sound l) (since : l.CompletedSince id sent) (marks : Press.Marks query id sent)
    (later : List Episode) (c : TelegramChannel) (now : Instant) (wire : Wire) (notices : List Notice) :
    let s := (ofLedger l).run later
    (Press.handle c now query ⟨s, wire, notices⟩).2.store.ledger = s.ledger := by
  intro s
  obtain ⟨ms, course⟩ := (ofLedger l).run_course later
  rw [marks.handled]
  refine Press.record_idle (k.course course) ?_ now
  obtain ⟨i, done, le⟩ := since
  rcases done.course course sound with still | gone
  · exact .inl ⟨i, still, le⟩
  · refine .inr ?_
    rw [← Bool.not_eq_true, Ledger.choreExists_iff]
    rintro ⟨r, hr, own⟩
    exact gone.gone r hr own

/-- Presses of the button under a message count once if no clock is behind the message, and else once for
each press up to the first that is not. After a press that is not behind, no press of the button counts any
more, and until the chore is removed each is told so as long as the wire does not break down. -/
theorem presses_counted (before : List Episode) {query : Datum} {id : String} {sent : Instant}
    (marks : Press.Marks query id sent)
    (present : ((ofLedger .empty).run before).ledger.choreExists id = true) :
    let l := ((ofLedger .empty).run before).ledger
    (∀ presses : List Pressing,
      let l' := l.run (presses.map (·.step query))
      let times := presses.map (·.now)
      (l.CompletedSince id sent → l' = l) ∧
      (¬ l.CompletedSince id sent →
        CompletedBy l id (times.take ((times.takeWhile (· < sent)).length + 1)) l') ∧
      ((∀ t ∈ times, sent ≤ t) → l'.completions.length ≤ l.completions.length + 1)) ∧
    ∀ (c : TelegramChannel) (now : Instant) (wire : Wire), sent ≤ now →
      let d := Press.handle c now query ⟨ofLedger l, wire, []⟩
      ∀ later : List Episode,
        let s := d.2.store.run later
        (∀ c' now' wire' notices,
          (Press.handle c' now' query ⟨s, wire', notices⟩).2.store.ledger = s.ledger) ∧
        (d.1 = .ok .done → (∀ t ∈ later, t.action? ≠ some (.deleteChore id)) →
          ∀ c' now' wire' notices, wire'.Steady →
            (Press.handle c' now' query ⟨ofLedger s.ledger, wire', notices⟩).1 = .ok .alreadyDone) := by
  intro l
  have k : Kept l := run_kept before
  have sound : Sound l := run_sound before
  constructor
  · intro presses l' times
    obtain ⟨idle, counted⟩ := k.presses marks present presses
    refine ⟨idle, counted, fun ahead => ?_⟩
    by_cases since : l.CompletedSince id sent
    · have same : l' = l := idle since
      rw [same]
      exact Nat.le_succ _
    · have first : times.takeWhile (· < sent) = [] := by
        rw [List.takeWhile_eq_nil_iff]
        intro pos behind
        exact absurd (ahead _ (List.getElem_mem pos)) (Nat.not_le.2 (of_decide_eq_true behind))
      have added : CompletedBy l id (times.take ((times.takeWhile (· < sent)).length + 1)) l' :=
        counted since
      rw [added.length, first]
      exact Nat.add_le_add_left (List.length_take_le ..) _
  · intro c now wire ahead d later s
    let p : Pressing := ⟨c, now, wire⟩
    let l₁ := (l.perform (p.step query)).ledger
    have course := l.perform_course (p.step query)
    have store : d.2.store = ofLedger l₁ := perform_ofLedger l (p.step query)
    have since : l₁.CompletedSince id sent := by
      obtain ⟨idle, counted⟩ := k.press marks present p
      by_cases before : l.CompletedSince id sent
      · have same : l₁ = l := idle before
        rwa [same]
      · exact (counted before).completedSince.2 (.inr ⟨now, List.mem_cons_self, ahead⟩)
    have follows : s = (ofLedger l₁).run later := congrArg (·.run later) store
    have k₁ : Kept l₁ := k.course course
    rw [follows]
    refine ⟨press_settled k₁ (sound.course course) since marks later, ?_⟩
    intro done present' c' now' wire' notices steady
    obtain ⟨clearable, answerable⟩ := marks.of_done done
    obtain ⟨i, ⟨row, member, own, at'⟩, le⟩ := since
    have still : row ∈ ((ofLedger l₁).run later).ledger.completions := by
      refine (run_keeps_completion (s := ofLedger l₁) member later).resolve_right ?_
      rintro ⟨t, ht, removed⟩
      exact present' t ht (own ▸ removed)
    obtain ⟨ms, course'⟩ := (ofLedger l₁).run_course later
    exact marks.told_again clearable answerable (k₁.course course') ⟨i, ⟨row, still, own, at'⟩, le⟩ c'
      now' steady notices

/-- Presses of a button by clocks that are not behind, and a completion that is lost in between. -/
theorem presses_counted_ahead :
    let hour (n : Nat) (h : n * Calendar.hour < Calendar.limit := by decide) : Instant :=
      ⟨n * Calendar.hour, h⟩
    let id := rowId "c0000000" 1
    let before : List Episode := [.step ⟨hour 17733249, .createChore "Plants" .onceInAWhile none none⟩]
    let sent := hour 17733250
    let query := Datum.obj [("data", .str (TelegramChannel.buttonData id)),
      ("message", .obj [("date", .int 1704103200)])]
    let c : TelegramChannel := ⟨"", 1, 1000⟩
    let l := ((ofLedger .empty).run before).ledger
    let ahead := hour 17733251
    let later : List Episode := [.outage ⟨.complete, [true], "down"⟩,
      .step ⟨ahead, .complete id none none⟩]
    let s := (Press.handle c ahead query ⟨ofLedger l, .idle, []⟩).2.store.run later
    l.choreExists id = true ∧ Press.Marks query id sent ∧ sent ≤ ahead ∧
    (l.run ([⟨c, ahead, .idle⟩, ⟨c, sent, .idle⟩, ⟨c, ahead, .idle⟩].map
      (Pressing.step query))).completions.length ≤ l.completions.length + 1 ∧
    (Press.handle c sent query ⟨s, .idle, []⟩).2.store.ledger = s.ledger ∧
    (Press.handle c sent query ⟨ofLedger s.ledger, .idle, []⟩).1 = .ok .alreadyDone := by
  intro hour id before sent query c l ahead later s
  have present : l.choreExists id = true := by decide +kernel
  have marks : Press.Marks query id sent :=
    ⟨⟨.str (TelegramChannel.buttonData id), rfl, by decide +kernel⟩, by decide +kernel⟩
  have notBehind : sent ≤ ahead := by decide +kernel
  obtain ⟨counted, settled⟩ := presses_counted before marks present
  obtain ⟨-, -, once⟩ := counted [⟨c, ahead, .idle⟩, ⟨c, sent, .idle⟩, ⟨c, ahead, .idle⟩]
  obtain ⟨idle, told⟩ := settled c ahead .idle notBehind later
  have done : (Press.handle c ahead query ⟨ofLedger l, .idle, []⟩).1 = .ok .done := by decide +kernel
  have kept : ∀ t ∈ later, t.action? ≠ some (.deleteChore id) := by
    intro t ht removed
    simp only [later, List.mem_cons, List.not_mem_nil, or_false] at ht
    rcases ht with rfl | rfl <;> cases removed
  exact ⟨present, marks, notBehind, once (by decide +kernel), idle c sent .idle [],
    told done kept c sent .idle [] fun _ _ => List.not_mem_nil⟩

/-- By a clock that is an hour behind the message, the second press counts as the first does. -/
theorem presses_behind_message :
    let now : Instant := ⟨17733249 * Calendar.hour, by decide⟩
    let id := rowId "c0000000" 1
    let query := Datum.obj [("data", .str (TelegramChannel.buttonData id)),
      ("message", .obj [("date", .int 1704103200)])]
    let c : TelegramChannel := ⟨"", 1, 1000⟩
    let s := (ofLedger .empty).run [.step ⟨now, .createChore "Plants" .onceInAWhile none none⟩]
    let first := Press.handle c now query ⟨s, .idle, []⟩
    let second := Press.handle c now query first.2
    s.ledger.choreExists id = true ∧ first.1 = .ok .done ∧ second.1 = .ok .done ∧
      second.2.store.ledger.completions.length = s.ledger.completions.length + 2 := by
  decide +kernel

end Store

end ChoreReminder
