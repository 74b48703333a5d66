import Mathlib.Data.List.Basic
import ChoreReminder.Telegram.Listener
import ChoreReminder.Proofs.Telegram.Call

/-! The listener as a loop of small steps. It asks for updates, takes up those of the answer one after the
other, and asks again unless it was told to stop; between two steps others are at work, so the store and the
replies to come may be any. Rounds of the listener are such steps with nobody else at work.

The loop goes on over failed polls and over presses that cannot be handled, but not over every answer: what
the remote side calls its updates has to be nothing at all or a list of objects. -/

namespace ChoreReminder

structure Polling where
  listener : Listener
  desk : Desk
  /-- The updates of the last answer that are still to be taken up. -/
  waiting : List Datum
  /-- The updates that were taken up so far, in this order. -/
  taken : List Datum
  running : Bool
  /-- What broke the loop off. -/
  fault : Option PollFault

namespace Polling

inductive Event where
  | poll
  | handle (now : Instant)
  | stop
  /-- Others are at work: the store changes, and replies come in. -/
  | meanwhile (desk : Desk)

def start (l : Listener) (d : Desk) : Polling := ⟨l, d, [], [], true, none⟩

def asks (p : Polling) : Bool := p.running && p.waiting.isEmpty && p.fault.isNone

def poll (c : TelegramChannel) (p : Polling) : Polling :=
  match c.getUpdates p.listener.offset p.listener.wait p.desk.wire with
  | (.error f, wire) =>
    { p with desk := { p.desk with wire }.note (.pollFailed p.listener.retryDelay f) }
  | (.ok answer, wire) =>
    match Listener.updatesOf answer with
    | .error f => { p with desk := { p.desk with wire }, fault := some f }
    | .ok updates => { p with desk := { p.desk with wire }, waiting := updates }

def handle (c : TelegramChannel) (now : Instant) (p : Polling) : Polling :=
  match p.waiting with
  | [] => p
  | u :: rest =>
    match Listener.handleUpdate c now p.listener u p.desk with
    | (.ok _, listener, desk) =>
      { p with listener, desk, waiting := rest, taken := p.taken ++ [u] }
    | (.error f, listener, desk) =>
      { p with listener, desk, waiting := rest, taken := p.taken ++ [u], fault := some f }

def step (c : TelegramChannel) (p : Polling) : Event → Polling
  | .poll => if p.asks then p.poll c else p
  | .handle now => if p.fault.isNone then p.handle c now else p
  | .stop => { p with running := false }
  | .meanwhile desk => { p with desk }

def run (c : TelegramChannel) (p : Polling) : List Event → Polling
  | [] => p
  | e :: rest => run c (p.step c e) rest

def result (p : Polling) : Except PollFault Unit × Listener × Desk :=
  (match p.fault with
    | none => .ok ()
    | some f => .error f, p.listener, p.desk)

variable {c : TelegramChannel} {now : Instant} {p : Polling}

theorem run_append (c : TelegramChannel) (p : Polling) (first rest : List Event) :
    p.run c (first ++ rest) = (p.run c first).run c rest := by
  induction first generalizing p with
  | nil => rfl
  | cons e first ih => exact ih (p.step c e)

/-! ### Single steps -/

theorem asks_iff : p.asks = true ↔ p.running = true ∧ p.waiting = [] ∧ p.fault = none := by
  simp [asks, and_assoc]

def told (c : TelegramChannel) (p : Polling) : Except CallFault Datum :=
  (c.getUpdates p.listener.offset p.listener.wait p.desk.wire).1

theorem told_eq (c : TelegramChannel) (p : Polling) : p.told c =
    (TelegramChannel.outcome .getUpdates p.desk.wire.reply).map fun d =>
      if d.isTruthy then d else .list [] :=
  congrArg Prod.fst (TelegramChannel.getUpdates_eq ..)

theorem poll_failed {f : CallFault} (failed : p.told c = .error f) :
    ∃ desk, p.poll c = { p with desk } := by
  unfold told at failed
  unfold poll
  rcases h : c.getUpdates p.listener.offset p.listener.wait p.desk.wire with ⟨f | answer, wire⟩
  · exact ⟨_, rfl⟩
  · rw [h] at failed
    cases failed

theorem poll_answered {answer : Datum} (answered : p.told c = .ok answer) :
    ∃ desk, p.poll c = match Listener.updatesOf answer with
      | .error f => { p with desk, fault := some f }
      | .ok updates => { p with desk, waiting := updates } := by
  unfold told at answered
  unfold poll
  rcases h : c.getUpdates p.listener.offset p.listener.wait p.desk.wire with ⟨f | answer', wire⟩
  · rw [h] at answered
    cases answered
  · rw [h] at answered
    obtain rfl := Except.ok.inj answered
    exact ⟨{ p.desk with wire }, rfl⟩

theorem handle_object (c : TelegramChannel) (now : Instant) {members : List (String × Datum)}
    {rest : List Datum} (next : p.waiting = .obj members :: rest) : ∃ desk, p.handle c now =
      { p with
        listener := p.listener.advance (.obj members)
        desk
        waiting := rest
        taken := p.taken ++ [.obj members] } := by
  simp only [handle, next, Listener.handleUpdate]
  exact ⟨_, rfl⟩

theorem handleUpdate_other {u : Datum} (other : ∀ members, u ≠ .obj members) (l : Listener)
    (d : Desk) : Listener.handleUpdate c now l u d = (.error (.lacks u.kindName), l, d) := by
  unfold Listener.handleUpdate
  split
  · next members => exact absurd rfl (other members)
  · rfl

theorem handle_other {u : Datum} {rest : List Datum} (other : ∀ members, u ≠ .obj members)
    (next : p.waiting = u :: rest) : p.handle c now =
      { p with waiting := rest, taken := p.taken ++ [u], fault := some (.lacks u.kindName) } := by
  simp only [handle, next, handleUpdate_other other]

/-! ### Answers that the loop can go on from -/

def Usable : Except CallFault Datum → Prop
  | .error _ => True
  | .ok answer => ∃ items, answer = .list items ∧ ∀ u ∈ items, ∃ members, u = .obj members

/-- The loop broke off, or will when it comes to an update that is no object. -/
def Doomed (p : Polling) : Prop :=
  p.fault ≠ none ∨ ∃ u ∈ p.waiting, ∀ members, u ≠ .obj members

theorem told_present {answer : Datum} (answered : p.told c = .ok answer) :
    answer = .list [] ∨ answer.isTruthy = true := by
  rw [told_eq] at answered
  cases came : TelegramChannel.outcome .getUpdates p.desk.wire.reply with
  | error f =>
    rw [came] at answered
    cases answered
  | ok d =>
    rw [came] at answered
    obtain rfl := Except.ok.inj answered
    dsimp only
    split
    · next present => exact .inr present
    · exact .inl rfl

theorem ofText_ne_obj (text : LooseText) (members : List (String × Datum)) : Datum.ofText text ≠ .obj members := by
  cases text <;> exact nofun

theorem memberName_ne_obj (m : String × Datum) (members : List (String × Datum)) :
    Datum.memberName m ≠ .obj members := by
  unfold Datum.memberName
  split <;> exact nofun

theorem poll_doomed (quiet : p.waiting = []) (whole : p.fault = none) :
    (p.poll c).Doomed ↔ ¬ Usable (p.told c) := by
  cases got : p.told c with
  | error f =>
    obtain ⟨desk, after⟩ := poll_failed got
    simp [after, Doomed, quiet, whole, Usable]
  | ok answer =>
    obtain ⟨desk, after⟩ := poll_answered got
    have present := told_present got
    rw [after]
    cases answer with
    | list items => simp [Listener.updatesOf, Doomed, whole, Usable]
    | obj members =>
      -- A name is no object, and there is one.
      have some_name : members ≠ [] := by simpa [Datum.isTruthy] using present
      obtain ⟨m, member⟩ := List.exists_mem_of_ne_nil members some_name
      refine iff_of_true (.inr ⟨_, List.mem_map_of_mem member, memberName_ne_obj m⟩) ?_
      rintro ⟨items, same, -⟩
      cases same
    | str s =>
      have some_letter : s.toList ≠ [] := by simpa [Datum.isTruthy] using present
      obtain ⟨ch, member⟩ := List.exists_mem_of_ne_nil s.toList some_letter
      refine iff_of_true (.inr ⟨.str ch.toString, List.mem_map_of_mem member, nofun⟩) ?_
      rintro ⟨items, same, -⟩
      cases same
    | halved t =>
      have half : .inr t.half ∈ t.units := List.mem_append_right _ List.mem_cons_self
      refine iff_of_true (.inr ⟨_, List.mem_map_of_mem half, ofText_ne_obj _⟩) ?_
      rintro ⟨items, same, -⟩
      cases same
    | _ => simp [Listener.updatesOf, Doomed, Usable]

theorem handle_doomed (whole : p.fault = none) : (p.handle c now).Doomed ↔ p.Doomed := by
  rcases next : p.waiting with _ | ⟨u, rest⟩
  · simp only [handle, next]
  · by_cases object : ∃ members, u = .obj members
    · obtain ⟨members, rfl⟩ := object
      obtain ⟨desk, after⟩ := handle_object c now next
      rw [after]
      simp [Doomed, next, whole]
    · have other : ∀ members, u ≠ .obj members := fun members same => object ⟨members, same⟩
      rw [handle_other other next]
      simp [Doomed, next, other]

def outcomesOf (c : TelegramChannel) (p : Polling) : Event → List (Except CallFault Datum)
  | .poll => if p.asks then [p.told c] else []
  | _ => []

def outcomes (c : TelegramChannel) (p : Polling) : List Event → List (Except CallFault Datum)
  | [] => []
  | e :: rest => p.outcomesOf c e ++ outcomes c (p.step c e) rest

theorem step_doomed (e : Event) :
    (p.step c e).Doomed ↔ p.Doomed ∨ ∃ o ∈ p.outcomesOf c e, ¬ Usable o := by
  cases e with
  | poll =>
    simp only [step, outcomesOf]
    split
    · next asks =>
      obtain ⟨-, quiet, whole⟩ := asks_iff.1 asks
      have sound : ¬ p.Doomed := by simp [Doomed, quiet, whole]
      simp [poll_doomed quiet whole, sound]
    · simp
  | handle now =>
    simp only [step, outcomesOf]
    split
    · next whole => simp [handle_doomed (by simpa using whole)]
    · simp
  | stop => simp [step, outcomesOf, Doomed]
  | meanwhile desk => simp [step, outcomesOf, Doomed]

theorem run_doomed (events : List Event) :
    (p.run c events).Doomed ↔ p.Doomed ∨ ∃ o ∈ p.outcomes c events, ¬ Usable o := by
  induction events generalizing p with
  | nil => simp [run, outcomes]
  | cons e rest ih =>
    simp only [run, outcomes, ih, step_doomed, List.mem_append, or_and_right, exists_or, or_assoc]

theorem poll_running (c : TelegramChannel) (p : Polling) : (p.poll c).running = p.running := by
  cases got : p.told c with
  | error f =>
    obtain ⟨desk, after⟩ := poll_failed got
    rw [after]
  | ok answer =>
    obtain ⟨desk, after⟩ := poll_answered got
    rw [after]
    split <;> rfl

theorem handle_running (c : TelegramChannel) (now : Instant) (p : Polling) :
    (p.handle c now).running = p.running := by
  unfold handle
  split
  · rfl
  · split <;> rfl

theorem run_running (events : List Event) :
    (p.run c events).running = true ↔ p.running = true ∧ .stop ∉ events := by
  induction events generalizing p with
  | nil => simp [run]
  | cons e rest ih =>
    rw [run, ih]
    cases e with
    | poll =>
      simp only [step]
      split <;> simp [poll_running]
    | handle now =>
      simp only [step]
      split <;> simp [handle_running]
    | stop => simp [step]
    | meanwhile desk => simp [step]

/-! ### Taking up all that is waiting -/

theorem handle_waiting (c : TelegramChannel) (now : Instant) (p : Polling) :
    (p.handle c now).waiting = p.waiting.tail := by
  unfold handle
  split
  · next nothing => rw [nothing]; rfl
  · next u rest next => split <;> rw [next] <;> rfl

theorem step_broken (broken : p.fault ≠ none) (e : Event) : (p.step c e).fault = p.fault := by
  have told : p.fault.isNone = false := by simpa [Option.isSome_iff_ne_none] using broken
  cases e with
  | poll => simp [step, asks, told]
  | handle now => simp [step, told]
  | stop => rfl
  | meanwhile desk => rfl

theorem run_broken (broken : p.fault ≠ none) (events : List Event) :
    (p.run c events).fault ≠ none := by
  induction events generalizing p with
  | nil => exact broken
  | cons e rest ih => exact ih (by rwa [step_broken broken])

theorem handles_finish (times : List Instant) (enough : p.waiting.length ≤ times.length) :
    (p.run c (times.map .handle)).fault ≠ none ∨ (p.run c (times.map .handle)).waiting = [] := by
  induction times generalizing p with
  | nil => exact .inr (List.eq_nil_of_length_eq_zero (Nat.le_zero.1 enough))
  | cons t rest ih =>
    by_cases whole : p.fault = none
    · refine ih ?_
      simp only [step, whole, Option.isNone_none, if_true, handle_waiting, List.length_tail]
      exact Nat.sub_le_of_le_add enough
    · exact .inl (run_broken whole _)

theorem outcomes_handles (times : List Instant) : p.outcomes c (times.map .handle) = [] := by
  induction times generalizing p with
  | nil => rfl
  | cons t rest ih => exact ih

/-! ### Rounds -/

theorem handles_broken (broken : p.fault ≠ none) (n : Nat) :
    p.run c (List.replicate n (.handle now)) = p := by
  have told : p.fault.isNone = false := by simpa [Option.isSome_iff_ne_none] using broken
  induction n with
  | zero => rfl
  | succ n ih => simpa [List.replicate_succ, run, step, told] using ih

theorem handles_result (whole : p.fault = none) :
    (p.run c (List.replicate p.waiting.length (.handle now))).result =
      Listener.handleUpdates c now p.listener p.waiting p.desk := by
  generalize next : p.waiting = updates
  -- Once an update breaks the loop off, the steps that are left do nothing.
  induction updates generalizing p with
  | nil => simp [run, result, whole, Listener.handleUpdates]
  | cons u rest ih =>
    simp only [List.length_cons, List.replicate_succ, run, step, whole, Option.isNone_none, if_true,
      Listener.handleUpdates]
    cases came : Listener.handleUpdate c now p.listener u p.desk with
    | mk outcome after =>
      obtain ⟨listener, desk⟩ := after
      simp only [handle, next, came]
      cases outcome with
      | ok reply =>
        let q : Polling := { p with listener, desk, waiting := rest, taken := p.taken ++ [u] }
        have later := ih (p := q) whole rfl
        exact later
      | error f =>
        dsimp only
        rw [handles_broken (by simp)]
        rfl

theorem result_of_broken {f : PollFault} (broken : p.fault = some f) :
    p.result = (.error f, p.listener, p.desk) := by
  simp only [result, broken]

theorem result_of_whole (whole : p.fault = none) : p.result = (.ok (), p.listener, p.desk) := by
  simp only [result, whole]

theorem round_result (now : Instant) (asks : p.asks = true) :
    ∃ events, (∀ e ∈ events, e = .poll ∨ e = .handle now) ∧
      (p.run c events).result = Listener.round c now p.listener p.desk ∧
      ((p.run c events).fault = none → (p.run c events).asks = true) := by
  obtain ⟨running, quiet, whole⟩ := asks_iff.1 asks
  refine ⟨.poll :: List.replicate (p.poll c).waiting.length (.handle now), by simp, ?_, ?_⟩
  · simp only [run, step, asks, if_true]
    unfold Listener.round
    rcases got : c.getUpdates p.listener.offset p.listener.wait p.desk.wire with ⟨f | answer, wire⟩
    · simp [poll, got, quiet, whole, run, result]
    · rcases read : Listener.updatesOf answer with f | updates
      · simp [poll, got, read, quiet, run, result]
      · simp only [poll, got, read]
        exact handles_result (p := { p with desk := { p.desk with wire }, waiting := updates }) whole
  · have finished := handles_finish (c := c) (p := p.poll c)
      (List.replicate (p.poll c).waiting.length now) (by simp)
    rw [List.map_replicate] at finished
    simp only [run, step, asks, if_true]
    intro sound
    refine asks_iff.2 ⟨(run_running _).2 ⟨?_, by simp⟩, finished.resolve_left (· sound), sound⟩
    rwa [poll_running]

theorem rounds_result (now : Instant) (fuel : Nat) (asks : p.asks = true) :
    ∃ events, (∀ e ∈ events, e = .poll ∨ e = .handle now) ∧
      (p.run c events).result = Listener.rounds c now fuel p.listener p.desk := by
  induction fuel generalizing p with
  | zero =>
    obtain ⟨first, kinds, same, -⟩ := round_result (c := c) now asks
    exact ⟨first, kinds, same⟩
  | succ fuel ih =>
    obtain ⟨first, kinds, same, again⟩ := round_result (c := c) now asks
    rw [Listener.rounds, ← same]
    generalize here : p.run c first = q at again
    cases ended : q.fault with
    | some f =>
      rw [result_of_broken ended]
      exact ⟨first, kinds, by rw [here, result_of_broken ended]⟩
    | none =>
      rw [result_of_whole ended]
      dsimp only
      split
      · exact ⟨first, kinds, by rw [here, result_of_whole ended]⟩
      · obtain ⟨more, kinds', same'⟩ := ih (again ended)
        refine ⟨first ++ more, fun e member => ?_, by rw [run_append, here, same']⟩
        exact (List.mem_append.1 member).elim (kinds e) (kinds' e)

/-! ### The end of the loop -/

/-- Once the updates in hand are taken up, the loop is whole exactly if every poll so far failed or was
answered by a list of objects; then it asks again unless it was told to stop. Polls by the listener
itself are such a run. -/
theorem listening_goes_on (c : TelegramChannel) (l : Listener) (d : Desk) (events : List Event) :
    let p := (start l d).run c events
    let usable := ∀ o ∈ (start l d).outcomes c events, Usable o
    (∀ times : List Instant, p.waiting.length ≤ times.length →
      let q := p.run c (times.map .handle)
      (q.fault = none ↔ usable) ∧ (q.asks = true ↔ usable ∧ .stop ∉ events)) ∧
    (p.fault ≠ none → ¬ usable) ∧
    ∀ now, ∃ events', (∀ e ∈ events', e = .poll ∨ e = .handle now) ∧
      Listener.listen c now l d = ((start l d).run c events').result := by
  intro p usable
  have fresh : ¬ (start l d).Doomed := by simp [start, Doomed]
  have doomed : p.Doomed ↔ ¬ usable := by
    rw [run_doomed]
    simp [fresh, usable]
  refine ⟨?_, fun broken => doomed.1 (.inl broken), fun now => ?_⟩
  · intro times enough q
    have finished : q.fault ≠ none ∨ q.waiting = [] := handles_finish times enough
    have doomed' : q.Doomed ↔ ¬ usable := by
      rw [run_doomed, outcomes_handles, doomed]
      simp
    have broken : q.fault ≠ none ↔ q.Doomed := by
      refine ⟨.inl, fun doom => doom.elim id fun ⟨u, member, _⟩ => finished.resolve_right ?_⟩
      exact List.ne_nil_of_mem member
    have whole : q.fault = none ↔ usable := not_iff_not.1 (broken.trans doomed')
    refine ⟨whole, ?_⟩
    have running : q.running = true ↔ .stop ∉ events := by
      rw [run_running, run_running]
      simp [start]
    rw [asks_iff, running, whole]
    constructor
    · rintro ⟨going, -, sound⟩
      exact ⟨sound, going⟩
    · rintro ⟨sound, going⟩
      exact ⟨going, finished.resolve_left (· (whole.2 sound)), sound⟩
  · obtain ⟨events', kinds, same⟩ := rounds_result (c := c) (p := start l d) now
      d.wire.replies.length (by simp [start, asks])
    exact ⟨events', kinds, same.symm⟩

/-- A number in place of the updates breaks the loop off. -/
theorem listening_breaks_off_number :
    let reply := HttpReply.answer 200 "\x7b\"ok\":true,\"result\":5\x7d"
    let d : Desk := ⟨.ofLedger .empty, ⟨[reply], []⟩, []⟩
    (Listener.listen ⟨"", 1, 1000⟩ ⟨0, by decide⟩ ⟨none, 30, 0⟩ d).1 = .error (.notMany "int") := by
  intro reply d
  decide +kernel

end Polling

end ChoreReminder
