import Mathlib.Logic.Relation
import ChoreReminder.Proofs.Datum.Equality
import ChoreReminder.Proofs.Telegram.Polling

/-! The listener and a server that keeps a growing list of numbered updates. The server answers a request with
some of the updates that it asks for, the first ones in their order, or the request fails; updates arrive, and
the listener may be stopped, at any time. The offset of the listener is always one above the number of the
last update that was taken up, so what it asks for is exactly what it has not taken up. -/

namespace ChoreReminder

structure Update where
  datum : Datum
  number : Int
  numbered : (datum.get "update_id").wholeNumber? = some number

theorem Update.object (u : Update) : ∃ members, u.datum = .obj members := by
  obtain ⟨datum, number, numbered⟩ := u
  cases datum with
  | obj members => exact ⟨members, rfl⟩
  | _ => cases numbered

structure Server where
  updates : List Update
  increasing : updates.Pairwise (·.number < ·.number)

namespace Server

def data (s : Server) : List Datum := s.updates.map (·.datum)

def add (s : Server) (u : Update) (later : ∀ v ∈ s.updates, v.number < u.number) : Server where
  updates := s.updates ++ [u]
  increasing := List.pairwise_append.2
    ⟨s.increasing, List.pairwise_singleton .., fun v hv _ hw => List.mem_singleton.1 hw ▸ later v hv⟩

def requested (s : Server) (r : HttpRequest) : List Update :=
  match (r.payload.get "offset").wholeNumber? with
  | none => s.updates
  | some n => s.updates.filter (n ≤ ·.number)

inductive Replies (s : Server) (r : HttpRequest) (reply : HttpReply) : Prop where
  | failure (f : CallFault) (failed : TelegramChannel.outcome .getUpdates reply = .error f)
  | batch (updates : List Update) (first : updates <+: s.requested r)
      (told : TelegramChannel.outcome .getUpdates reply = .ok (.list (updates.map (·.datum))))

end Server

/-- The server and the loop of the listener. -/
structure Dialogue where
  server : Server
  loop : Polling

namespace Dialogue

def request (c : TelegramChannel) (x : Dialogue) : HttpRequest :=
  c.updatesRequest x.loop.listener.offset x.loop.listener.wait

inductive Step (c : TelegramChannel) : Dialogue → Dialogue → Prop where
  | arrive (x : Dialogue) (u : Update) (later : ∀ v ∈ x.server.updates, v.number < u.number) :
      Step c x { x with server := x.server.add u later }
  | act (x : Dialogue) (e : Polling.Event)
      (served : e = .poll → x.server.Replies (x.request c) x.loop.desk.wire.reply) :
      Step c x { x with loop := x.loop.step c e }

/-- The updates that were taken up, those that wait for it, and those that were not told of yet. -/
structure Parts (x : Dialogue) (done waiting later : List Update) : Prop where
  updates : x.server.updates = done ++ (waiting ++ later)
  taken : x.loop.taken = done.map (·.datum)
  waiting : x.loop.waiting = waiting.map (·.datum)
  offset : x.loop.listener.offset = done.getLast?.map (·.number + 1)
  whole : x.loop.fault = none

variable {c : TelegramChannel} {x y : Dialogue} {done waiting later : List Update}

theorem Parts.requested (parts : x.Parts done waiting later) :
    x.server.requested (x.request c) = waiting ++ later := by
  have increasing := x.server.increasing
  unfold Server.requested request
  rw [TelegramChannel.updatesRequest_offset, parts.offset, parts.updates]
  rw [parts.updates] at increasing
  rcases List.eq_nil_or_concat done with rfl | ⟨before, last, rfl⟩
  · rfl
  · -- Numbers increase, so the offset parts the list right after the last update that was taken up.
    rw [List.concat_eq_append] at increasing ⊢
    obtain ⟨taken, -, past⟩ := List.pairwise_append.1 increasing
    have past_last : ∀ u ∈ waiting ++ later, last.number < u.number :=
      past last (List.mem_append_right _ List.mem_cons_self)
    have up_to_last : ∀ u ∈ before ++ [last], u.number ≤ last.number := by
      intro u hu
      rcases List.mem_append.1 hu with hu | hu
      · exact Int.le_of_lt ((List.pairwise_append.1 taken).2.2 u hu last List.mem_cons_self)
      · exact Int.le_of_eq (congrArg Update.number (List.mem_singleton.1 hu))
    have none_below : (before ++ [last]).filter (last.number + 1 ≤ ·.number) = [] := by
      refine List.filter_eq_nil_iff.2 fun u hu => ?_
      simpa using Int.lt_add_one_of_le (up_to_last u hu)
    have all_above : (waiting ++ later).filter (last.number + 1 ≤ ·.number) = waiting ++ later := by
      refine List.filter_eq_self.2 fun u hu => ?_
      simpa using Int.add_one_le_of_lt (past_last u hu)
    rw [List.getLast?_concat, Option.map_some]
    dsimp only
    rw [List.filter_append, none_below, all_above, List.nil_append]

theorem Parts.taken_requested (parts : x.Parts done waiting later) :
    x.loop.taken ++ (x.server.requested (x.request c)).map (·.datum) = x.server.data := by
  rw [parts.requested, parts.taken, Server.data, parts.updates, ← List.map_append]

theorem Parts.poll (parts : x.Parts done waiting later) (quiet : x.loop.waiting = [])
    (served : x.server.Replies (x.request c) x.loop.desk.wire.reply) :
    ∃ waiting' later', Parts { x with loop := x.loop.poll c } done waiting' later' := by
  have none_waiting : waiting = [] := List.map_eq_nil_iff.1 (parts.waiting ▸ quiet)
  cases served with
  | failure f failed =>
    have told : x.loop.told c = .error f := by rw [Polling.told_eq, failed]; rfl
    obtain ⟨desk, after⟩ := Polling.poll_failed told
    refine ⟨waiting, later, ?_⟩
    rw [after]
    exact ⟨parts.updates, parts.taken, parts.waiting, parts.offset, parts.whole⟩
  | batch updates first told =>
    have told : x.loop.told c = .ok (.list (updates.map (·.datum))) := by
      rw [Polling.told_eq, told]
      cases updates <;> rfl
    obtain ⟨desk, after⟩ := Polling.poll_answered told
    rw [parts.requested, none_waiting, List.nil_append] at first
    obtain ⟨rest, split⟩ := first
    refine ⟨updates, rest, ?_⟩
    rw [after]
    refine ⟨?_, parts.taken, rfl, parts.offset, parts.whole⟩
    rw [split, parts.updates, none_waiting, List.nil_append]

theorem Parts.handle {u : Update} (parts : x.Parts done (u :: waiting) later) (now : Instant) :
    Parts { x with loop := x.loop.handle c now } (done ++ [u]) waiting later := by
  obtain ⟨members, object⟩ := u.object
  have next : x.loop.waiting = .obj members :: waiting.map (·.datum) := by
    rw [parts.waiting, List.map_cons, object]
  obtain ⟨desk, after⟩ := Polling.handle_object c now next
  rw [after]
  refine ⟨?_, ?_, rfl, ?_, parts.whole⟩
  · simpa using parts.updates
  · simp [parts.taken, object]
  · rw [List.getLast?_concat, Option.map_some]
    have numbered := u.numbered
    rw [object] at numbered
    simp only [Listener.advance, numbered]

theorem Step.parts (step : Step c x y) (parts : x.Parts done waiting later) :
    ∃ more waiting' later', y.Parts (done ++ more) waiting' later' := by
  cases step with
  | arrive u new =>
    refine ⟨[], waiting, later ++ [u], ?_, ?_, parts.waiting, ?_, parts.whole⟩
    · simp [Server.add, parts.updates]
    · simpa using parts.taken
    · simpa using parts.offset
  | act e served =>
    have still : Parts x (done ++ []) waiting later := by rwa [List.append_nil]
    cases e with
    | poll =>
      simp only [Polling.step]
      split
      · next asks =>
        obtain ⟨-, quiet, -⟩ := Polling.asks_iff.1 asks
        exact ⟨[], still.poll quiet (served rfl)⟩
      · exact ⟨[], waiting, later, still⟩
    | handle now =>
      simp only [Polling.step, parts.whole, Option.isNone_none, if_true]
      cases waiting with
      | nil =>
        have quiet : x.loop.waiting = [] := parts.waiting
        refine ⟨[], [], later, ?_⟩
        simpa only [Polling.handle, quiet] using still
      | cons u rest => exact ⟨[u], rest, later, parts.handle now⟩
    | stop =>
      exact ⟨[], waiting, later, still.updates, still.taken, still.waiting, still.offset, still.whole⟩
    | meanwhile desk =>
      exact ⟨[], waiting, later, still.updates, still.taken, still.waiting, still.offset, still.whole⟩

theorem run_parts (run : Relation.ReflTransGen (Step c) x y) (parts : x.Parts done waiting later) :
    ∃ more waiting' later', y.Parts (done ++ more) waiting' later' := by
  induction run with
  | refl => exact ⟨[], waiting, later, by rwa [List.append_nil]⟩
  | tail _ step ih =>
    obtain ⟨more, waiting', later', parts'⟩ := ih
    obtain ⟨more', parts''⟩ := step.parts parts'
    exact ⟨more ++ more', by rwa [← List.append_assoc]⟩

theorem nodup_data (s : Server) : s.data.Nodup := by
  refine List.pairwise_map.2 (s.increasing.imp fun {u v} less same => ?_)
  have number : some u.number = some v.number := by rw [← u.numbered, ← v.numbered, same]
  exact absurd (Option.some.inj number) (Int.ne_of_lt less)

/-- Whatever arrives, fails and comes of the presses, the listener takes up the updates of the server from the
first on, each once and in their order. A poll that fails changes nothing, an update that waits is
taken up by one step, and a poll asks for exactly those that were not taken up yet. -/
theorem updates_in_order {server : Server} {l : Listener} (fresh : l.offset = none) {d : Desk}
    (before : Relation.ReflTransGen (Step c) ⟨server, .start l d⟩ x)
    (later : Relation.ReflTransGen (Step c) x y) :
    (x.loop.taken ++ x.loop.waiting <+: x.server.data ∧ x.loop.taken.Nodup ∧ x.loop.fault = none) ∧
    x.loop.taken ++ (x.server.requested (x.request c)).map (·.datum) = x.server.data ∧
    (∀ f, x.loop.told c = .error f → (x.loop.poll c).listener = x.loop.listener ∧
      (x.loop.poll c).waiting = x.loop.waiting ∧ (x.loop.poll c).taken = x.loop.taken) ∧
    (∀ u rest now, x.loop.waiting = u :: rest →
      (x.loop.handle c now).taken = x.loop.taken ++ [u] ∧ (x.loop.handle c now).waiting = rest) ∧
    x.loop.taken <+: y.loop.taken ∧
    ∀ u ∈ x.loop.taken, u ∉ (y.server.requested (y.request c)).map (·.datum) := by
  have initial : Parts ⟨server, .start l d⟩ [] [] server.updates := ⟨rfl, rfl, rfl, fresh, rfl⟩
  obtain ⟨done, waiting, rest, parts⟩ := run_parts before initial
  rw [List.nil_append] at parts
  obtain ⟨more, waiting', rest', parts'⟩ := run_parts later parts
  have asked := parts.taken_requested (c := c)
  have asked' := parts'.taken_requested (c := c)
  have grown : x.loop.taken <+: y.loop.taken := by
    rw [parts.taken, parts'.taken, List.map_append]
    exact List.prefix_append ..
  refine ⟨⟨?_, ?_, parts.whole⟩, asked, ?_, ?_, grown, ?_⟩
  · rw [parts.taken, parts.waiting, Server.data, parts.updates, ← List.append_assoc, List.map_append,
      List.map_append]
    exact List.prefix_append ..
  · have distinct := nodup_data x.server
    rw [← asked] at distinct
    exact (List.nodup_append.1 distinct).1
  · intro f failed
    obtain ⟨desk, after⟩ := Polling.poll_failed failed
    rw [after]
    exact ⟨rfl, rfl, rfl⟩
  · intro u others now next
    cases waiting with
    | nil =>
      rw [parts.waiting] at next
      cases next
    | cons v vs =>
      have handled := parts.handle (c := c) now
      obtain ⟨rfl, rfl⟩ := List.cons.inj (parts.waiting.symm.trans next)
      refine ⟨?_, handled.waiting⟩
      rw [handled.taken, parts.taken, List.map_append]
      rfl
  · intro u hu again
    have distinct := nodup_data y.server
    rw [← asked'] at distinct
    exact (List.nodup_append.1 distinct).2.2 u (grown.subset hu) u again rfl

/-- Two updates, a poll that is lost, and a press that cannot be handled. -/
theorem updates_in_order_raised :
    let first : Update := ⟨.obj [("update_id", .int 7), ("callback_query", .obj [("data", .int 5)])],
      7, rfl⟩
    let second : Update := ⟨.obj [("update_id", .int 9)], 9, rfl⟩
    let server : Server := ⟨[first, second], by decide⟩
    let c : TelegramChannel := ⟨"", 1, 1000⟩
    let now : Instant := ⟨0, by decide⟩
    let l : Listener := ⟨none, 30, 0⟩
    let body := "\x7b\"ok\":true,\"result\":[\x7b\"update_id\":7,\"callback_query\":\x7b\"data\":5\x7d\x7d]\x7d"
    let reply (r : HttpReply) : Polling.Event := .meanwhile ⟨.ofLedger .empty, ⟨[r], []⟩, []⟩
    let d : Desk := ⟨.ofLedger .empty, .idle, []⟩
    let x : Dialogue := ⟨server, (Polling.start l d).run c
      [reply (.lost "ReadTimeout" ""), .poll, reply (.answer 200 body), .poll, .handle now]⟩
    let y : Dialogue := ⟨server, x.loop.step c .stop⟩
    Relation.ReflTransGen (Step c) ⟨server, .start l d⟩ x ∧ Relation.ReflTransGen (Step c) x y ∧
    x.loop.taken = [first.datum] ∧
    x.loop.desk.notices = [.pressNotHandled (.lacks "int" "startswith")] ∧
    first.datum ∉ (y.server.requested (y.request c)).map (·.datum) := by
  intro first second server c now l body reply d x y
  have before : Relation.ReflTransGen (Step c) ⟨server, .start l d⟩ x := by
    refine .tail (.tail (.tail (.tail (.tail .refl (.act _ (reply (.lost "ReadTimeout" "")) nofun))
      (.act _ .poll fun _ => .failure (.lost .getUpdates "ReadTimeout" "") rfl))
      (.act _ (reply (.answer 200 body)) nofun))
      (.act _ .poll fun _ => .batch [first] ⟨[second], rfl⟩ (by decide +kernel)))
      (.act _ (.handle now) nofun)
  have stopped : Relation.ReflTransGen (Step c) x y := .single (.act x .stop nofun)
  have taken : x.loop.taken = [first.datum] := by decide +kernel
  obtain ⟨-, -, -, -, -, gone⟩ := updates_in_order rfl before stopped
  exact ⟨before, stopped, taken, by decide +kernel, gone _ (taken ▸ List.mem_cons_self)⟩

end Dialogue

end ChoreReminder
