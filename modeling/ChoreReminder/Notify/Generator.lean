import ChoreReminder.Ledger.Store
import ChoreReminder.Log.Notice
import ChoreReminder.Notify.Message
import ChoreReminder.Schedule.Agenda

/-! The generator: it turns overdue chores into events with a delivery for each channel. A tick may be
repeated at will, because an occurrence that is recorded already is found again; and what the store
refuses for one chore does not touch the others. -/

namespace ChoreReminder

namespace Store

def agenda (s : Store) (now : Stamp) (includeUpcoming : Bool) :
    Except LedgerFault (List DueInfo) × Store × List Notice :=
  match s.read .candidates fun l => .ok l.candidates with
  | (.error f, s) => (.error f, s, [])
  | (.ok (chores, skipped), s) =>
    let (infos, warnings) := Agenda.collect chores now includeUpcoming
    (infos.mapError .overflow, s,
      (skipped.map fun (id, f) => .choreSkipped id f) ++ warnings.map .notEvaluated)

end Store

structure Generated where
  count : Nat
  store : Store
  notices : List Notice

namespace Generator

def generateOne (now : Instant) (channels : List (Option String)) (g : Generated)
    (info : DueInfo) : Generated :=
  match info.nextDue with
  | none => g
  | some due =>
    let message := DueMessage.of info.chore.name due
    let upsert (l : Ledger) :=
      l.upsert now info.chore.id (.utc due) message.title message.body channels
    match g.store.write .upsert upsert with
    | (.ok _, store) => { g with count := g.count + 1, store }
    | (.error f, store) =>
      { g with store, notices := g.notices ++ [.eventNotCreated info.chore.id f] }

/-- A tick: `now` is the present instant, `at` the time for which overdue chores are looked up. -/
def tick (now : Instant) (time : Stamp) (channels : List (Option String)) (s : Store) : Generated :=
  match s.agenda time false with
  | (.error f, s, notices) => ⟨0, s, notices ++ [.dueUnavailable f]⟩
  | (.ok infos, s, notices) => infos.foldl (generateOne now channels) ⟨0, s, notices⟩

end Generator

end ChoreReminder
