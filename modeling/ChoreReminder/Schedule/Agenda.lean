import ChoreReminder.Schedule.Due

/-! The agenda: the due states of many chores, soonest first. Chores without a due time come last, and
equal due times keep the order in which the chores were given. -/

namespace ChoreReminder

namespace DueInfo

def le (a b : DueInfo) : Bool :=
  match a.nextDue, b.nextDue with
  | some s, some t => s.micros ≤ t.micros
  | some _, none => true
  | none, some _ => false
  | none, none => true

end DueInfo

namespace Agenda

/-- Due states in the order of the chores, with the warnings met on the way. An overflow ends the
listing. -/
def evaluate (now : Stamp) (includeUpcoming : Bool) :
    List Chore → Except Overflow (List DueInfo) × List DueWarning
  | [] => (.ok [], [])
  | c :: rest =>
    match c.due now with
    | .overflow o => (.error o, [])
    | .skipped w =>
      let (infos, ws) := evaluate now includeUpcoming rest
      (infos, w :: ws)
    | .due info =>
      let (infos, ws) := evaluate now includeUpcoming rest
      (infos.map fun is => if info.isOverdue || includeUpcoming then info :: is else is, ws)

def collect (chores : List Chore) (now : Stamp) (includeUpcoming : Bool) :
    Except Overflow (List DueInfo) × List DueWarning :=
  let (infos, ws) := evaluate now includeUpcoming chores
  (infos.map (·.mergeSort DueInfo.le), ws)

end Agenda

end ChoreReminder
