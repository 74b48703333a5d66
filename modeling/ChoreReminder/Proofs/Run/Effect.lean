import ChoreReminder.Proofs.Ledger.History
import ChoreReminder.Proofs.Ledger.Kept
import ChoreReminder.Proofs.Ledger.Sound
import ChoreReminder.Proofs.Notify.Generator
import ChoreReminder.Proofs.Run.Outage

/-! What an episode of a run can do to the ledger, one case for each way in which calls that go through write.
The cases name the action they belong to as far as later arguments need it: only the removal of a chore
takes rows away, and only a request by hand or a tick of the generator adds events. -/

namespace ChoreReminder

namespace Action

def asks : Action → Bool
  | upsert .. | generate .. => true
  | _ => false

end Action

namespace Episode

def asksByHand : Episode → Bool
  | step ⟨_, .upsert ..⟩ => true
  | _ => false

end Episode

namespace Ledger

inductive Effect (l : Ledger) : Episode → Ledger → Prop where
  /-- All calls failed or were refused, or there was nothing to do. -/
  | none (t : Episode) : Effect l t l
  | createChore {now : Instant} {name : String} {schedule : Schedule} {description : Option String}
      {createdAt : Option Stamp} {chore : Chore} {l' : Ledger}
      (done : l.createChore now name schedule description createdAt = .ok (chore, l')) :
      Effect l (.step ⟨now, .createChore name schedule description createdAt⟩) l'
  | updateSchedule {now : Instant} {id : String} {schedule : Schedule} {found : Bool} {l' : Ledger}
      (done : l.updateSchedule now id schedule = .ok (found, l')) :
      Effect l (.step ⟨now, .updateSchedule id schedule⟩) l'
  | deleteChore (now : Instant) (id : String) :
      Effect l (.step ⟨now, .deleteChore id⟩) (l.deleteChore id).2
  | complete {s : Step} {choreId : String} {completedAt : Option Stamp} {notes : Option String}
      {completion : Completion} {l' : Ledger}
      (done : l.complete s.now choreId completedAt notes = .ok (completion, l')) : Effect l (.step s) l'
  | ask {s : Step} {l' : Ledger} (asks : s.action.asks = true) (grown : Grown l l')
      (course : Course l [] l') : Effect l (.step s) l'
  | mark (s : Step) (ms : List Mark) : Effect l (.step s) (ms.foldl (fun l m => (l.mark m).2) l)

end Ledger

open Ledger (Effect Course Grown Sound Kept)

namespace Store

theorem write_effect {α : Type} (s : Store) (call : Call) {t : Episode}
    {f : Ledger → Except LedgerFault (α × Ledger)}
    (effect : ∀ a l', f s.ledger = .ok (a, l') → Effect s.ledger t l') :
    Effect s.ledger t (s.write call f).2.ledger := by
  rcases s.write_cases call f with ⟨-, same⟩ | ⟨a, -, done⟩
  · rw [same]
    exact .none t
  · exact effect a _ done

theorem episode_effect (s : Store) (t : Episode) : Effect s.ledger t (s.after t).ledger := by
  rcases t with outage | ⟨now, action⟩
  · exact .none _
  cases action with
  | createChore => exact s.write_effect _ fun _ _ done => .createChore done
  | updateSchedule => exact s.write_effect _ fun _ _ done => .updateSchedule done
  | deleteChore id =>
    refine s.write_effect _ fun found l' done => ?_
    obtain rfl : (s.ledger.deleteChore id).2 = l' := congrArg Prod.snd (Except.ok.inj done)
    exact .deleteChore now id
  | complete =>
    exact s.write_effect _ fun _ _ (done : s.ledger.complete now _ _ _ = _) => .complete done
  | upsert =>
    exact s.write_effect _ fun _ _ done =>
      .ask rfl (Ledger.upsert_grown done).1 (Ledger.upsert_course done)
  | markDelivered id =>
    refine s.write_effect _ fun noted l' done => ?_
    obtain rfl : (s.ledger.mark ⟨id, now, none⟩).2 = l' := congrArg Prod.snd (Except.ok.inj done)
    exact .mark _ [_]
  | markFailed id reason =>
    refine s.write_effect _ fun noted l' done => ?_
    obtain rfl : (s.ledger.mark ⟨id, now, some reason⟩).2 = l' :=
      congrArg Prod.snd (Except.ok.inj done)
    exact .mark _ [_]
  | generate time channels =>
    obtain ⟨grown, course, -⟩ := Generator.tick_grown now channels s time
    exact .ask rfl grown course
  | dispatch crew batchSize maxAttempts =>
    obtain ⟨ms, marked⟩ :=
      Dispatcher.tick_ledger crew.send crew.registry now maxAttempts batchSize s crew.state
    simp only [after, perform, marked]
    exact .mark _ ms
  | press channel query wire =>
    rcases Press.handle_ledger channel now query ⟨s, wire, []⟩ with same | ⟨choreId, completion, -, done⟩
    · simp only [after, perform, same]
      exact .none _
    · exact .complete done

end Store

namespace Ledger.Effect

variable {l l' : Ledger} {t : Episode}

theorem course (h : Effect l t l') : ∃ ms, Course l ms l' := by
  cases h with
  | none => exact ⟨[], .refl l⟩
  | createChore done => exact ⟨[], .single (.createChore done)⟩
  | updateSchedule done => exact ⟨[], .single (.updateSchedule done)⟩
  | deleteChore now id => exact ⟨[], .single (.deleteChore l id)⟩
  | complete done => exact ⟨[], .single (.complete done)⟩
  | ask asks grown course => exact ⟨[], course⟩
  | mark s ms => exact ⟨ms, .marks l ms⟩

theorem notifications (h : Effect l t l') :
    (l'.events = l.events ∧ ∃ ms : List Mark,
      l'.deliveries = l.deliveries.map fun d => ms.foldl (fun d m => d.marked m) d) ∨
    (∃ id, t.action? = some (.deleteChore id) ∧ l' = (l.deleteChore id).2) ∨
    ((∃ s, t = .step s ∧ s.action.asks = true) ∧ Grown l l') := by
  have unmarked : l.deliveries = l.deliveries.map fun d => [].foldl (fun d m => d.marked m) d :=
    (List.map_id' _).symm
  cases h with
  | none => exact .inl ⟨rfl, [], unmarked⟩
  | createChore done =>
    obtain ⟨-, created, -, -, rfl⟩ := createChore_ok done
    exact .inl ⟨rfl, [], unmarked⟩
  | updateSchedule done =>
    obtain ⟨-, -, rfl⟩ := updateSchedule_ok done
    exact .inl ⟨rfl, [], unmarked⟩
  | deleteChore now id => exact .inr (.inl ⟨id, rfl, rfl⟩)
  | complete done =>
    obtain ⟨-, completed, -, rfl⟩ := complete_ok done
    exact .inl ⟨rfl, [], unmarked⟩
  | ask asks grown => exact .inr (.inr ⟨⟨_, rfl, asks⟩, grown⟩)
  | mark s ms =>
    rw [foldl_mark_ledger]
    exact .inl ⟨rfl, ms, rfl⟩

theorem keeps_event (h : Effect l t l') {e : Event} (he : e ∈ l.events) :
    e ∈ l'.events ∨
      t.action? = some (.deleteChore e.choreId) ∧ l' = (l.deleteChore e.choreId).2 := by
  rcases h.notifications with ⟨events, -⟩ | ⟨id, action, rfl⟩ | ⟨-, grown⟩
  · exact .inl (events ▸ he)
  · by_cases removed : e.choreId = id
    · obtain rfl := removed
      exact .inr ⟨action, rfl⟩
    · exact .inl (List.mem_filter.2 ⟨he, by simpa using removed⟩)
  · exact .inl (grown.events.subset he)

theorem events (h : Effect l t l') : l'.events ⊆ l.events ∨ t.asksByHand = true ∨
    ∃ now time channels, t = .step ⟨now, .generate time channels⟩ := by
  rcases h.notifications with ⟨events, -⟩ | ⟨id, -, rfl⟩ | ⟨⟨⟨now, action⟩, rfl, asks⟩, -⟩
  · exact .inl (events ▸ List.Subset.refl _)
  · exact .inl (List.filter_subset_self _)
  · cases action with
    | generate time channels => exact .inr (.inr ⟨now, time, channels, rfl⟩)
    | upsert => exact .inr (.inl rfl)
    | _ => cases asks

end Ledger.Effect

namespace Store

theorem run_course (s : Store) (episodes : List Episode) :
    ∃ ms, Course s.ledger ms (s.run episodes).ledger := by
  induction episodes generalizing s with
  | nil => exact ⟨[], .refl _⟩
  | cons t rest ih =>
    obtain ⟨ms, first⟩ := (s.episode_effect t).course
    obtain ⟨ms', later⟩ := ih (s.after t)
    exact ⟨ms ++ ms', first.append later⟩

theorem run_sound (episodes : List Episode) : Sound ((ofLedger .empty).run episodes).ledger :=
  (run_course (ofLedger .empty) episodes).elim fun _ course => Ledger.sound_empty.course course

theorem run_kept (episodes : List Episode) : Kept ((ofLedger .empty).run episodes).ledger :=
  (run_course (ofLedger .empty) episodes).elim fun _ course => Ledger.kept_empty.course course

end Store

end ChoreReminder
