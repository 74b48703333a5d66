import ChoreReminder.Telegram.Press
import ChoreReminder.Proofs.Ledger.Store

/-! What a press does to a ledger: it records one completion of the chore it names, or leaves the ledger
alone. Only the step that records writes to the ledger; what goes over the wire
before and after it has no say in that. -/

namespace ChoreReminder.Press

variable (c : TelegramChannel) (now : Instant)

theorem clearKeyboard_store (message : Datum) (d : Desk) :
    (clearKeyboard c message d).2.store = d.store := by
  unfold clearKeyboard
  split
  · rfl
  · rfl
  · split
    · rfl
    · split <;> rfl

theorem answer_store (query : Datum) (reply : PressReply) (d : Desk) :
    (answer c query reply d).2.store = d.store := by
  unfold answer
  simp only []
  split
  · split
    · rfl
    · split <;> rfl
  · rfl

theorem record_write (choreId : String) (sent : Option Instant) (s : Store) :
    ∃ s' : Store, (s' = s ∨ ∃ t, s' =
        (s.read .completionExists fun l => l.completionExists choreId (some (.utc t))).2) ∧
      ((record now choreId sent s).2 = s' ∨ (record now choreId sent s).2 =
        (s'.write .complete fun l => l.complete now choreId none (some notes)).2) := by
  unfold record
  cases sent with
  | none =>
    refine ⟨s, .inl rfl, .inr ?_⟩
    dsimp only
    split <;> next written => exact (congrArg Prod.snd written).symm
  | some t =>
    refine ⟨_, .inr ⟨t, rfl⟩, ?_⟩
    dsimp only
    rcases s.read .completionExists fun l => l.completionExists choreId (some (.utc t)) with
      ⟨f | _ | _, s'⟩
    · exact .inl rfl
    · refine .inr ?_
      dsimp only
      split <;> next written => exact (congrArg Prod.snd written).symm
    · exact .inl rfl

theorem record_ledger (choreId : String) (sent : Option Instant) (s : Store) :
    (record now choreId sent s).2.ledger = s.ledger ∨
    ∃ completion, s.ledger.complete now choreId none (some notes) =
      .ok (completion, (record now choreId sent s).2.ledger) := by
  obtain ⟨s', looked, recorded⟩ := record_write now choreId sent s
  have same : s'.ledger = s.ledger := by
    rcases looked with rfl | ⟨t, rfl⟩
    · rfl
    · exact (s.read_cases _ _).1
  rw [← same]
  rcases recorded with store | store <;> rw [store]
  · exact .inl rfl
  · exact (s'.write_cases _ _).imp And.right fun ⟨completion, _, done⟩ => ⟨completion, done⟩

theorem record_outages (choreId : String) (sent : Option Instant) {s : Store} (up : s.outages = []) :
    (record now choreId sent s).2.outages = [] := by
  obtain ⟨s', looked, recorded⟩ := record_write now choreId sent s
  have up' : s'.outages = [] := by
    rcases looked with rfl | ⟨t, rfl⟩
    · exact up
    · exact Store.write_outages up _ _
  rcases recorded with store | store <;> rw [store]
  · exact up'
  · exact Store.write_outages up' _ _

theorem markDone_recorded {message : Datum} {sent : Option Instant} (meant : moment message = .ok sent)
    (choreId : String) (d : Desk) :
    (markDone c now choreId message d).2.store = (record now choreId sent d.store).2 := by
  unfold markDone
  rw [meant]
  rcases hr : record now choreId sent d.store with ⟨f | reply, store⟩
  · cases f <;> simp [hr, Desk.note]
  · have kept := clearKeyboard_store c message { d with store }
    simp only [hr]
    rcases hk : clearKeyboard c message { d with store } with ⟨f | u, desk⟩
    · rw [hk] at kept
      simp only
      split <;> exact kept
    · rw [hk] at kept
      exact kept

theorem markDone_store (choreId : String) (message : Datum) (d : Desk) :
    (markDone c now choreId message d).2.store = d.store ∨
      ∃ sent, (markDone c now choreId message d).2.store = (record now choreId sent d.store).2 := by
  cases meant : moment message with
  | error f =>
    unfold markDone
    rw [meant]
    exact .inl rfl
  | ok sent => exact .inr ⟨sent, markDone_recorded c now meant choreId d⟩

theorem act_of_asked {query data : Datum} {choreId : String} (given : member query "data" = .ok data)
    (asked : choreIdOf data = .ok (.ok choreId)) (d : Desk) :
    act c now query d = markDone c now choreId (orEmpty (query.get "message")) d := by
  simp only [act, given, asked]

def named? (query : Datum) : Option String :=
  match (member query "data").bind choreIdOf with
  | .ok (.ok choreId) => some choreId
  | _ => none

theorem act_store (query : Datum) (d : Desk) :
    (act c now query d).2.store = d.store ∨ ∃ choreId sent, named? query = some choreId ∧
      (act c now query d).2.store = (record now choreId sent d.store).2 := by
  unfold act named?
  cases member query "data" with
  | error f => exact .inl rfl
  | ok data =>
    cases asked : choreIdOf data with
    | error f => exact .inl (by simp only [asked])
    | ok r =>
      cases r with
      | error reply => exact .inl (by simp only [asked])
      | ok choreId =>
        simp only [Except.bind, asked]
        rcases markDone_store c now choreId (orEmpty (query.get "message")) d with h | ⟨sent, h⟩
        · exact .inl h
        · exact .inr ⟨choreId, sent, rfl, h⟩

theorem handle_store (query : Datum) (d : Desk) :
    (handle c now query d).2.store = (act c now query d).2.store := by
  unfold handle
  rcases act c now query d with ⟨f | reply, desk⟩
  · rfl
  · exact answer_store c query reply desk

theorem handle_ledger (query : Datum) (d : Desk) :
    (handle c now query d).2.store.ledger = d.store.ledger ∨
    ∃ choreId completion, named? query = some choreId ∧
      d.store.ledger.complete now choreId none (some notes) =
        .ok (completion, (handle c now query d).2.store.ledger) := by
  rw [handle_store]
  rcases act_store c now query d with same | ⟨choreId, sent, named, same⟩
  · exact .inl (congrArg Store.ledger same)
  · rw [same]
    exact (record_ledger now choreId sent d.store).imp id fun ⟨completion, done⟩ =>
      ⟨choreId, completion, named, done⟩

theorem handle_outages (query : Datum) {d : Desk} (up : d.store.outages = []) :
    (handle c now query d).2.store.outages = [] := by
  rw [handle_store]
  rcases act_store c now query d with same | ⟨choreId, sent, -, same⟩ <;> rw [same]
  · exact up
  · exact record_outages now choreId sent up

end ChoreReminder.Press
