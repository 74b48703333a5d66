import ChoreReminder.Proofs.Ledger.Operations

/-! What asking for an event adds. Chores and completions stay, and the events and deliveries of before
stay in front; behind them there is at most the event that was asked for and deliveries of its channels. -/

namespace ChoreReminder.Ledger

variable {l l₁ l' : Ledger}

structure Grown (l l' : Ledger) : Prop where
  chores : l'.chores = l.chores
  completions : l'.completions = l.completions
  events : l.events <+: l'.events
  deliveries : l.deliveries <+: l'.deliveries

namespace Grown

theorem refl (l : Ledger) : Grown l l := ⟨rfl, rfl, List.prefix_rfl, List.prefix_rfl⟩

theorem trans (h : Grown l l₁) (h' : Grown l₁ l') : Grown l l' where
  chores := h'.chores.trans h.chores
  completions := h'.completions.trans h.completions
  events := h.events.trans h'.events
  deliveries := h.deliveries.trans h'.deliveries

end Grown

theorem ensureEvent_grown {now : Instant} {choreId : String} {due : Instant}
    {title body id : String} (h : l.ensureEvent now choreId due title body = .ok (id, l')) :
    Grown l l' ∧ ∀ e ∈ l'.events, e ∈ l.events ∨ e.choreId = choreId ∧ e.dueAt = due := by
  rcases ensureEvent_ok h with ⟨e, -, -, rfl⟩ | ⟨-, -, -, rfl⟩
  · exact ⟨.refl _, fun e he => .inl he⟩
  · refine ⟨⟨rfl, rfl, List.prefix_append _ _, List.prefix_rfl⟩, fun e he => ?_⟩
    rcases List.mem_append.1 he with before | added
    · exact .inl before
    · rw [List.mem_singleton.1 added]
      exact .inr ⟨rfl, rfl⟩

theorem ensureDelivery_grown {now : Instant} {eventId : String} {channel : Option String}
    (h : ensureDelivery now eventId l channel = .ok l') : Grown l l' ∧ l'.events = l.events := by
  obtain ⟨name, -, ⟨d, -, rfl⟩ | ⟨-, rfl⟩⟩ := ensureDelivery_ok h
  · exact ⟨.refl _, rfl⟩
  · exact ⟨⟨rfl, rfl, List.prefix_rfl, List.prefix_append _ _⟩, rfl⟩

theorem ensureDeliveries_grown {now : Instant} {eventId : String} {channels : List (Option String)}
    (h : channels.foldlM (ensureDelivery now eventId) l = .ok l') :
    Grown l l' ∧ l'.events = l.events := by
  induction channels generalizing l with
  | nil =>
    rw [List.foldlM_nil, pure_eq_ok] at h
    exact h ▸ ⟨.refl _, rfl⟩
  | cons channel rest ih =>
    rw [List.foldlM_cons, bind_eq_ok] at h
    obtain ⟨l₁, first, later⟩ := h
    obtain ⟨grown, same⟩ := ensureDelivery_grown first
    obtain ⟨grown', same'⟩ := ih later
    exact ⟨grown.trans grown', same'.trans same⟩

theorem upsert_grown {now : Instant} {choreId : String} {due : Stamp} {title body id : String}
    {channels : List (Option String)}
    (h : l.upsert now choreId due title body channels = .ok (id, l')) :
    Grown l l' ∧
      ∀ e ∈ l'.events, e ∈ l.events ∨ e.choreId = choreId ∧ due.instant? = some e.dueAt := by
  obtain ⟨dueInstant, l₁, meant, event, deliveries⟩ := upsert_ok h
  obtain ⟨grown, added⟩ := ensureEvent_grown event
  obtain ⟨grown', same⟩ := ensureDeliveries_grown deliveries
  refine ⟨grown.trans grown', fun e he => ?_⟩
  rcases added e (same ▸ he) with before | ⟨chore, at'⟩
  · exact .inl before
  · exact .inr ⟨chore, at' ▸ meant⟩

end ChoreReminder.Ledger
