import ChoreReminder.Ledger.Store

/-! Calls of a store. One that fails leaves the ledger as it was. On a store without outages each call
reaches the ledger, and none leaves an outage behind. -/

namespace ChoreReminder.Store

variable {α : Type} {l : Ledger} {call : Call}

theorem write_cases (s : Store) (call : Call) (f : Ledger → Except LedgerFault (α × Ledger)) :
    (∃ e, (s.write call f).1 = .error e) ∧ (s.write call f).2.ledger = s.ledger ∨
      ∃ a, (s.write call f).1 = .ok a ∧ f s.ledger = .ok (a, (s.write call f).2.ledger) := by
  unfold write
  rcases connect call s.outages with ⟨_ | reason, outages⟩
  · cases hf : f s.ledger with
    | error e => exact .inl ⟨⟨e, rfl⟩, rfl⟩
    | ok r => exact .inr ⟨r.1, rfl, rfl⟩
  · exact .inl ⟨⟨_, rfl⟩, rfl⟩

theorem write_eq_ok {s s' : Store} {f : Ledger → Except LedgerFault (α × Ledger)} {a : α}
    (h : s.write call f = (.ok a, s')) : f s.ledger = .ok (a, s'.ledger) := by
  rcases s.write_cases call f with ⟨⟨e, failed⟩, -⟩ | ⟨b, given, done⟩
  · rw [h] at failed
    cases failed
  · rw [h] at given done
    obtain rfl := Except.ok.inj given
    exact done

theorem write_keeps {β : Type} {s : Store} {f : Ledger → Except LedgerFault (α × Ledger)} (g : Ledger → β)
    (keeps : ∀ a l', f s.ledger = .ok (a, l') → g l' = g s.ledger) (call : Call) :
    g (s.write call f).2.ledger = g s.ledger := by
  rcases s.write_cases call f with ⟨-, same⟩ | ⟨a, -, done⟩
  · rw [same]
  · exact keeps a _ done

theorem read_cases (s : Store) (call : Call) (f : Ledger → Except LedgerFault α) :
    (s.read call f).2.ledger = s.ledger ∧
      ((∃ e, (s.read call f).1 = .error e) ∨ (s.read call f).1 = f s.ledger) := by
  rcases s.write_cases call fun l => (f l).map (·, l) with ⟨failed, same⟩ | ⟨a, given, done⟩
  · exact ⟨same, .inl failed⟩
  · cases hf : f s.ledger with
    | error e =>
      rw [hf] at done
      cases done
    | ok b =>
      rw [hf] at done
      obtain ⟨rfl, same⟩ := Prod.mk.inj (Except.ok.inj done)
      exact ⟨same.symm, .inr given⟩

/-! ### Without outages -/

theorem eq_ofLedger {s : Store} (up : s.outages = []) : s = ofLedger s.ledger :=
  congrArg (Store.mk s.ledger) up

theorem write_outages {s : Store} (up : s.outages = []) (call : Call)
    (f : Ledger → Except LedgerFault (α × Ledger)) : (s.write call f).2.outages = [] := by
  unfold write
  simp only [up, connect]
  split <;> rfl

theorem write_ofLedger_ok {f : Ledger → Except LedgerFault (α × Ledger)} {a : α} {l' : Ledger}
    (h : f l = .ok (a, l')) : (ofLedger l).write call f = (.ok a, ofLedger l') := by
  simp [write, ofLedger, connect, h]

theorem write_ofLedger_error {f : Ledger → Except LedgerFault (α × Ledger)} {e : LedgerFault}
    (h : f l = .error e) : (ofLedger l).write call f = (.error e, ofLedger l) := by
  simp [write, ofLedger, connect, h]

theorem read_ofLedger (f : Ledger → Except LedgerFault α) :
    (ofLedger l).read call f = (f l, ofLedger l) := by
  cases h : f l with
  | ok a => exact write_ofLedger_ok (by rw [h]; rfl)
  | error e => exact write_ofLedger_error (by rw [h]; rfl)

end ChoreReminder.Store
