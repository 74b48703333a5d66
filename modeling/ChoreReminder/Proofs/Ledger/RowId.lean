import ChoreReminder.Ledger.Basic
import ChoreReminder.Proofs.Text.Uuid

/-! Ids of rows. An id tells the number of its row, so an id that was given out once names one row for
ever, also after that row is gone. -/

namespace ChoreReminder

theorem rowId_inj {table : String} {m n : Nat} : rowId table m = rowId table n ↔ m = n := by
  simp only [rowId, String.append_right_inj, Text.padded_inj]

/-- The id of one of the first `count` rows of a table. -/
def IsIssued (table : String) (count : Nat) (id : String) : Prop :=
  ∃ n, n < count ∧ id = rowId table (n + 1)

theorem IsIssued.mono {table id : String} {m n : Nat} (h : IsIssued table m id) (le : m ≤ n) :
    IsIssued table n id := by
  obtain ⟨k, hk, rfl⟩ := h
  exact ⟨k, by omega, rfl⟩

theorem IsIssued.ne_empty {table id : String} {n : Nat} (h : IsIssued table n id) : id ≠ "" := by
  obtain ⟨k, -, rfl⟩ := h
  simp [rowId]

theorem isIssued_next (table : String) (count : Nat) :
    IsIssued table (count + 1) (rowId table (count + 1)) := ⟨count, by omega, rfl⟩

theorem not_isIssued_next (table : String) (count : Nat) :
    ¬ IsIssued table count (rowId table (count + 1)) := by
  rintro ⟨k, hk, h⟩
  have := rowId_inj.1 h
  omega

theorem isUuid_rowId {n : Nat} (fits : n < 10 ^ 12) : Text.IsUuid (rowId "c0000000" n) := by
  have front : ∀ c ∈ "c0000000000040008000".toList, c ∈ Text.lowerHex :=
    Text.forall_mem_of_all (by decide)
  refine ⟨"c0000000000040008000".toList ++ (Text.padded 12 n).toList, ?_, ?_, ?_⟩
  · rw [List.length_append, Text.length_padded (by decide) fits]
    rfl
  · intro c hc
    rcases List.mem_append.1 hc with h | h
    · exact front c h
    · exact Text.mem_lowerHex_of_isDigit (Text.isDigit_of_mem_padded h)
  · rw [rowId, String.toList_append, String.toList_append]
    rfl

theorem IsIssued.isUuid {id : String} {count : Nat} (h : IsIssued "c0000000" count id)
    (few : count < 10 ^ 12) : Text.IsUuid id := by
  obtain ⟨k, hk, rfl⟩ := h
  exact isUuid_rowId (by omega)

end ChoreReminder
