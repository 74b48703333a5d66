import ChoreReminder.Proofs.Calendar.Order
import ChoreReminder.Proofs.Ledger.Kept
import ChoreReminder.Proofs.Ledger.Operations
import ChoreReminder.Proofs.Schedule.Writing

/-! Times in the ledger. A time that means a moment of the calendar is stored as a text of one width, without
its offset; the texts compare like the moments, and each is read back as the moment in universal time. So keys,
maxima and orders that are formed of the texts are those of the moments. -/

namespace ChoreReminder

open Calendar

namespace Instant

variable {i j : Instant}

theorem stored_lt_stored : i.stored < j.stored ↔ i < j := by
  rw [← String.not_le, stored_le_stored]
  exact Nat.not_le

theorem length_stored (i : Instant) : i.stored.length = 32 := by
  obtain ⟨year, month, day⟩ := i.date_fits
  obtain ⟨hour, minute, second⟩ := i.clock_fits
  rw [← String.length_toList, stored_toList]
  simp only [List.length_append, List.length_cons, Text.length_padded (by decide) year,
    Text.length_padded (by decide) month, Text.length_padded (by decide) day, Text.length_padded (by decide) hour,
    Text.length_padded (by decide) minute, Text.length_padded (by decide) second,
    Text.length_padded (w := 6) (by decide) i.fraction_lt]
  rfl

end Instant

namespace Stamp

variable {a b : Stamp} {i : Instant}

def InCalendar (s : Stamp) : Prop :=
  (((⟨1, 1, 1⟩ : Date).number * day : Nat) : Int) ≤ s.meant ∧
    s.meant < (((⟨maxYear + 1, 1, 1⟩ : Date).number * day : Nat) : Int)

instance (s : Stamp) : Decidable s.InCalendar := inferInstanceAs (Decidable (_ ∧ _))

def storedText (s : Stamp) : Except LedgerFault String := (Ledger.storable s).map Instant.stored

theorem inCalendar_iff : a.InCalendar ↔ ∃ i, a.instant? = some i := by
  have first : (⟨1, 1, 1⟩ : Date).number * day = 0 := by decide
  have last : (⟨maxYear + 1, 1, 1⟩ : Date).number * day = limit := by decide
  rw [InCalendar, first, last]
  constructor
  · rintro ⟨low, high⟩
    have range : 0 ≤ a.meant ∧ a.meant.toNat < limit := by omega
    exact ⟨⟨a.meant.toNat, range.2⟩, dif_pos range⟩
  · rintro ⟨i, found⟩
    have same := meant_of_instant? found
    have below := i.inRange
    omega

theorem storedText_ok {i : Instant} (meant : a.instant? = some i) : a.storedText = .ok i.stored := by
  rw [storedText, Ledger.storable_eq_ok.2 meant]
  rfl

/-- Texts of times are before, the same or after each other as their moments are. They have one width, and each is
read back as the same moment in universal time, which has that text again. -/
theorem storedText_embeds (inside : a.InCalendar) (inside' : b.InCalendar) :
    ∃ s t, a.storedText = .ok s ∧ b.storedText = .ok t ∧
      (s < t ↔ a.meant < b.meant) ∧ (s = t ↔ a.meant = b.meant) ∧ (t < s ↔ b.meant < a.meant) ∧
      s.length = 32 ∧ t.length = 32 ∧
      ∃ back, ChoreRow.readTime s = .ok (some back) ∧ back.offset = some 0 ∧ back.meant = a.meant ∧
        back.storedText = .ok s := by
  obtain ⟨i, meant⟩ := inCalendar_iff.1 inside
  obtain ⟨j, meant'⟩ := inCalendar_iff.1 inside'
  refine ⟨i.stored, j.stored, storedText_ok meant, storedText_ok meant', ?_, ?_, ?_, i.length_stored,
    j.length_stored, .utc i, ChoreRow.readTime_stored i, rfl, ?_, storedText_ok (instant?_utc i)⟩
  all_goals rw [← meant_of_instant? meant]
  · rw [← meant_of_instant? meant', Instant.stored_lt_stored, Int.ofNat_lt]
    rfl
  · rw [← meant_of_instant? meant', Instant.stored_inj, Instant.eq_iff, Int.ofNat_inj]
  · rw [← meant_of_instant? meant', Instant.stored_lt_stored, Int.ofNat_lt]
    rfl
  · exact (meant_of_instant? (instant?_utc i)).symm

/-- The last moment of the calendar, written an hour west of universal time, and the first one. -/
theorem storedText_embeds_ends :
    let last : Stamp := ⟨⟨limit - hour - 1, by decide⟩, some (-(hour : Nat) : Int)⟩
    let first : Stamp := ⟨⟨0, by decide⟩, none⟩
    (last.InCalendar ∧ first.InCalendar) ∧
    last.storedText = .ok "9999-12-31T23:59:59.999999+00:00" ∧
    first.storedText = .ok "0001-01-01T00:00:00.000000+00:00" ∧
    "0001-01-01T00:00:00.000000+00:00" < "9999-12-31T23:59:59.999999+00:00" ∧
    ∃ back, ChoreRow.readTime "9999-12-31T23:59:59.999999+00:00" = .ok (some back) ∧ back.offset = some 0 ∧
      back.meant = last.meant := by
  intro last first
  have inside : last.InCalendar ∧ first.InCalendar := by decide +kernel
  have text : last.storedText = .ok "9999-12-31T23:59:59.999999+00:00" := by decide +kernel
  have text' : first.storedText = .ok "0001-01-01T00:00:00.000000+00:00" := by decide +kernel
  obtain ⟨s, t, written, written', -, -, later, -, -, back, read, universal, same, -⟩ :=
    storedText_embeds inside.1 inside.2
  obtain rfl := Except.ok.inj (text.symm.trans written)
  obtain rfl := Except.ok.inj (text'.symm.trans written')
  exact ⟨inside, text, text', later.2 (by decide +kernel), back, read, universal, same⟩

end Stamp

end ChoreReminder
