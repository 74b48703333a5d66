import ChoreReminder.Text.Halved

/-! Texts put together. A text put together has the units of its parts in their order, so it holds half of a
surrogate pair exactly if one of its parts does. -/

namespace ChoreReminder.LooseText

theorem units_append (a b : LooseText) : (a ++ b).units = a.units ++ b.units := by
  change (append a b).units = _
  cases a with
  | whole s => cases b <;> simp [append, units, HalvedText.units]
  | halved t => simp [append, units, HalvedText.units]

protected theorem append_assoc (a b c : LooseText) : a ++ b ++ c = a ++ (b ++ c) := by
  cases a with
  | halved t =>
    have rest : t.rest ++ b.units ++ c.units = t.rest ++ (b ++ c).units := by
      rw [units_append, List.append_assoc]
    exact congrArg (fun rest => halved { t with rest }) rest
  | whole s =>
    cases b with
    | halved t => rfl
    | whole t =>
      cases c with
      | whole u => exact congrArg whole (String.append_assoc ..)
      | halved u => exact congrArg (fun front => halved { u with front }) (String.append_assoc ..)

@[simp] theorem isWhole_whole (s : String) : (whole s).isWhole = true := rfl

@[simp] theorem isWhole_append (a b : LooseText) : (a ++ b).isWhole = (a.isWhole && b.isWhole) := by
  cases a <;> cases b <;> rfl

@[simp] theorem isSome_whole? (a : LooseText) : a.whole?.isSome = a.isWhole := by
  cases a <;> rfl

theorem isWhole_eq_false {a : LooseText} : a.isWhole = false ↔ ∃ t, a = .halved t := by
  cases a <;> simp [isWhole]

end ChoreReminder.LooseText
