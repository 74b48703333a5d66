/-! Operations that may fail. A chain of them succeeds exactly when every link does, so the results of
the links can be read off the result of the chain. -/

namespace ChoreReminder

variable {ε ε' α β γ : Type}

theorem bind_eq_ok {x : Except ε α} {f : α → Except ε β} {b : β} :
    (x >>= f) = .ok b ↔ ∃ a, x = .ok a ∧ f a = .ok b := by
  cases x with
  | error e => simp [bind, Except.bind]
  | ok a => simp [bind, Except.bind]

theorem bind_eq_error {x : Except ε α} {f : α → Except ε β} {e : ε} :
    (x >>= f) = .error e ↔ x = .error e ∨ ∃ a, x = .ok a ∧ f a = .error e := by
  cases x with
  | error e => simp [bind, Except.bind]
  | ok a => simp [bind, Except.bind]

theorem pure_eq_ok {a b : α} : (pure a : Except ε α) = .ok b ↔ a = b := by
  simp [pure, Except.pure]

theorem map_eq_ok {x : Except ε α} {f : α → β} {b : β} : x.map f = .ok b ↔ ∃ a, x = .ok a ∧ f a = b := by
  cases x <;> simp [Except.map]

theorem map_bind {x : Except ε α} {f : α → Except ε β} {g : β → γ} :
    (x >>= f).map g = x >>= fun a => (f a).map g := by
  cases x <;> rfl

theorem mapError_ok (f : ε → ε') (a : α) : (Except.ok a).mapError f = .ok a := rfl

theorem mapError_error (f : ε → ε') (e : ε) :
    (Except.error e : Except ε α).mapError f = .error (f e) := rfl

theorem mapError_bind {x : Except ε α} {f : α → Except ε β} {g : ε → ε'} :
    (x >>= f).mapError g = x.mapError g >>= fun a => (f a).mapError g := by
  cases x <;> rfl

theorem mapError_eq_ok {x : Except ε α} {f : ε → ε'} {a : α} :
    x.mapError f = .ok a ↔ x = .ok a := by
  cases x with
  | error e => simp [mapError_error]
  | ok a => simp [mapError_ok]

theorem mapError_eq_error {x : Except ε α} {f : ε → ε'} {e : ε'} :
    x.mapError f = .error e ↔ ∃ e', x = .error e' ∧ f e' = e := by
  cases x with
  | error e => simp [mapError_error]
  | ok a => simp [mapError_ok]

theorem toOption_eq_some {x : Except ε α} {a : α} : x.toOption = some a ↔ x = .ok a := by
  cases x <;> simp [Except.toOption]

theorem isSome_toOption {x : Except ε α} : x.toOption.isSome = true ↔ ∃ a, x = .ok a := by
  simp only [Option.isSome_iff_exists, toOption_eq_some]

def fault? : Except ε α → Option ε
  | .error e => some e
  | .ok _ => none

theorem foldlM_ok {f : β → α → Except ε β} {g : β → α → β} (xs : List α)
    (agree : ∀ x ∈ xs, ∀ b, f b x = .ok (g b x)) (b : β) : xs.foldlM f b = .ok (xs.foldl g b) := by
  induction xs generalizing b with
  | nil => rfl
  | cons x rest ih =>
    obtain ⟨first, agree⟩ := List.forall_mem_cons.1 agree
    rw [List.foldlM_cons, first]
    exact ih agree _

theorem mapM_ok {f : α → Except ε β} {g : α → β} (xs : List α) (agree : ∀ x ∈ xs, f x = .ok (g x)) :
    xs.mapM f = .ok (xs.map g) := by
  induction xs with
  | nil => rfl
  | cons x rest ih =>
    obtain ⟨first, agree⟩ := List.forall_mem_cons.1 agree
    rw [List.mapM_cons, first, ih agree]
    rfl

theorem mapM_error {f : α → Except ε β} {e : ε} (xs : List α)
    (either : ∀ x ∈ xs, f x = .error e ∨ ∃ b, f x = .ok b) (failing : ∃ x ∈ xs, f x = .error e) :
    xs.mapM f = .error e := by
  induction xs with
  | nil => simp at failing
  | cons x rest ih =>
    obtain ⟨first, either⟩ := List.forall_mem_cons.1 either
    rw [List.mapM_cons]
    rcases first with failed | ⟨b, done⟩
    · rw [failed]
      rfl
    · obtain ⟨y, member, failed⟩ := failing
      rcases List.mem_cons.1 member with rfl | member
      · rw [done] at failed
        cases failed
      · rw [done, ih either ⟨y, member, failed⟩]
        rfl

end ChoreReminder
