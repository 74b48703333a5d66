import Mathlib.Data.List.Nodup

/-! Lookups in lists of pairs. The first pair with the name is found, and it is the only one where no name stands
twice. -/

namespace ChoreReminder

variable {β : Type} {xs : List (String × β)} {k : String} {v : β}

theorem lookup_cons_ite (name key : String) (value : β) (rest : List (String × β)) :
    List.lookup name ((key, value) :: rest) = if name = key then some value else rest.lookup name := by
  by_cases same : name = key
  · simp [same]
  · have differs : (name == key) = false := by simpa using same
    simp only [List.lookup_cons, differs, if_neg same]

theorem lookup_eq_find? (xs : List (String × β)) (k : String) : xs.lookup k = (xs.find? (·.1 = k)).map (·.2) := by
  induction xs with
  | nil => rfl
  | cons x rest ih =>
    obtain ⟨n, v⟩ := x
    rw [lookup_cons_ite, List.find?_cons, ih]
    by_cases same : k = n
    · simp [same]
    · simp [same, Ne.symm same]

theorem mem_of_lookup (h : xs.lookup k = some v) : (k, v) ∈ xs := by
  obtain ⟨before, after, rfl, -⟩ := List.lookup_eq_some_iff.1 h
  simp

theorem lookup_of_absent (absent : k ∉ xs.map (·.1)) : xs.lookup k = none := by
  cases found : xs.lookup k with
  | none => rfl
  | some v => exact absurd (List.mem_map_of_mem (mem_of_lookup found)) absent

theorem lookup_of_mem (names : (xs.map (·.1)).Nodup) (h : (k, v) ∈ xs) : xs.lookup k = some v := by
  induction xs with
  | nil => cases h
  | cons x rest ih =>
    obtain ⟨n, w⟩ := x
    obtain ⟨fresh, names⟩ := List.nodup_cons.1 names
    rw [lookup_cons_ite]
    rcases List.mem_cons.1 h with same | h
    · obtain ⟨rfl, rfl⟩ := Prod.mk.inj same
      rw [if_pos rfl]
    · rw [if_neg fun same => fresh (List.mem_map.2 ⟨(k, v), h, same⟩), ih names h]

end ChoreReminder
