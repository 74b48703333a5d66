import ChoreReminder.Datum.Basic

/-! Equality of values, which can be decided member by member. -/

namespace ChoreReminder.Datum

mutual

def same : Datum → Datum → Bool
  | .null, .null => true
  | .bool a, .bool b => a = b
  | .int a, .int b => a = b
  | .real a, .real b => a = b
  | .str a, .str b => a = b
  | .halved a, .halved b => a = b
  | .list a, .list b => sameItems a b
  | .obj a, .obj b => sameMembers a b
  | .under n a, .under m b => decide (n = m) && same a b
  | .foreign a, .foreign b => a = b
  | _, _ => false

def sameItems : List Datum → List Datum → Bool
  | [], [] => true
  | a :: as, b :: bs => same a b && sameItems as bs
  | _, _ => false

def sameMembers : List (String × Datum) → List (String × Datum) → Bool
  | [], [] => true
  | (n, a) :: as, (m, b) :: bs => decide (n = m) && same a b && sameMembers as bs
  | _, _ => false

end

mutual

theorem same_iff : ∀ a b : Datum, same a b = true ↔ a = b
  | .null, b => by cases b <;> simp [same]
  | .bool _, b => by cases b <;> simp [same]
  | .int _, b => by cases b <;> simp [same]
  | .real _, b => by cases b <;> simp [same]
  | .str _, b => by cases b <;> simp [same]
  | .halved _, b => by cases b <;> simp [same]
  | .list items, b => by cases b <;> simp [same, sameItems_iff items]
  | .obj members, b => by cases b <;> simp [same, sameMembers_iff members]
  | .under _ d, b => by cases b <;> simp [same, same_iff d]
  | .foreign _, b => by cases b <;> simp [same]

theorem sameItems_iff : ∀ as bs : List Datum, sameItems as bs = true ↔ as = bs
  | [], bs => by cases bs <;> simp [sameItems]
  | a :: as, bs => by cases bs <;> simp [sameItems, same_iff a, sameItems_iff as]

theorem sameMembers_iff : ∀ as bs : List (String × Datum), sameMembers as bs = true ↔ as = bs
  | [], bs => by cases bs <;> simp [sameMembers]
  | (n, a) :: as, bs => by
    rcases bs with _ | ⟨⟨m, b⟩, bs⟩
    · simp [sameMembers]
    · simp [sameMembers, same_iff a, sameMembers_iff as, and_assoc]

end

instance : DecidableEq Datum := fun a b => decidable_of_iff (same a b = true) (same_iff a b)

end ChoreReminder.Datum
