/-! Senders by channel. A channel has one sender at most: registering a second one replaces the first
in its place. -/

namespace ChoreReminder

structure Registry (α : Type) where
  entries : List (String × α)

namespace Registry

variable {α : Type}

def empty : Registry α := ⟨[]⟩

def set (channel : String) (sender : α) : List (String × α) → List (String × α)
  | [] => [(channel, sender)]
  | (c, s) :: rest => if c = channel then (c, sender) :: rest else (c, s) :: set channel sender rest

def register (r : Registry α) (channel : String) (sender : α) : Registry α :=
  ⟨set channel sender r.entries⟩

def get? (r : Registry α) (channel : String) : Option α := r.entries.lookup channel

def contains (r : Registry α) (channel : String) : Bool := (r.get? channel).isSome

def size (r : Registry α) : Nat := r.entries.length

def channels (r : Registry α) : List String := (r.entries.map (·.1)).mergeSort (· ≤ ·)

/-- A registry of many senders, and the channels whose sender was replaced on the way. -/
def ofList (senders : List (String × α)) : Registry α × List String :=
  senders.foldl (fun (r, replaced) (channel, sender) =>
    (r.register channel sender, if r.contains channel then replaced ++ [channel] else replaced))
    (empty, [])

end Registry

end ChoreReminder
