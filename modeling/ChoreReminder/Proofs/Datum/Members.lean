import ChoreReminder.Datum.Json
import ChoreReminder.Proofs.Lookup

/-! Members of objects. A name leads to one value at most, since a member that is set twice keeps its place and
takes the later value; so every object that is read from JSON has each of its names once, and so have the
objects inside it. A way of names leads from object to object. -/

namespace ChoreReminder

namespace Datum

variable {ms : List (String × Datum)} {name k : String} {d : Datum}

/-! ### Setting a member -/

theorem lookup_setMember (name : String) (d : Datum) (ms : List (String × Datum)) (k : String) :
    (setMember name d ms).lookup k = if k = name then some d else ms.lookup k := by
  induction ms with
  | nil => rw [setMember, lookup_cons_ite]
  | cons m rest ih =>
    obtain ⟨n, v⟩ := m
    by_cases same : n = name
    · simp only [setMember, same, if_true, lookup_cons_ite]
      split <;> rfl
    · simp only [setMember, same, if_false, lookup_cons_ite, ih]
      by_cases own : k = n
      · rw [if_pos own, if_pos own, if_neg (own ▸ same)]
      · rw [if_neg own, if_neg own]

theorem mem_setMember {m : String × Datum} (h : m ∈ setMember name d ms) : m = (name, d) ∨ m ∈ ms := by
  induction ms with
  | nil => exact .inl (List.mem_singleton.1 h)
  | cons first rest ih =>
    obtain ⟨n, v⟩ := first
    rw [setMember] at h
    split at h
    · next same =>
      rcases List.mem_cons.1 h with rfl | h
      · exact .inl (by rw [same])
      · exact .inr (List.mem_cons_of_mem _ h)
    · rcases List.mem_cons.1 h with rfl | h
      · exact .inr List.mem_cons_self
      · exact (ih h).imp_right (List.mem_cons_of_mem _)

theorem setMember_of_absent (absent : name ∉ ms.map (·.1)) : setMember name d ms = ms ++ [(name, d)] := by
  induction ms with
  | nil => rfl
  | cons first rest ih =>
    obtain ⟨n, v⟩ := first
    obtain ⟨other, absent⟩ := not_or.1 (List.mem_cons.not.1 absent)
    rw [setMember, if_neg (Ne.symm other), ih absent, List.cons_append]

theorem setMember_names (name : String) (d : Datum) (ms : List (String × Datum)) :
    (setMember name d ms).map (·.1) =
      if name ∈ ms.map (·.1) then ms.map (·.1) else ms.map (·.1) ++ [name] := by
  split
  · next present =>
    induction ms with
    | nil => cases present
    | cons first rest ih =>
      obtain ⟨n, v⟩ := first
      by_cases same : n = name
      · rw [setMember, if_pos same, List.map_cons, List.map_cons]
      · rw [setMember, if_neg same, List.map_cons, List.map_cons,
          ih ((List.mem_cons.1 present).resolve_left (Ne.symm same))]
  · next absent => rw [setMember_of_absent absent, List.map_append, List.map_singleton]

theorem setMember_nodup (names : (ms.map (·.1)).Nodup) (name : String) (d : Datum) :
    ((setMember name d ms).map (·.1)).Nodup := by
  rw [setMember_names]
  split
  · exact names
  · next absent => exact names.append (List.nodup_singleton name) (List.disjoint_singleton.2 absent)

def setAll (entries ms : List (String × Datum)) : List (String × Datum) :=
  entries.foldl (fun ms m => setMember m.1 m.2 ms) ms

theorem setAll_cons (m : String × Datum) (rest ms : List (String × Datum)) :
    setAll (m :: rest) ms = setAll rest (setMember m.1 m.2 ms) := rfl

theorem mem_setAll {m : String × Datum} {entries : List (String × Datum)} (h : m ∈ setAll entries ms) :
    m ∈ ms ∨ m ∈ entries := by
  induction entries generalizing ms with
  | nil => exact .inl h
  | cons first rest ih =>
    rcases ih h with h | h
    · rcases mem_setMember h with rfl | h
      · exact .inr List.mem_cons_self
      · exact .inl h
    · exact .inr (List.mem_cons_of_mem _ h)

theorem setAll_nodup (entries ms : List (String × Datum)) (names : (ms.map (·.1)).Nodup) :
    ((setAll entries ms).map (·.1)).Nodup := by
  induction entries generalizing ms with
  | nil => exact names
  | cons m rest ih => exact ih _ (setMember_nodup names ..)

/-! ### Ways -/

def at? : Datum → List String → Option Datum
  | d, [] => some d
  | d, name :: rest => (d.get? name).bind (at? · rest)

theorem at?_cons (ms : List (String × Datum)) (name : String) (rest : List String) :
    (obj ms).at? (name :: rest) = (ms.lookup name).bind (at? · rest) := rfl

/-! ### Distinct names -/

/-- Every object that a way of names leads to has each of its names once. -/
inductive Distinct : Datum → Prop where
  | obj {ms : List (String × Datum)} (names : (ms.map (·.1)).Nodup) (members : ∀ m ∈ ms, Distinct m.2) :
      Distinct (.obj ms)
  | other {d : Datum} (other : ∀ ms, d ≠ .obj ms) : Distinct d

namespace Distinct

theorem names (h : Distinct (.obj ms)) : (ms.map (·.1)).Nodup := by
  cases h with
  | obj names => exact names
  | other other => exact absurd rfl (other ms)

theorem member (h : Distinct (.obj ms)) {m : String × Datum} (hm : m ∈ ms) : Distinct m.2 := by
  cases h with
  | obj _ members => exact members m hm
  | other other => exact absurd rfl (other ms)

theorem lookup (h : Distinct (.obj ms)) (found : ms.lookup k = some d) : Distinct d :=
  h.member (mem_of_lookup found)

theorem empty : Distinct (.obj []) := .obj .nil fun _ none => absurd none List.not_mem_nil

theorem setMember (h : Distinct (.obj ms)) (name : String) (value : Distinct d) :
    Distinct (.obj (setMember name d ms)) := by
  refine .obj (setMember_nodup h.names name d) fun m hm => ?_
  rcases mem_setMember hm with rfl | hm
  · exact value
  · exact h.member hm

end Distinct

/-! ### JSON -/

namespace Json

def Frame.Distinct : Frame → Prop
  | .list _ => True
  | .obj done | .member done _ => Datum.Distinct (.obj done)

def Expect.Distinct : Expect → Prop
  | .finished d => Datum.Distinct d
  | _ => True

def StateDistinct (state : Expect × List Frame) : Prop :=
  state.1.Distinct ∧ ∀ f ∈ state.2, f.Distinct

theorem waiting_distinct {done : List (String × Datum)} {name : LooseText} {outer : List Frame}
    (frames : ∀ f ∈ Frame.obj done :: outer, f.Distinct) : ∀ f ∈ Frame.member done name :: outer, f.Distinct := by
  obtain ⟨inner, outer⟩ := List.forall_mem_cons.1 frames
  exact List.forall_mem_cons.2 ⟨inner, outer⟩

theorem named_distinct {d : Datum} (value : Datum.Distinct d) (name : LooseText) :
    Datum.Distinct (named name d).2 := by
  cases name with
  | whole s => exact value
  | halved t => exact .other fun _ same => by cases same

theorem ofText_distinct (t : LooseText) : Datum.Distinct (ofText t) := by
  cases t with
  | whole s => exact .other fun _ same => by cases same
  | halved t => exact .other fun _ same => by cases same

theorem place_distinct {d : Datum} (value : Datum.Distinct d) {stack : List Frame}
    (frames : ∀ f ∈ stack, f.Distinct) {state : Expect × List Frame} (h : place d stack = some state) :
    StateDistinct state := by
  cases stack with
  | nil =>
    obtain rfl := Option.some.inj h
    exact ⟨value, frames⟩
  | cons frame outer =>
    obtain ⟨inner, outer⟩ := List.forall_mem_cons.1 frames
    cases frame with
    | list done =>
      obtain rfl := Option.some.inj h
      exact ⟨trivial, List.forall_mem_cons.2 ⟨trivial, outer⟩⟩
    | member done name =>
      obtain rfl := Option.some.inj h
      exact ⟨trivial, List.forall_mem_cons.2 ⟨Datum.Distinct.setMember inner _ (named_distinct value name), outer⟩⟩
    | obj done => cases h

theorem number?_eq_some {cs : List Char} {d : Datum} (h : number? cs = some d) :
    (∃ i, d = .int i) ∨ ∃ x, d = .real x := by
  unfold number? at h
  obtain ⟨⟨whole, rest⟩, -, h⟩ := Option.bind_eq_some_iff.1 h
  obtain ⟨⟨frac, rest'⟩, -, h⟩ := Option.bind_eq_some_iff.1 h
  obtain ⟨exp, -, h⟩ := Option.bind_eq_some_iff.1 h
  dsimp only at h
  split_ifs at h
  · exact .inl ⟨_, (Option.some.inj h).symm⟩
  · exact .inr ⟨_, (Option.some.inj h).symm⟩

theorem word?_distinct {cs : List Char} {d : Datum} (h : word? cs = some d) : Datum.Distinct d := by
  unfold word? at h
  split_ifs at h
  case neg =>
    rcases number?_eq_some h with ⟨i, rfl⟩ | ⟨x, rfl⟩
    · exact .other fun _ => Datum.noConfusion
    · exact .other fun _ => Datum.noConfusion
  all_goals exact .other fun ms same => by subst same; cases h

theorem takeValue_distinct {t : Token} {stack : List Frame} (frames : ∀ f ∈ stack, f.Distinct)
    {state : Expect × List Frame} (h : takeValue stack t = some state) : StateDistinct state := by
  unfold takeValue at h
  split at h
  · exact place_distinct (ofText_distinct _) frames h
  · obtain ⟨d, read, placed⟩ := Option.bind_eq_some_iff.1 h
    exact place_distinct (word?_distinct read) frames placed
  · obtain rfl := Option.some.inj h
    exact ⟨trivial, List.forall_mem_cons.2 ⟨trivial, frames⟩⟩
  · obtain rfl := Option.some.inj h
    exact ⟨trivial, List.forall_mem_cons.2 ⟨.empty, frames⟩⟩
  · cases h

theorem step_distinct (t : Token) {state state' : Expect × List Frame} (now : StateDistinct state)
    (h : step t state = some state') : StateDistinct state' := by
  have list (done : List Datum) : Datum.Distinct (.list done) := .other fun _ same => by cases same
  have frames := now.2
  unfold step at h
  split at h
  · exact takeValue_distinct frames h
  · split at h
    · exact place_distinct (list _) (List.forall_mem_cons.1 frames).2 h
    · exact takeValue_distinct frames h
  · split at h <;> cases h
    exact ⟨trivial, waiting_distinct frames⟩
  · split at h
    · cases h
      exact ⟨trivial, waiting_distinct frames⟩
    · exact place_distinct (List.forall_mem_cons.1 frames).1 (List.forall_mem_cons.1 frames).2 h
    · cases h
  · split at h <;> cases h
    exact ⟨trivial, frames⟩
  · split at h
    · cases h
      exact ⟨trivial, frames⟩
    · exact place_distinct (list _) (List.forall_mem_cons.1 frames).2 h
    · cases h
  · split at h
    · cases h
      exact ⟨trivial, frames⟩
    · exact place_distinct (List.forall_mem_cons.1 frames).1 (List.forall_mem_cons.1 frames).2 h
    · cases h
  · cases h

theorem steps_distinct (ts : List Token) {state state' : Expect × List Frame} (now : StateDistinct state)
    (h : ts.foldlM (fun state t => step t state) state = some state') : StateDistinct state' := by
  induction ts generalizing state with
  | nil =>
    obtain rfl := Option.some.inj h
    exact now
  | cons t rest ih =>
    obtain ⟨next, first, h⟩ := Option.bind_eq_some_iff.1 h
    exact ih (step_distinct t now first) h

theorem read?_distinct {cs : List Char} {d : Datum} (h : read? cs = some d) : Datum.Distinct d := by
  obtain ⟨ts, -, h⟩ := Option.bind_eq_some_iff.1 h
  obtain ⟨state, read, h⟩ := Option.bind_eq_some_iff.1 h
  have fresh : StateDistinct (.value, []) := ⟨trivial, fun f none => absurd none List.not_mem_nil⟩
  have last := steps_distinct ts fresh read
  split at h
  · obtain rfl := Option.some.inj h
    exact last.1
  · cases h

end Json

end Datum

end ChoreReminder
