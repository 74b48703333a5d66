import ChoreReminder.Proofs.Datum.Members
import ChoreReminder.Settings.Layers

/-! Documents that are built like an outline. A known name may be spelled in any case; of several spellings the last
one counts, and one that is spelled as it is known has no other behind it. -/

namespace ChoreReminder

open Datum (Distinct)

namespace Datum

def last? (name : String) : List (String × Datum) → Option Datum
  | [] => none
  | m :: rest => (last? name rest).or (if Text.lowerText m.1 = name then some m.2 else none)

/-- The value at the end of a way of names, each of them in any case. -/
def anyCase? : Datum → List String → Option Datum
  | d, [] => some d
  | .obj ms, name :: rest => (last? name ms).bind (anyCase? · rest)
  | _, _ :: _ => none

variable {ms : List (String × Datum)} {name : String} {d : Datum}

theorem anyCase?_nil (d : Datum) : d.anyCase? [] = some d := by
  cases d <;> rfl

theorem anyCase?_cons (ms : List (String × Datum)) (name : String) (rest : List String) :
    (obj ms).anyCase? (name :: rest) = (last? name ms).bind (anyCase? · rest) := rfl

theorem mem_of_last? (h : last? name ms = some d) : ∃ m ∈ ms, Text.lowerText m.1 = name ∧ m.2 = d := by
  induction ms with
  | nil => cases h
  | cons first rest ih =>
    rw [last?] at h
    rcases Option.or_eq_some_iff.1 h with h | ⟨-, h⟩
    · obtain ⟨m, hm, found⟩ := ih h
      exact ⟨m, List.mem_cons_of_mem _ hm, found⟩
    · split at h
      · next own => exact ⟨first, List.mem_cons_self, own, Option.some.inj h⟩
      · cases h

theorem last?_eq_none (h : ∀ m ∈ ms, Text.lowerText m.1 ≠ name) : last? name ms = none := by
  cases found : last? name ms with
  | none => rfl
  | some d =>
    obtain ⟨m, hm, own, -⟩ := mem_of_last? found
    exact absurd own (h m hm)

theorem last?_setMember_of_ne {k : String} (other : Text.lowerText name ≠ k) :
    last? k (setMember name d ms) = last? k ms := by
  induction ms with
  | nil => simp [setMember, last?, other]
  | cons first rest ih =>
    obtain ⟨n, v⟩ := first
    rw [setMember]
    split
    · next same =>
      subst same
      simp [last?, other]
    · rw [last?, ih, last?]

end Datum

namespace Outline

def IsLeaf (o : Outline) : Prop := ∀ fields, o ≠ .group fields

def isGroup : Outline → Bool
  | .group _ => true
  | _ => false

theorem isLeaf_iff {o : Outline} : ¬ o.isGroup = true ↔ o.IsLeaf := by
  cases o <;> simp [isGroup, IsLeaf]

/-- Behind a name that is spelled as it is known, no other spelling of it stands. -/
def Settled (fields : List (String × Outline)) (names : List String) : Prop :=
  names.Pairwise fun n n' => (fields.lookup n).isSome = true → Text.lowerText n' ≠ n

/-- The datum is built as the outline says: groups are objects, and what is no group is no object. Names of strict
parts are spelled as they are known. -/
inductive Fits (strict : Outline → Bool) : Outline → Datum → Prop where
  | single {d : Datum} (plain : ∀ ms, d ≠ .obj ms) : Fits strict .single d
  | list {d : Datum} (plain : ∀ ms, d ≠ .obj ms) : Fits strict .list d
  | group {fields : List (String × Outline)} {ms : List (String × Datum)} (settled : Settled fields (ms.map (·.1)))
      (spelled : ∀ m ∈ ms, ∀ part, fields.lookup (Text.lowerText m.1) = some part → strict part = true →
        Text.lowerText m.1 = m.1)
      (members : ∀ m ∈ ms, ∀ part, fields.lookup (Text.lowerText m.1) = some part → Fits strict part m.2) :
      Fits strict (.group fields) (.obj ms)

abbrev FitsExactly (o : Outline) (d : Datum) : Prop := o.Fits (fun _ => true) d

variable {strict : Outline → Bool} {o part : Outline} {d : Datum} {ms : List (String × Datum)}
  {fields : List (String × Outline)} {name : String}

theorem Fits.plain (h : o.Fits strict d) (leaf : o.IsLeaf) (ms : List (String × Datum)) : d ≠ .obj ms := by
  cases h with
  | single plain | list plain => exact plain ms
  | group => exact absurd rfl (leaf _)

theorem Fits.of_plain (plain : ∀ ms, d ≠ .obj ms) (leaf : o.IsLeaf) : o.Fits strict d := by
  cases o with
  | single => exact .single plain
  | list => exact .list plain
  | group fields => exact absurd rfl (leaf fields)

theorem Fits.object (h : (Outline.group fields).Fits strict d) : ∃ ms, d = .obj ms := by
  cases h
  exact ⟨_, rfl⟩

theorem Fits.settled (h : (Outline.group fields).Fits strict (.obj ms)) : Settled fields (ms.map (·.1)) := by
  cases h
  assumption

theorem Fits.spelled (h : (Outline.group fields).Fits strict (.obj ms)) {m : String × Datum} (hm : m ∈ ms)
    (known : fields.lookup (Text.lowerText m.1) = some part) (strictly : strict part = true) :
    Text.lowerText m.1 = m.1 := by
  cases h with
  | group _ spelled => exact spelled m hm part known strictly

theorem Fits.member (h : (Outline.group fields).Fits strict (.obj ms)) {m : String × Datum} (hm : m ∈ ms)
    (known : fields.lookup (Text.lowerText m.1) = some part) : part.Fits strict m.2 := by
  cases h with
  | group _ _ members => exact members m hm part known

theorem Fits.last? (h : (Outline.group fields).Fits strict (.obj ms)) (known : fields.lookup name = some part)
    (found : Datum.last? name ms = some d) : part.Fits strict d := by
  obtain ⟨m, hm, rfl, rfl⟩ := Datum.mem_of_last? found
  exact h.member hm known

theorem Fits.empty : (Outline.group fields).Fits strict (.obj []) :=
  .group .nil (fun _ none => absurd none List.not_mem_nil) fun _ none => absurd none List.not_mem_nil

theorem Fits.relaxed (h : o.FitsExactly d) : o.Fits strict d := by
  induction h with
  | single plain => exact .single plain
  | list plain => exact .list plain
  | group settled spelled members ih =>
    exact .group settled (fun m hm part known _ => spelled m hm part known rfl) ih

/-! ### The check -/

section Check

theorem Fits.iff_plain (plain : ∀ ms, d ≠ .obj ms) : o.Fits strict d ↔ o.isGroup = false := by
  constructor
  · intro fits
    cases fits with
    | single | list => rfl
    | @group fields ms => exact absurd rfl (plain ms)
  · intro leaf
    refine .of_plain plain ?_
    rintro fields rfl
    cases leaf

theorem Fits.iff_members : o.Fits strict (.obj ms) ↔ o.isGroup = true ∧ Settled o.fields (ms.map (·.1)) ∧
    ∀ m ∈ ms, ∀ part, o.fields.lookup (Text.lowerText m.1) = some part →
      (strict part = true → Text.lowerText m.1 = m.1) ∧ part.Fits strict m.2 := by
  constructor
  · intro fits
    cases fits with
    | single plain | list plain => exact absurd rfl (plain ms)
    | group settled spelled members =>
      exact ⟨rfl, settled, fun m hm part known => ⟨spelled m hm part known, members m hm part known⟩⟩
  · rintro ⟨group, settled, all⟩
    cases o with
    | group fields =>
      exact .group settled (fun m hm part known => (all m hm part known).1) fun m hm part known =>
        (all m hm part known).2
    | single => cases group
    | list => cases group

instance (fields : List (String × Outline)) (names : List String) : Decidable (Settled fields names) :=
  inferInstanceAs (Decidable (names.Pairwise fun n n' => (fields.lookup n).isSome = true → Text.lowerText n' ≠ n))

mutual

def fits (strict : Outline → Bool) (o : Outline) : Datum → Bool
  | .obj ms => o.isGroup && (Settled o.fields (ms.map (·.1)) && fitsMembers strict o ms)
  | _ => !o.isGroup

def fitsMembers (strict : Outline → Bool) (o : Outline) : List (String × Datum) → Bool
  | [] => true
  | (name, d) :: rest =>
    (o.fields.lookup (Text.lowerText name)).all (fun part =>
      (!strict part || Text.lowerText name = name) && fits strict part d) && fitsMembers strict o rest

end

mutual

theorem fits_iff (strict : Outline → Bool) : ∀ (o : Outline) (d : Datum), fits strict o d = true ↔ o.Fits strict d
  | o, .obj ms => by
    rw [fits, Bool.and_eq_true, Bool.and_eq_true, decide_eq_true_iff, fitsMembers_iff, Fits.iff_members]
  | o, .null | o, .bool _ | o, .int _ | o, .real _ | o, .str _ | o, .halved _ | o, .list _ | o, .under ..
  | o, .foreign _ => by
    rw [fits, Fits.iff_plain (by simp), Bool.not_eq_true']
    simp

theorem fitsMembers_iff (strict : Outline → Bool) : ∀ (o : Outline) (ms : List (String × Datum)),
    fitsMembers strict o ms = true ↔ ∀ m ∈ ms, ∀ part, o.fields.lookup (Text.lowerText m.1) = some part →
      (strict part = true → Text.lowerText m.1 = m.1) ∧ part.Fits strict m.2
  | o, [] => by simp [fitsMembers]
  | o, (name, d) :: rest => by
    rw [fitsMembers, Bool.and_eq_true, fitsMembers_iff strict o rest, List.forall_mem_cons]
    refine and_congr ?_ .rfl
    cases o.fields.lookup (Text.lowerText name) with
    | none => simp
    | some part => simp [fits_iff strict part d, or_iff_not_imp_left]

end

instance (strict : Outline → Bool) (o : Outline) (d : Datum) : Decidable (o.Fits strict d) :=
  decidable_of_iff _ (fits_iff strict o d)

end Check

/-! ### Names in lower case -/

inductive Lower : Outline → Prop where
  | leaf {o : Outline} (single : o.IsLeaf) : Lower o
  | group {fields : List (String × Outline)} (lower : ∀ f ∈ fields, Text.lowerText f.1 = f.1)
      (members : ∀ f ∈ fields, Lower f.2) : Lower (.group fields)

theorem Lower.member (h : (Outline.group fields).Lower) (known : fields.lookup name = some part) : part.Lower := by
  cases h with
  | leaf single => exact absurd rfl (single fields)
  | group _ members => exact members _ (mem_of_lookup known)

theorem Lower.own (h : (Outline.group fields).Lower) (known : fields.lookup name = some part) :
    Text.lowerText name = name := by
  cases h with
  | leaf single => exact absurd rfl (single fields)
  | group lower _ => exact lower _ (mem_of_lookup known)

theorem Fits.lookup (h : (Outline.group fields).Fits strict (.obj ms)) (lower : (Outline.group fields).Lower)
    (known : fields.lookup name = some part) (found : ms.lookup name = some d) : part.Fits strict d := by
  refine h.member (mem_of_lookup found) ?_
  rwa [lower.own known]

theorem last?_of_lookup (settled : Settled fields (ms.map (·.1))) (known : fields.lookup name = some part)
    (own : Text.lowerText name = name) (found : ms.lookup name = some d) : Datum.last? name ms = some d := by
  induction ms with
  | nil => cases found
  | cons first rest ih =>
    obtain ⟨n, v⟩ := first
    obtain ⟨behind, settled⟩ := List.pairwise_cons.1 settled
    rw [lookup_cons_ite] at found
    rw [Datum.last?]
    by_cases same : name = n
    · subst same
      rw [if_pos rfl] at found
      rw [Datum.last?_eq_none fun m hm => behind m.1 (List.mem_map_of_mem hm) (by rw [known]; rfl), if_pos own]
      exact found
    · rw [if_neg same] at found
      rw [ih settled found]
      rfl

theorem Fits.last?_eq (h : (Outline.group fields).Fits strict (.obj ms)) (lower : (Outline.group fields).Lower)
    (known : fields.lookup name = some part) (strictly : strict part = true) :
    Datum.last? name ms = ms.lookup name := by
  cases found : ms.lookup name with
  | some d => exact last?_of_lookup h.settled known (lower.own known) found
  | none =>
    refine Datum.last?_eq_none fun m hm own => ?_
    have same := h.spelled hm (own ▸ known) strictly
    have differs := List.lookup_eq_none_iff.1 found m hm
    simp [← own, same] at differs

theorem last?_setMember (settled : Settled fields (ms.map (·.1))) (known : fields.lookup name = some part)
    (own : Text.lowerText name = name) (k : String) :
    Datum.last? k (Datum.setMember name d ms) = if k = name then some d else Datum.last? k ms := by
  by_cases same : k = name
  · subst same
    rw [if_pos rfl]
    induction ms with
    | nil => simp [Datum.setMember, Datum.last?, own]
    | cons first rest ih =>
      obtain ⟨n, v⟩ := first
      obtain ⟨behind, settled⟩ := List.pairwise_cons.1 settled
      rw [Datum.setMember]
      split
      · next same =>
        subst same
        rw [Datum.last?, Datum.last?_eq_none fun m hm => behind m.1 (List.mem_map_of_mem hm) (by rw [known]; rfl),
          if_pos own]
        rfl
      · rw [Datum.last?, ih settled]
        rfl
  · rw [if_neg same, Datum.last?_setMember_of_ne (own.symm ▸ Ne.symm same)]

theorem settled_setMember (settled : Settled fields (ms.map (·.1)))
    (plain : Text.lowerText name = name ∨ fields.lookup (Text.lowerText name) = none) :
    Settled fields ((Datum.setMember name d ms).map (·.1)) := by
  rw [Datum.setMember_names]
  split
  · exact settled
  · next fresh =>
    refine List.pairwise_append.2 ⟨settled, List.pairwise_singleton _ _, fun n hn n' hn' known same => ?_⟩
    obtain rfl := List.mem_singleton.1 hn'
    rcases plain with own | unknown
    · exact fresh (own ▸ same ▸ hn)
    · rw [same] at unknown
      rw [unknown] at known
      cases known

/-! ### Ways -/

theorem follow_cons {rest : List String} (h : o.follow (name :: rest) = some part) :
    ∃ fields sub, o = .group fields ∧ fields.lookup name = some sub ∧ sub.follow rest = some part := by
  obtain ⟨sub, known, later⟩ := Option.bind_eq_some_iff.1 h
  cases o with
  | group fields => exact ⟨fields, sub, rfl, known, later⟩
  | single => cases known
  | list => cases known

theorem follow_leaf {way : List String} (leaf : o.isGroup = false) (h : o.follow way = some part) : way = [] := by
  cases way with
  | nil => rfl
  | cons name rest =>
    obtain ⟨fields, sub, rfl, -⟩ := follow_cons h
    cases leaf

theorem Fits.anyCase?_eq (h : o.FitsExactly d) (lower : o.Lower) {way : List String}
    (follow : o.follow way = some part) : d.anyCase? way = d.at? way := by
  induction way generalizing o d with
  | nil => exact d.anyCase?_nil
  | cons name rest ih =>
    obtain ⟨fields, sub, rfl, known, follow⟩ := follow_cons follow
    obtain ⟨ms, rfl⟩ := h.object
    rw [Datum.anyCase?_cons, Datum.at?_cons, h.last?_eq lower known rfl]
    cases found : ms.lookup name with
    | none => rfl
    | some d => exact ih (h.lookup lower known found) (lower.member known) follow

theorem Fits.at? {v : Datum} (fits : o.Fits strict d) (lower : o.Lower) {way : List String}
    (follow : o.follow way = some part) (found : d.at? way = some v) : part.Fits strict v := by
  induction way generalizing o d with
  | nil =>
    obtain rfl := Option.some.inj follow
    obtain rfl := Option.some.inj found
    exact fits
  | cons name rest ih =>
    obtain ⟨fields, sub, rfl, known, follow⟩ := follow_cons follow
    obtain ⟨ms, rfl⟩ := fits.object
    obtain ⟨d, inner, found⟩ := Option.bind_eq_some_iff.1 found
    exact ih (fits.lookup lower known inner) (lower.member known) follow found

end Outline

end ChoreReminder
