import ChoreReminder.Session.Basic
import ChoreReminder.Proofs.Ledger.Tables
import ChoreReminder.Proofs.Run.Rules

/-! Rows that are skipped. Rows may be written past the operations of the ledger, and times of completions as well,
so that some cannot be read. The list of the chores holds all others, each as it is looked up by its id, and the
log tells of each row that is not there; a row that cannot be read has no part in what is listed of the others. All
this needs texts where texts are meant: bytes in place of a time may end the listing, and so does a text that is not
UTF-8. -/

namespace ChoreReminder

open Text (InCodeOrder)

/-- Names that are texts go by code points, and those that are bytes come behind them. -/
def ChoreRecord.NamedBefore (a b : ChoreRecord TextCell) : Prop :=
  (∃ s t, a.name = .text s ∧ b.name = .text t ∧ InCodeOrder s t) ∨
  (∃ s bs, a.name = .text s ∧ b.name = .blob bs) ∨
  ∃ bs cs, a.name = .blob bs ∧ b.name = .blob cs ∧ inByteOrder bs cs = true

namespace Tables

variable {t t' : Tables} {r : ChoreRecord TextCell} {before after : List (ChoreRecord TextCell)}

/-- What the rules of the tables see to: ids that are there are distinct, every row has a name, and each row keeps the
rules for a row. -/
structure Admitted (t : Tables) : Prop where
  ids : ((t.chores.map (·.id)).filter (· ≠ .null)).Nodup
  names : ∀ r ∈ t.chores, r.name ≠ .null
  rules : ∀ r ∈ t.chores, r.brokenRule? = none

def skipNotice? (t : Tables) (r : ChoreRecord TextCell) : Option Notice :=
  (t.skipped? r).map fun (id, f) => .choreSkipped id.shown f

/-! ### Rows one by one -/

theorem Admitted.others (a : t.Admitted) (chores : t.chores = before ++ r :: after) :
    ∀ x ∈ before ++ after, x.id = r.id → r.id = .null := by
  intro x hx same
  by_contra given
  have distinct := a.ids
  have moved : (before ++ r :: after).Perm (r :: (before ++ after)) := List.perm_middle
  rw [chores, ((moved.map (·.id)).filter _).nodup_iff, List.map_cons,
    List.filter_cons_of_pos (by simpa using given)] at distinct
  have fresh := (List.nodup_cons.1 distinct).1
  exact fresh (List.mem_filter.2 ⟨List.mem_map.2 ⟨x, hx, same⟩, by simpa using given⟩)

theorem Admitted.chore?_of_mem (a : t.Admitted) (hr : r ∈ t.chores) {id : String} (named : r.id = .text id) :
    t.chore? id = (t.read r).map some := by
  obtain ⟨before, after, chores⟩ := List.append_of_mem hr
  have others := a.others chores
  have found : t.chores.find? (·.id = .text id) = some r := by
    have none' : before.find? (·.id = .text id) = none := by
      refine List.find?_eq_none.2 fun x hx same => ?_
      have absurd' := others x (List.mem_append_left after hx) ((of_decide_eq_true same).trans named.symm)
      rw [named] at absurd'
      cases absurd'
    rw [chores, List.find?_append, none', Option.none_or, List.find?_cons_of_pos (by simpa using named)]
  rw [chore?, found]

theorem Admitted.row_cases (a : t.Admitted) (goesOn : ¬ t.BreaksOff) (hr : r ∈ t.chores) :
    r.Legible (t.latestCompletion r.id) ∧ t.skipNotice? r = none ∧
        (∃ c, t.found? r = some c ∧ ∀ id, r.id = .text id → t.chore? id = .ok (some c)) ∨
      ¬ r.Legible (t.latestCompletion r.id) ∧ t.found? r = none ∧
        ∃ f, t.skipNotice? r = some (.choreSkipped r.id.seen.shown f) := by
  obtain ⟨legible, -, c, read⟩ | ⟨breaks, -⟩ | ⟨illegible, -, f, read⟩ := t.read_cases (a.rules r hr)
  · refine .inl ⟨legible, by rw [skipNotice?, skipped?, read]; rfl, c, by rw [found?, read]; rfl, fun id named => ?_⟩
    rw [a.chore?_of_mem hr named, read]
    rfl
  · exact absurd ⟨r, hr, breaks⟩ goesOn
  · exact .inr ⟨illegible, by rw [found?, read]; rfl, f, by rw [skipNotice?, skipped?, read]; rfl⟩

theorem Admitted.namedBefore (a : t.Admitted) (goesOn : ¬ t.BreaksOff) {x y : ChoreRecord TextCell}
    (hx : x ∈ t.chores) (hy : y ∈ t.chores) (le : x.nameIsAtMost y = true) : x.NamedBefore y := by
  have whole (r : ChoreRecord TextCell) (hr : r ∈ t.chores) : ¬ r.name.IsGarbled := fun garbled =>
    goesOn ⟨r, hr, .inl ⟨r.name, by simp [ChoreRecord.texts], garbled⟩⟩
  have value (r : ChoreRecord TextCell) (hr : r ∈ t.chores) : (∃ s, r.name = .text s) ∨ ∃ bs, r.name = .blob bs := by
    cases name : r.name with
    | null => exact absurd name (a.names r hr)
    | text s => exact .inl ⟨s, rfl⟩
    | garbled g => exact absurd ⟨g, name⟩ (whole r hr)
    | blob bs => exact .inr ⟨bs, rfl⟩
  obtain ⟨s, name⟩ | ⟨bs, name⟩ := value x hx
  · obtain ⟨u, name'⟩ | ⟨cs, name'⟩ := value y hy
    · rw [ChoreRecord.nameIsAtMost, name, name'] at le
      exact .inl ⟨s, u, name, name', Text.inCodeOrder_iff.2 (of_decide_eq_true le)⟩
    · exact .inr (.inl ⟨s, cs, name, name'⟩)
  · obtain ⟨u, name'⟩ | ⟨cs, name'⟩ := value y hy
    · rw [ChoreRecord.nameIsAtMost, name, name'] at le
      cases le
    · rw [ChoreRecord.nameIsAtMost, name, name'] at le
      exact .inr (.inr ⟨bs, cs, name, name', le⟩)

theorem Admitted.byName_ordered (a : t.Admitted) (goesOn : ¬ t.BreaksOff) :
    t.byName.Pairwise ChoreRecord.NamedBefore := by
  have sorted := List.pairwise_mergeSort ChoreRecord.nameIsAtMost_trans ChoreRecord.nameIsAtMost_total t.chores
  refine List.Pairwise.imp_of_mem (fun hx hy le => ?_) sorted
  exact a.namedBefore goesOn (t.byName_perm.subset hx) (t.byName_perm.subset hy) le

theorem notices_eq (rules : ∀ r ∈ t.chores, r.brokenRule? = none) (goesOn : ¬ t.BreaksOff) :
    t.candidates.notices = t.byName.filterMap t.skipNotice? := by
  rw [candidates_eq rules goesOn, Listing.notices, List.map_filterMap]
  rfl

/-! ### A row more or less -/

theorem latestCompletion_congr {id : TextCell} (apart : id = r.id → r.id = .null)
    (same : t'.completions.filter (·.choreId ≠ r.id) = t.completions.filter (·.choreId ≠ r.id)) :
    t'.latestCompletion id = t.latestCompletion id := by
  by_cases none' : id = .null
  · rw [latestCompletion, latestCompletion, if_pos none', if_pos none']
  have ne : id ≠ r.id := fun eq => none' (eq.trans (apart eq))
  have own (t : Tables) : t.completions.filter (·.choreId = id) =
      (t.completions.filter (·.choreId ≠ r.id)).filter (·.choreId = id) := by
    rw [List.filter_filter]
    refine List.filter_congr fun c _ => ?_
    by_cases mine : c.choreId = id <;> simp [mine, ne]
  rw [latestCompletion, latestCompletion, own t', own t, same]

theorem read_congr {x : ChoreRecord TextCell} (latest : t'.latestCompletion x.id = t.latestCompletion x.id) :
    t'.read x = t.read x := by
  rw [read, read, fetch, fetch, latest]

/-- A row that cannot be read has no part in what is listed, and its notice none in the others. -/
theorem Admitted.candidates_without (a : t.Admitted) (goesOn : ¬ t.BreaksOff)
    (chores : t.chores = before ++ r :: after) (illegible : ¬ r.Legible (t.latestCompletion r.id))
    (rest : t'.chores = before ++ after)
    (same : t'.completions.filter (·.choreId ≠ r.id) = t.completions.filter (·.choreId ≠ r.id)) :
    t'.candidates.chores = t.candidates.chores ∧ ∃ f front back,
      t.candidates.notices = front ++ Notice.choreSkipped r.id.seen.shown f :: back ∧
      t'.candidates.notices = front ++ back := by
  have latest (x : ChoreRecord TextCell) (hx : x ∈ before ++ after) :
      t'.latestCompletion x.id = t.latestCompletion x.id := latestCompletion_congr (a.others chores x hx) same
  have old (x : ChoreRecord TextCell) (hx : x ∈ before ++ after) : x ∈ t.chores := by
    rw [chores]
    exact (List.mem_append.1 hx).elim (fun h => List.mem_append_left _ h)
      fun h => List.mem_append_right _ (List.mem_cons_of_mem r h)
  have goesOn' : ¬ t'.BreaksOff := by
    rintro ⟨x, hx, breaks⟩
    rw [rest] at hx
    exact goesOn ⟨x, old x hx, latest x hx ▸ breaks⟩
  have rules' : ∀ x ∈ t'.chores, x.brokenRule? = none := fun x hx => a.rules x (old x (rest ▸ hx))
  obtain ⟨front, back, all, fewer⟩ := mergeSort_without ChoreRecord.nameIsAtMost_trans
    ChoreRecord.nameIsAtMost_total before r after
  rw [← chores] at all
  rw [← rest] at fewer
  have listed : t.byName = front ++ r :: back := all
  have listed' : t'.byName = front ++ back := fewer
  have alike (x : ChoreRecord TextCell) (hx : x ∈ front ++ back) : t'.read x = t.read x :=
    read_congr (latest x (rest ▸ t'.byName_perm.subset (listed' ▸ hx)))
  obtain ⟨legible, -⟩ | ⟨-, missing, f, noted⟩ := a.row_cases goesOn (chores ▸ by simp : r ∈ t.chores)
  · exact absurd legible illegible
  have values : (front ++ back).filterMap t'.found? = (front ++ back).filterMap t.found? :=
    List.filterMap_congr fun x hx => by rw [found?, found?, alike x hx]
  have notices : (front ++ back).filterMap t'.skipNotice? = (front ++ back).filterMap t.skipNotice? :=
    List.filterMap_congr fun x hx => by rw [skipNotice?, skipNotice?, skipped?, skipped?, alike x hx]
  constructor
  · rw [candidates_eq rules' goesOn', candidates_eq a.rules goesOn, listed, listed', values]
    simp only [List.filterMap_append, List.filterMap_cons_none missing]
  · refine ⟨f, front.filterMap t.skipNotice?, back.filterMap t.skipNotice?, ?_, ?_⟩
    · rw [notices_eq a.rules goesOn, listed, List.filterMap_append, List.filterMap_cons_some noted]
    · rw [notices_eq rules' goesOn', listed', notices, List.filterMap_append]

end Tables

namespace Session

variable {s : Session} {l : Ledger}

theorem candidates_ofLedger (store : s.store = .ofLedger l) :
    s.candidates = ⟨.ok l.candidates.1, s, [], l.tables.candidates.notices⟩ := by
  obtain ⟨now, store', senders, channel, listener, files, others⟩ := s
  obtain rfl := store
  rw [candidates, Store.read_ofLedger, l.candidates_tables, Listing.notices, List.map_map]
  rfl

end Session

end ChoreReminder
