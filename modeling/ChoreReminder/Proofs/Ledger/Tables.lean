import ChoreReminder.Proofs.Ledger.Candidates
import ChoreReminder.Proofs.Ledger.Legible
import ChoreReminder.Proofs.Run.Listing
import ChoreReminder.Proofs.Sorting

/-! The list of the chores of some tables, row by row, and the tables that a ledger makes up. What is listed are the
rows that can be read, in the order of their names, unless one of them ends the listing. Of the tables of a ledger none
does, and what is listed of them is what the ledger lists. -/

namespace ChoreReminder

/-! ### Order -/

theorem inByteOrder_trans {a b c : List UInt8} (h : inByteOrder a b = true) (h' : inByteOrder b c = true) :
    inByteOrder a c = true := by
  induction a generalizing b c with
  | nil => rfl
  | cons x as ih =>
    cases b with
    | nil => cases h
    | cons y bs =>
      cases c with
      | nil => cases h'
      | cons z cs =>
        simp only [inByteOrder, Bool.or_eq_true, Bool.and_eq_true, decide_eq_true_eq] at h h' ⊢
        rcases h with less | ⟨same, rest⟩
        · rcases h' with less' | ⟨same', -⟩ <;> exact .inl (by omega)
        · rcases h' with less' | ⟨same', rest'⟩
          · exact .inl (by omega)
          · exact .inr ⟨same.trans same', ih rest rest'⟩

theorem inByteOrder_total (a b : List UInt8) : (inByteOrder a b || inByteOrder b a) = true := by
  induction a generalizing b with
  | nil => rfl
  | cons x as ih =>
    cases b with
    | nil => rfl
    | cons y bs =>
      have rest := ih bs
      simp only [inByteOrder, Bool.or_eq_true, Bool.and_eq_true, decide_eq_true_eq] at rest ⊢
      rcases Nat.lt_trichotomy x.toNat y.toNat with less | same | more
      · exact .inl (.inl less)
      · exact rest.imp (fun h => .inr ⟨same, h⟩) fun h => .inr ⟨same.symm, h⟩
      · exact .inr (.inl more)

namespace FetchedText

theorem isAtMost_trans (a b c : FetchedText) (h : a.isAtMost b = true) (h' : b.isAtMost c = true) :
    a.isAtMost c = true := by
  cases a with
  | nothing => rfl
  | text s =>
    cases b with
    | nothing => cases h
    | text t =>
      cases c with
      | nothing => cases h'
      | text u => exact decide_eq_true (String.le_trans (of_decide_eq_true h) (of_decide_eq_true h'))
      | bytes _ => rfl
    | bytes _ =>
      cases c with
      | bytes _ => rfl
      | _ => cases h'
  | bytes as =>
    cases b with
    | bytes bs =>
      cases c with
      | bytes cs => exact inByteOrder_trans h h'
      | _ => cases h'
    | _ => cases h

theorem isAtMost_total (a b : FetchedText) : (a.isAtMost b || b.isAtMost a) = true := by
  cases a with
  | nothing => rfl
  | text s =>
    cases b with
    | text t => simpa [isAtMost] using String.le_total s t
    | _ => rfl
  | bytes as =>
    cases b with
    | bytes bs => exact inByteOrder_total as bs
    | _ => rfl

end FetchedText

namespace ChoreRecord

def nameIsAtMost (a b : ChoreRecord TextCell) : Bool := a.name.seen.isAtMost b.name.seen

theorem nameIsAtMost_trans (a b c : ChoreRecord TextCell) :
    a.nameIsAtMost b = true → b.nameIsAtMost c = true → a.nameIsAtMost c = true :=
  FetchedText.isAtMost_trans _ _ _

theorem nameIsAtMost_total (a b : ChoreRecord TextCell) : (a.nameIsAtMost b || b.nameIsAtMost a) = true :=
  FetchedText.isAtMost_total _ _

end ChoreRecord

/-! ### Rows one by one -/

namespace Tables

variable {t : Tables} {r : ChoreRecord TextCell} {rows : List (ChoreRecord TextCell)}

def byName (t : Tables) : List (ChoreRecord TextCell) := t.chores.mergeSort ChoreRecord.nameIsAtMost

theorem byName_perm (t : Tables) : t.byName.Perm t.chores := List.mergeSort_perm _ _

def found? (t : Tables) (r : ChoreRecord TextCell) : Option Chore := (t.read r).toOption

/-- What is noted of a row that is passed over. -/
def skipped? (t : Tables) (r : ChoreRecord TextCell) : Option (FetchedText × RowFault) :=
  match t.read r with
  | .error (.row f) => some (r.id.seen, f)
  | _ => none

def seen (t : Tables) (r : ChoreRecord TextCell) : ChoreRecord FetchedText × FetchedText :=
  (r.seen, (t.latestCompletion r.id).seen)

/-- One of the rows makes the listing break off. -/
def BreaksOff (t : Tables) : Prop := ∃ r ∈ t.chores, r.BreaksOff (t.latestCompletion r.id)

def IsWhole (t : Tables) : Prop := ∀ r ∈ t.chores, t.fetch r = .ok (t.seen r)

theorem candidates_whole (whole : t.IsWhole) : t.candidates = listed (t.byName.map t.seen) := by
  have order := List.map_mergeSort (r := ChoreRecord.nameIsAtMost)
    (s := fun (a b : ChoreRecord FetchedText × FetchedText) => a.1.name.isAtMost b.1.name) (f := t.seen)
    (l := t.chores) fun a _ b _ => rfl
  rw [candidates, mapM_ok t.chores whole, byName, order]

theorem candidates_garbled (garbled : ¬ t.IsWhole) : t.candidates = ⟨.error .undecodable, []⟩ := by
  have either (r : ChoreRecord TextCell) : t.fetch r = .error .undecodable ∨ ∃ row, t.fetch r = .ok row :=
    (t.fetches r).imp And.right fun whole => ⟨_, whole.2⟩
  simp only [IsWhole, not_forall] at garbled
  obtain ⟨r, member, unseen⟩ := garbled
  have failed : t.fetch r = .error .undecodable :=
    (t.fetches r).elim And.right fun whole => absurd whole.2 unseen
  rw [candidates, mapM_error t.chores (fun r _ => either r) ⟨r, member, failed⟩]

theorem read_whole (fetched : t.fetch r = .ok (t.seen r)) : t.read r = (t.seen r).1.read (t.seen r).2 := by
  rw [read, fetched]
  rfl

theorem listed_rows (whole : ∀ r ∈ rows, t.fetch r = .ok (t.seen r))
    (never : ∀ r ∈ rows, ∀ f, t.read r = .error f → ∃ f', f = .row f') :
    listed (rows.map t.seen) = ⟨.ok (rows.filterMap t.found?), rows.filterMap t.skipped?⟩ := by
  induction rows with
  | nil => rfl
  | cons r rest ih =>
    obtain ⟨fetched, whole⟩ := List.forall_mem_cons.1 whole
    obtain ⟨first, never⟩ := List.forall_mem_cons.1 never
    rw [List.map_cons, listed, ← read_whole fetched, ih whole never]
    cases outcome : t.read r with
    | ok c => simp [found?, skipped?, outcome, Except.toOption, Except.map]
    | error f =>
      obtain ⟨f', rfl⟩ := first f outcome
      simp only [List.filterMap_cons, found?, skipped?, outcome, Except.toOption]
      rfl

theorem listed_breaks (whole : ∀ r ∈ rows, t.fetch r = .ok (t.seen r))
    (broken : ∃ r ∈ rows, ∃ f, t.read r = .error f ∧ ∀ f', f ≠ .row f') :
    ∃ f, (listed (rows.map t.seen)).chores = .error f := by
  induction rows with
  | nil => simp at broken
  | cons r rest ih =>
    obtain ⟨fetched, whole⟩ := List.forall_mem_cons.1 whole
    rw [List.map_cons, listed, ← read_whole fetched]
    cases outcome : t.read r with
    | ok c =>
      obtain ⟨f, failed⟩ := ih whole (by simpa [outcome] using broken)
      exact ⟨f, by rw [failed]; rfl⟩
    | error f =>
      cases f with
      | row f => exact ih whole (by simpa [outcome] using broken)
      | undecodable => exact ⟨_, rfl⟩
      | timeInBytes => exact ⟨_, rfl⟩

/-! ### Tables that keep the rules -/

theorem candidates_eq (rules : ∀ r ∈ t.chores, r.brokenRule? = none) (goesOn : ¬ t.BreaksOff) :
    t.candidates = ⟨.ok (t.byName.filterMap t.found?), t.byName.filterMap t.skipped?⟩ := by
  have whole : t.IsWhole := by
    intro r hr
    rcases t.fetches r with ⟨garbled, -⟩ | ⟨-, fetched⟩
    · exact absurd ⟨r, hr, .inl garbled⟩ goesOn
    · exact fetched
  rw [candidates_whole whole]
  refine listed_rows (fun r hr => whole r (t.byName_perm.subset hr)) fun r hr f failed => ?_
  have member := t.byName_perm.subset hr
  obtain ⟨-, -, c, read⟩ | ⟨breaks, -⟩ | ⟨-, -, f', read⟩ := t.read_cases (rules r member)
  · cases read.symm.trans failed
  · exact absurd ⟨r, member, breaks⟩ goesOn
  · exact ⟨f', Except.error.inj (failed.symm.trans read)⟩

theorem candidates_error_iff (rules : ∀ r ∈ t.chores, r.brokenRule? = none) :
    (∃ f, t.candidates.chores = .error f) ↔ t.BreaksOff := by
  constructor
  · rintro ⟨f, failed⟩
    by_contra goesOn
    rw [candidates_eq rules goesOn] at failed
    cases failed
  · rintro ⟨r, hr, breaks⟩
    by_cases whole : t.IsWhole
    · rw [candidates_whole whole]
      refine listed_breaks (fun r hr => whole r (t.byName_perm.subset hr)) ⟨r, t.byName_perm.symm.subset hr, ?_⟩
      obtain ⟨-, goesOn, -⟩ | ⟨-, -, read | read⟩ | ⟨-, goesOn, -⟩ := t.read_cases (rules r hr)
      · exact absurd breaks goesOn
      · exact ⟨_, read, nofun⟩
      · exact ⟨_, read, nofun⟩
      · exact absurd breaks goesOn
    · exact ⟨_, by rw [candidates_garbled whole]⟩

end Tables

/-! ### Tables of texts -/

namespace TextCell

variable {c : TextCell}

def IsPlain (c : TextCell) : Prop := c = .null ∨ ∃ s, c = .text s

theorem IsPlain.whole (plain : c.IsPlain) : ¬ c.IsGarbled := by
  rcases plain with rfl | ⟨s, rfl⟩ <;> simp [IsGarbled]

theorem IsPlain.not_bytes (plain : c.IsPlain) : ¬ c.IsBytes := by
  rcases plain with rfl | ⟨s, rfl⟩ <;> simp [IsBytes]

theorem ofOption_plain (time : Option String) : (ofOption time).IsPlain := by
  cases time with
  | none => exact .inl rfl
  | some s => exact .inr ⟨s, rfl⟩

theorem greatest_plain {cs : List TextCell} (plain : ∀ c ∈ cs, c.IsPlain) : (greatest cs).IsPlain := by
  induction cs with
  | nil => exact .inl rfl
  | cons c rest ih =>
    obtain ⟨first, plain⟩ := List.forall_mem_cons.1 plain
    rw [greatest]
    split
    · exact ih plain
    · exact first

theorem greatest_texts (texts : List String) : greatest (texts.map text) = ofOption (Ledger.greatest? texts) := by
  induction texts with
  | nil => rfl
  | cons s rest ih =>
    rw [List.map_cons, greatest, ih, Ledger.greatest?]
    cases Ledger.greatest? rest with
    | none => rfl
    | some t => by_cases le : s ≤ t <;> simp [ofOption, isAtMost, le]

end TextCell

/-- Where a text may stand there is a text or nothing. -/
structure Tables.IsPlain (t : Tables) : Prop where
  chores : ∀ r ∈ t.chores, ∀ c ∈ r.texts .null, c.IsPlain
  completions : ∀ c ∈ t.completions, c.completedAt.IsPlain

namespace Tables

variable {t : Tables} {r : ChoreRecord TextCell}

theorem IsPlain.texts (plain : t.IsPlain) (hr : r ∈ t.chores) :
    ∀ c ∈ r.texts (t.latestCompletion r.id), c.IsPlain := by
  have latest : (t.latestCompletion r.id).IsPlain := by
    unfold latestCompletion
    split
    · exact .inl rfl
    · refine TextCell.greatest_plain fun c hc => ?_
      obtain ⟨completion, member, rfl⟩ := List.mem_map.1 hc
      exact plain.completions completion (List.mem_filter.1 member).1
  have own := plain.chores r hr
  simp only [ChoreRecord.texts, List.forall_mem_cons] at own ⊢
  obtain ⟨id, name, description, cron, createdAt, updatedAt, -, none'⟩ := own
  exact ⟨id, name, description, cron, createdAt, updatedAt, latest, none'⟩

theorem IsPlain.whole (plain : t.IsPlain) : t.IsWhole := by
  intro r hr
  rcases t.fetches r with ⟨⟨c, member, garbled⟩, -⟩ | ⟨-, fetched⟩
  · exact absurd garbled (plain.texts hr c member).whole
  · exact fetched

theorem IsPlain.goesOn (plain : t.IsPlain) : ¬ t.BreaksOff := by
  rintro ⟨r, hr, ⟨c, member, garbled⟩ | ⟨-, ends⟩⟩
  · exact (plain.texts hr c member).whole garbled
  · obtain ⟨-, -, -, -, createdAt, updatedAt, latest, -⟩ := by
      simpa only [ChoreRecord.texts, List.forall_mem_cons] using plain.texts hr
    rcases ends with bytes | ⟨-, bytes | ⟨-, bytes⟩⟩
    · exact createdAt.not_bytes bytes
    · exact updatedAt.not_bytes bytes
    · exact latest.not_bytes bytes

end Tables

namespace Ledger

variable {l : Ledger} {r : ChoreRow}

theorem tables_plain (l : Ledger) : l.tables.IsPlain := by
  have text (s : String) : (TextCell.text s).IsPlain := .inr ⟨s, rfl⟩
  constructor
  · intro r hr
    obtain ⟨row, -, rfl⟩ := List.mem_map.1 hr
    simp only [ChoreRecord.texts, List.forall_mem_cons]
    exact ⟨text _, text _, TextCell.ofOption_plain _, TextCell.ofOption_plain _, text _, text _, .inl rfl, by simp⟩
  · intro c hc
    obtain ⟨row, -, rfl⟩ := List.mem_map.1 hc
    exact text _

theorem latestCompletion_tables (l : Ledger) (id : String) :
    l.tables.latestCompletion (.text id) = .ofOption (l.latestCompletion id) := by
  rw [Tables.latestCompletion, if_neg (by nofun), latestCompletion, ← TextCell.greatest_texts, tables]
  congr 1
  rw [List.filter_map, List.map_map, List.map_map]
  congr 1
  refine List.filter_congr fun c _ => ?_
  simp

theorem schedule_record (r : ChoreRow) : r.record.seen.schedule = r.schedule := by
  have kind : r.record.seen.kind = r.kind := rfl
  have cron : r.record.seen.cron = (TextCell.ofOption r.cron).seen := rfl
  have columns : r.record.seen.columns none = { r.columns with cron := none } := rfl
  rw [ChoreRecord.schedule, kind, cron, columns, ChoreRow.schedule]
  by_cases dated : r.kind = "cron"
  · cases given : r.cron with
    | none =>
      simp [TextCell.ofOption, TextCell.seen, FetchedText.isEmpty, ScheduleColumns.schedule, ChoreRow.columns, dated,
        given]
    | some e =>
      by_cases empty : e = "" <;>
        simp [TextCell.ofOption, TextCell.seen, FetchedText.isEmpty, FetchedText.toText, Reading.under,
          ScheduleColumns.schedule, ChoreRow.columns, dated, given, empty]
  · rw [if_neg fun both => dated both.1]
    simp [ScheduleColumns.schedule, ChoreRow.columns, dated]

theorem toTime_ofOption (time : Option String) :
    (TextCell.ofOption time).seen.toTime = (ChoreRow.readTime (time.getD "")).mapError .row := by
  cases time <;> rfl

theorem read_record (r : ChoreRow) (latest : Option String) :
    r.record.seen.read (TextCell.ofOption latest).seen = (r.read latest).mapError .row := by
  have created : r.record.seen.createdAt.toTime = (ChoreRow.readTime r.createdAt).mapError .row := rfl
  have updated : r.record.seen.updatedAt.toTime = (ChoreRow.readTime r.updatedAt).mapError .row := rfl
  have description : r.record.seen.description.toOptionalText = .ok r.description := by
    change (TextCell.ofOption r.description).seen.toOptionalText = _
    cases r.description <;> rfl
  rw [ChoreRecord.read, schedule_record, created, updated, toTime_ofOption, ChoreRow.read]
  simp only [mapError_bind]
  refine congrArg (_ >>= ·) (funext fun schedule => congrArg (_ >>= ·) (funext fun created =>
    congrArg (_ >>= ·) (funext fun updated => congrArg (_ >>= ·) (funext fun last => ?_))))
  rw [ChoreRecord.chore, description]
  cases created <;> cases updated <;> rfl

theorem read_tables (hr : r ∈ l.chores) :
    l.tables.read r.record = (r.read (l.latestCompletion r.id)).mapError .row := by
  rw [Tables.read_whole (l.tables_plain.whole _ (List.mem_map_of_mem hr)), ← read_record]
  rw [← latestCompletion_tables]
  rfl

theorem listed_records (l : Ledger) (rows : List ChoreRow) :
    Tables.listed (rows.map fun r => (r.record.seen, (TextCell.ofOption (l.latestCompletion r.id)).seen)) =
      ⟨.ok (rows.filterMap fun r => (r.read (l.latestCompletion r.id)).toOption),
        rows.filterMap fun r => (fault? (r.read (l.latestCompletion r.id))).map (.text r.id, ·)⟩ := by
  induction rows with
  | nil => rfl
  | cons r rest ih =>
    rw [List.map_cons, Tables.listed, read_record, ih]
    cases outcome : r.read (l.latestCompletion r.id) with
    | ok c => simp [outcome, Except.toOption, Except.map, fault?, mapError_ok]
    | error f =>
      simp only [List.filterMap_cons, outcome, Except.toOption, fault?, mapError_error]
      rfl

/-- What is listed of the tables that a ledger makes up is what the ledger lists. -/
theorem candidates_tables (l : Ledger) :
    l.tables.candidates = ⟨.ok l.candidates.1, l.candidates.2.map fun (id, f) => (.text id, f)⟩ := by
  have order := List.map_mergeSort (r := fun (a b : ChoreRow) => a.name ≤ b.name)
    (s := ChoreRecord.nameIsAtMost) (f := ChoreRow.record) (l := l.chores) fun a _ b _ => rfl
  have seen : l.tables.seen ∘ ChoreRow.record =
      fun r => (r.record.seen, (TextCell.ofOption (l.latestCompletion r.id)).seen) := by
    funext r
    rw [← latestCompletion_tables]
    rfl
  have rows : l.candidates = _ := readable_eq (fun r => r.read (l.latestCompletion r.id)) _
  rw [Tables.candidates_whole l.tables_plain.whole, Tables.byName, tables, ← order, ← tables, List.map_map, seen,
    listed_records, rows, List.map_filterMap]
  simp only [Option.map_map]
  rfl

theorem chore?_tables (l : Ledger) (id : String) :
    (l.tables.chore? id).toOption = (l.chore? id).toOption := by
  have found : l.tables.chores.find? (·.id = .text id) = (l.chores.find? (·.id = id)).map ChoreRow.record := by
    rw [tables, List.find?_map]
    congr 2
    funext r
    simp [ChoreRow.record]
  rw [Tables.chore?, chore?, found]
  cases row : l.chores.find? (·.id = id) with
  | none => rfl
  | some r =>
    have same : r.id = id := by simpa using List.find?_some row
    rw [Option.map_some]
    simp only [read_tables (List.mem_of_find?_eq_some row), same]
    cases r.read (l.latestCompletion id) <;> rfl

end Ledger

end ChoreReminder
