import ChoreReminder.Proofs.Settings.AnyCase

/-! Layers of settings. On documents of one outline a merge is seen setting by setting: what the upper layer gives
for a setting counts, and where it gives nothing the lower layer does. What is put at the end of a way
shows at the settings that the way leads to, and at no others. Names in any case are brought into the known
one without a change to any setting. -/

namespace ChoreReminder

open Datum (Distinct)

namespace Layer

open Outline (Fits FitsExactly IsLeaf Lower Settled follow_cons follow_leaf last?_setMember settled_setMember)

variable {strict : Outline → Bool} {o part leaf : Outline} {fields : List (String × Outline)} {d : Datum}
  {base above ms : Members} {name : String}

/-! ### Merging -/

theorem overlay_plain (plain : ∀ ms, d ≠ .obj ms) (base : Option Datum) : overlay base d = d := by
  cases d with
  | obj ms => exact absurd rfl (plain ms)
  | _ => simp only [overlay]

theorem overlay_none (d : Datum) : overlay none d = d := by
  cases d <;> simp only [overlay]

theorem merge_nodup (names : (base.map (·.1)).Nodup) (above : Members) :
    ((merge base above).map (·.1)).Nodup := by
  induction above generalizing base with
  | nil => rwa [merge]
  | cons m rest ih =>
    rw [merge]
    exact ih (Datum.setMember_nodup names ..)

theorem lookup_merge (names : (above.map (·.1)).Nodup) (base : Members) (k : String) :
    (merge base above).lookup k = (above.lookup k).elim (base.lookup k) fun d => some (overlay (base.lookup k) d) := by
  induction above generalizing base with
  | nil =>
    rw [merge]
    rfl
  | cons m rest ih =>
    obtain ⟨name, d⟩ := m
    obtain ⟨fresh, names⟩ := List.nodup_cons.1 names
    rw [merge, ih names, Datum.lookup_setMember, lookup_cons_ite]
    by_cases own : k = name
    · subst own
      rw [if_pos rfl, if_pos rfl, lookup_of_absent fresh]
      rfl
    · rw [if_neg own, if_neg own]

theorem overlay_distinct (da : Distinct d) {base : Datum} (db : Distinct base) :
    Distinct (overlay (some base) d) := by
  induction da generalizing base with
  | other other =>
    rw [overlay_plain other]
    exact .other other
  | @obj ms names members ih =>
    by_cases object : ∃ bs, base = .obj bs
    · obtain ⟨bs, rfl⟩ := object
      rw [overlay]
      have merged := merge_nodup db.names ms
      refine .obj merged fun m hm => ?_
      have found := lookup_of_mem merged hm
      rw [lookup_merge names] at found
      cases given : ms.lookup m.1 with
      | none =>
        rw [given] at found
        exact db.lookup found
      | some d =>
        rw [given] at found
        rw [← show overlay (bs.lookup m.1) d = m.2 from Option.some.inj found]
        cases below : bs.lookup m.1 with
        | none =>
          rw [overlay_none]
          exact members _ (mem_of_lookup given)
        | some b => exact ih _ (mem_of_lookup given) (db.lookup below)
    · have alone : overlay (some base) (.obj ms) = .obj ms := by
        cases base with
        | obj bs => exact absurd ⟨bs, rfl⟩ object
        | _ => simp only [overlay]
      rw [alone]
      exact .obj names members

theorem plain_names (h : (Outline.group fields).FitsExactly (.obj ms)) {m : String × Datum} (hm : m ∈ ms) :
    Text.lowerText m.1 = m.1 ∨ fields.lookup (Text.lowerText m.1) = none := by
  cases known : fields.lookup (Text.lowerText m.1) with
  | none => exact .inr rfl
  | some part => exact .inl (h.spelled hm known rfl)

theorem settled_merge (settled : Settled fields (base.map (·.1)))
    (plain : ∀ m ∈ above, Text.lowerText m.1 = m.1 ∨ fields.lookup (Text.lowerText m.1) = none) :
    Settled fields ((merge base above).map (·.1)) := by
  induction above generalizing base with
  | nil => rwa [merge]
  | cons m rest ih =>
    obtain ⟨first, plain⟩ := List.forall_mem_cons.1 plain
    rw [merge]
    exact ih (settled_setMember settled first) plain

theorem last?_merge (names : (above.map (·.1)).Nodup) (settled : Settled fields (base.map (·.1)))
    (plain : ∀ m ∈ above, Text.lowerText m.1 = m.1 ∨ fields.lookup (Text.lowerText m.1) = none)
    (own : Text.lowerText name = name) (known : fields.lookup name = some part) :
    Datum.last? name (merge base above) =
      (above.lookup name).elim (Datum.last? name base) fun d => some (overlay (base.lookup name) d) := by
  induction above generalizing base with
  | nil =>
    rw [merge]
    rfl
  | cons m rest ih =>
    obtain ⟨n, d⟩ := m
    obtain ⟨fresh, names⟩ := List.nodup_cons.1 names
    obtain ⟨first, plain⟩ := List.forall_mem_cons.1 plain
    have set (d : Datum) : Datum.last? name (Datum.setMember n d base) =
        if name = n then some d else Datum.last? name base := by
      by_cases same : name = n
      · subst same
        rw [last?_setMember settled known own]
      · rw [if_neg same, Datum.last?_setMember_of_ne]
        rintro rfl
        rcases first with lower | unknown
        · exact same lower
        · rw [known] at unknown
          cases unknown
    rw [merge, ih names (settled_setMember settled first) plain, set, Datum.lookup_setMember, lookup_cons_ite]
    by_cases same : name = n
    · subst same
      rw [if_pos rfl, if_pos rfl, if_pos rfl, lookup_of_absent fresh]
      rfl
    · rw [if_neg same, if_neg same, if_neg same]

theorem overlay_fits (ha : o.FitsExactly d) (da : Distinct d) {base : Datum} (hb : o.Fits strict base)
    (db : Distinct base) : o.Fits strict (overlay (some base) d) := by
  induction ha generalizing base with
  | single plain =>
    rw [overlay_plain plain]
    exact .single plain
  | list plain =>
    rw [overlay_plain plain]
    exact .list plain
  | @group fields ms settled spelled members ih =>
    obtain ⟨bs, rfl⟩ := hb.object
    rw [overlay]
    have merged := merge_nodup db.names ms
    have given (m : String × Datum) (hm : m ∈ merge bs ms) :=
      lookup_merge da.names bs m.1 ▸ lookup_of_mem merged hm
    refine .group (settled_merge hb.settled fun m hm => plain_names (.group settled spelled members) hm)
      (fun m hm part known strictly => ?_) fun m hm part known => ?_
    · have found := given m hm
      cases own : ms.lookup m.1 with
      | none =>
        rw [own] at found
        exact hb.spelled (mem_of_lookup found) known strictly
      | some d => exact spelled (m.1, d) (mem_of_lookup own) part known rfl
    · have found := given m hm
      cases own : ms.lookup m.1 with
      | none =>
        rw [own] at found
        exact hb.member (mem_of_lookup found) known
      | some d =>
        rw [own] at found
        rw [← show overlay (bs.lookup m.1) d = m.2 from Option.some.inj found]
        cases below : bs.lookup m.1 with
        | none =>
          rw [overlay_none]
          exact (members _ (mem_of_lookup own) part known).relaxed
        | some b =>
          exact ih _ (mem_of_lookup own) part known (da.lookup own)
            (hb.member (m := (m.1, b)) (mem_of_lookup below) known) (db.lookup below)

theorem anyCase?_overlay (groups : ∀ part, part.isGroup = true → strict part = true) {way : List String}
    (follow : o.follow way = some leaf) (single : leaf.IsLeaf) (lower : o.Lower) (ha : o.FitsExactly d)
    (da : Distinct d) {base : Datum} (hb : o.Fits strict base) :
    (overlay (some base) d).anyCase? way = (d.anyCase? way).or (base.anyCase? way) := by
  induction way generalizing o d base with
  | nil =>
    obtain rfl := Option.some.inj follow
    rw [overlay_plain (ha.plain single), Datum.anyCase?_nil]
    rfl
  | cons name rest ih =>
    obtain ⟨fields, sub, rfl, known, follow⟩ := follow_cons follow
    obtain ⟨ms, rfl⟩ := ha.object
    obtain ⟨bs, rfl⟩ := hb.object
    rw [overlay]
    simp only [Datum.anyCase?_cons, ha.last?_eq lower known rfl,
      last?_merge da.names hb.settled (fun m hm => plain_names ha hm) (lower.own known) known]
    cases given : ms.lookup name with
    | none => rfl
    | some d =>
      cases inner : sub.isGroup with
      | false =>
        -- Below another spelling may count, but the way ends here, so what stands above replaces it.
        obtain rfl := follow_leaf inner follow
        obtain rfl := Option.some.inj follow
        rw [Option.elim_some, overlay_plain ((ha.lookup lower known given).plain single), Option.bind_some,
          Datum.anyCase?_nil]
        rfl
      | true =>
        rw [hb.last?_eq lower known (groups sub inner)]
        cases below : bs.lookup name with
        | none =>
          rw [Option.elim_some, overlay_none]
          exact Option.or_none.symm
        | some b =>
          exact ih follow (lower.member known) (ha.lookup lower known given) (da.lookup given)
            (hb.lookup lower known below)

/-! ### Putting -/

def inner (ms : Members) (name : String) : Members :=
  match ms.lookup name with
  | some (.obj inner) => inner
  | _ => []

theorem put_cons (fits : (Outline.group fields).Fits strict (.obj ms)) (lower : (Outline.group fields).Lower)
    {next : String} {rest : List String} (follow : (Outline.group fields).follow (name :: next :: rest) = some part)
    (d : Datum) :
    put d (name :: next :: rest) ms = Datum.setMember name (.obj (put d (next :: rest) (inner ms name))) ms := by
  obtain ⟨fields', sub, same, known, later⟩ := follow_cons follow
  obtain rfl : fields = fields' := Outline.group.inj same
  obtain ⟨subfields, -, rfl, -, -⟩ := follow_cons later
  rw [put, inner]
  · cases found : ms.lookup name with
    | none => rfl
    | some d =>
      obtain ⟨inner, rfl⟩ := (fits.lookup lower known found).object
      rfl
  · exact List.cons_ne_nil _ _

theorem inner_fits {subfields : List (String × Outline)} (fits : (Outline.group fields).Fits strict (.obj ms))
    (lower : (Outline.group fields).Lower) (known : fields.lookup name = some (.group subfields)) :
    (Outline.group subfields).Fits strict (.obj (inner ms name)) := by
  unfold inner
  split
  · next found => exact fits.lookup lower known found
  · exact .empty

theorem inner_distinct (distinct : Distinct (.obj ms)) (name : String) : Distinct (.obj (inner ms name)) := by
  unfold inner
  split
  · next found => exact distinct.lookup found
  · exact .empty

theorem inner_anyCase? (groups : ∀ part, part.isGroup = true → strict part = true)
    {subfields : List (String × Outline)} (fits : (Outline.group fields).Fits strict (.obj ms))
    (lower : (Outline.group fields).Lower) (known : fields.lookup name = some (.group subfields))
    {target : List String} (target' : (Outline.group subfields).follow target = some leaf) (single : leaf.IsLeaf) :
    (Datum.obj (inner ms name)).anyCase? target = (Datum.obj ms).anyCase? (name :: target) := by
  rw [Datum.anyCase?_cons, fits.last?_eq lower known (groups _ rfl), inner]
  cases found : ms.lookup name with
  | none =>
    cases target with
    | nil =>
      obtain rfl := Option.some.inj target'
      exact absurd rfl (single subfields)
    | cons k ks => rfl
  | some d =>
    obtain ⟨inner, rfl⟩ := (fits.lookup lower known found).object
    rfl

theorem setMember_fits (lower : (Outline.group fields).Lower) (fits : (Outline.group fields).Fits strict (.obj ms))
    (known : fields.lookup name = some part) (value : part.Fits strict d) :
    (Outline.group fields).Fits strict (.obj (Datum.setMember name d ms)) := by
  have own := lower.own known
  refine .group (settled_setMember fits.settled (.inl own)) (fun m hm sub known' strictly => ?_)
    fun m hm sub known' => ?_
  · rcases Datum.mem_setMember hm with rfl | hm
    · exact own
    · exact fits.spelled hm known' strictly
  · rcases Datum.mem_setMember hm with rfl | hm
    · rw [own, known] at known'
      exact Option.some.inj known' ▸ value
    · exact fits.member hm known'

theorem put_fits {way : List String} (follow : o.follow way = some part) (some' : way ≠ []) (lower : o.Lower)
    (value : part.Fits strict d) (fits : o.Fits strict (.obj ms)) : o.Fits strict (.obj (put d way ms)) := by
  induction way generalizing o ms with
  | nil => exact absurd rfl some'
  | cons name rest ih =>
    obtain ⟨fields, sub, rfl, known, later⟩ := follow_cons follow
    cases rest with
    | nil =>
      obtain rfl := Option.some.inj later
      exact setMember_fits lower fits known value
    | cons next rest =>
      obtain ⟨subfields, -, rfl, -, -⟩ := follow_cons later
      rw [put_cons fits lower follow]
      exact setMember_fits lower fits known
        (ih later (List.cons_ne_nil _ _) (lower.member known) (inner_fits fits lower known))

theorem put_distinct {way : List String} (follow : o.follow way = some part) (some' : way ≠ []) (lower : o.Lower)
    (value : Distinct d) (fits : o.Fits strict (.obj ms)) (distinct : Distinct (.obj ms)) :
    Distinct (.obj (put d way ms)) := by
  induction way generalizing o ms with
  | nil => exact absurd rfl some'
  | cons name rest ih =>
    obtain ⟨fields, sub, rfl, known, later⟩ := follow_cons follow
    cases rest with
    | nil => exact distinct.setMember name value
    | cons next rest =>
      obtain ⟨subfields, -, rfl, -, -⟩ := follow_cons later
      rw [put_cons fits lower follow]
      exact distinct.setMember name (ih later (List.cons_ne_nil _ _) (lower.member known)
        (inner_fits fits lower known) (inner_distinct distinct name))

theorem anyCase?_put (groups : ∀ part, part.isGroup = true → strict part = true) {way target : List String}
    (follow : o.follow way = some part) (some' : way ≠ []) (lower : o.Lower) (target' : o.follow target = some leaf)
    (single : leaf.IsLeaf) (fits : o.Fits strict (.obj ms)) (d : Datum) :
    (Datum.obj (put d way ms)).anyCase? target =
      if way <+: target then d.anyCase? (target.drop way.length) else (Datum.obj ms).anyCase? target := by
  induction way generalizing o ms target with
  | nil => exact absurd rfl some'
  | cons name rest ih =>
    obtain ⟨fields, sub, rfl, known, later⟩ := follow_cons follow
    cases target with
    | nil =>
      obtain rfl := Option.some.inj target'
      exact absurd rfl (single fields)
    | cons k ks =>
      obtain ⟨fields', sub', same, known', target'⟩ := follow_cons target'
      obtain rfl : fields = fields' := Outline.group.inj same
      cases rest with
      | nil =>
        rw [put, Datum.anyCase?_cons, last?_setMember fits.settled known (lower.own known)]
        by_cases own : k = name
        · simp [own]
        · simp [own, Ne.symm own, Datum.anyCase?_cons]
      | cons next rest =>
        obtain ⟨subfields, -, rfl, -, -⟩ := follow_cons later
        rw [put_cons fits lower follow, Datum.anyCase?_cons,
          last?_setMember fits.settled known (lower.own known)]
        by_cases own : k = name
        · obtain rfl := own
          obtain rfl := Option.some.inj (known.symm.trans known')
          rw [if_pos rfl, Option.bind_some,
            ih later (List.cons_ne_nil _ _) (lower.member known) target' (inner_fits fits lower known),
            inner_anyCase? groups fits lower known target' single]
          simp
        · simp [own, Ne.symm own, Datum.anyCase?_cons]

/-! ### Known case -/

def respelled (part : Outline) (d : Datum) : Datum := if part.isGroup then inKnownCase part d else d

def renamed (o : Outline) (m : String × Datum) : String × Datum :=
  match o.fields.lookup (Text.lowerText m.1) with
  | some part => (Text.lowerText m.1, respelled part m.2)
  | none => m

theorem field?_eq (o : Outline) (name : String) :
    o.field? name = (o.fields.lookup (Text.lowerText name)).map (Text.lowerText name, ·) := by
  rw [lookup_eq_find?, Outline.field?]
  cases found : o.fields.find? fun f => decide (f.1 = Text.lowerText name) with
  | none => rfl
  | some f =>
    have own : f.1 = Text.lowerText name := by simpa using List.find?_some found
    simp [← own]

theorem renamed_known {m : String × Datum} (known : o.fields.lookup (Text.lowerText m.1) = some part) :
    renamed o m = (Text.lowerText m.1, respelled part m.2) := by
  rw [renamed, known]

theorem renamed_unknown {m : String × Datum} (unknown : o.fields.lookup (Text.lowerText m.1) = none) :
    renamed o m = m := by
  rw [renamed, unknown]

theorem membersInKnownCase_eq (o : Outline) (done ms : Members) :
    membersInKnownCase o done ms = Datum.setAll (ms.map (renamed o)) done := by
  induction ms generalizing done with
  | nil => rw [membersInKnownCase, List.map_nil, Datum.setAll, List.foldl_nil]
  | cons m rest ih =>
    obtain ⟨name, d⟩ := m
    rw [membersInKnownCase, List.map_cons, Datum.setAll_cons, ← ih, renamed, field?_eq]
    cases o.fields.lookup (Text.lowerText name) with
    | none => rfl
    | some part => cases part <;> rfl

theorem inKnownCase_plain (plain : ∀ ms, d ≠ .obj ms) (o : Outline) : inKnownCase o d = d := by
  cases d with
  | obj ms => exact absurd rfl (plain ms)
  | _ => simp only [inKnownCase]

theorem inKnownCase_distinct (distinct : Distinct d) (o : Outline) : Distinct (inKnownCase o d) := by
  induction distinct generalizing o with
  | other other =>
    rw [inKnownCase_plain other]
    exact .other other
  | @obj ms names members ih =>
    rw [inKnownCase, membersInKnownCase_eq]
    refine .obj (Datum.setAll_nodup _ [] .nil) fun m' hm' => ?_
    obtain ⟨m, hm, rfl⟩ := List.mem_map.1 ((Datum.mem_setAll hm').resolve_left List.not_mem_nil)
    cases known : o.fields.lookup (Text.lowerText m.1) with
    | none =>
      rw [renamed_unknown known]
      exact members m hm
    | some part =>
      rw [renamed_known known, respelled]
      split
      · exact ih m hm part
      · exact members m hm

theorem renamed_name (lower : (Outline.group fields).Lower) {m : String × Datum}
    (known : fields.lookup (Text.lowerText (renamed (.group fields) m).1) = some part) :
    fields.lookup (Text.lowerText m.1) = some part ∧
      renamed (.group fields) m = (Text.lowerText m.1, respelled part m.2) := by
  cases own : fields.lookup (Text.lowerText m.1) with
  | none =>
    rw [renamed_unknown own, own] at known
    cases known
  | some part' =>
    rw [renamed_known own, lower.own own, own] at known
    obtain rfl := Option.some.inj known
    exact ⟨rfl, renamed_known own⟩

theorem inKnownCase_fits (lower : o.Lower) (fits : o.Fits strict d) : o.FitsExactly (inKnownCase o d) := by
  induction fits with
  | single plain =>
    rw [inKnownCase_plain plain]
    exact .single plain
  | list plain =>
    rw [inKnownCase_plain plain]
    exact .list plain
  | @group fields ms settled spelled members ih =>
    rw [inKnownCase, membersInKnownCase_eq]
    have made {m' : String × Datum} (hm' : m' ∈ Datum.setAll (ms.map (renamed (.group fields))) [])
        {part : Outline} (known : fields.lookup (Text.lowerText m'.1) = some part) :
        Text.lowerText m'.1 = m'.1 ∧ part.FitsExactly m'.2 := by
      obtain ⟨m, hm, rfl⟩ := List.mem_map.1 ((Datum.mem_setAll hm').resolve_left List.not_mem_nil)
      obtain ⟨own, renamed⟩ := renamed_name lower known
      rw [renamed]
      refine ⟨lower.own own, ?_⟩
      have value := ih m hm part own (lower.member own)
      rw [respelled]
      split
      · exact value
      · next leaf => rwa [inKnownCase_plain ((members m hm part own).plain (Outline.isLeaf_iff.1 leaf))] at value
    refine .group ?_ (fun m hm part known _ => (made hm known).1) fun m hm part known => (made hm known).2
    -- All known names are spelled as they are known now, and no name stands twice.
    refine List.Pairwise.imp_of_mem (fun {n n'} _ hn' differ known same => differ ?_)
      (Datum.setAll_nodup _ [] .nil)
    obtain ⟨m, hm, rfl⟩ := List.mem_map.1 hn'
    obtain ⟨part, known⟩ := Option.isSome_iff_exists.1 known
    exact same.symm.trans (made hm (same ▸ known)).1

theorem lookup_renamed (lower : (Outline.group fields).Lower) (known : fields.lookup name = some part)
    (ms done : Members) : (Datum.setAll (ms.map (renamed (.group fields))) done).lookup name =
      ((Datum.last? name ms).map (respelled part)).or (done.lookup name) := by
  induction ms generalizing done with
  | nil => rfl
  | cons m rest ih =>
    rw [List.map_cons, Datum.setAll_cons, ih, Datum.lookup_setMember, Datum.last?]
    by_cases own : Text.lowerText m.1 = name
    · rw [renamed_known (show fields.lookup (Text.lowerText m.1) = some part from own ▸ known), own, if_pos rfl,
        if_pos rfl, Option.map_or, Option.or_assoc]
      rfl
    · have other : name ≠ (renamed (.group fields) m).1 := by
        rintro rfl
        obtain ⟨-, same⟩ := renamed_name lower ((lower.own known).symm ▸ known)
        rw [same] at own
        exact own rfl
      rw [if_neg other, if_neg own, Option.or_none]

theorem inKnownCase_at? (lower : o.Lower) (fits : o.Fits strict d) {way : List String}
    (follow : o.follow way = some leaf) (single : leaf.IsLeaf) : (inKnownCase o d).at? way = d.anyCase? way := by
  induction way generalizing o d with
  | nil =>
    obtain rfl := Option.some.inj follow
    rw [inKnownCase_plain (fits.plain single), Datum.anyCase?_nil]
    rfl
  | cons name rest ih =>
    obtain ⟨fields, sub, rfl, known, follow⟩ := follow_cons follow
    obtain ⟨ms, rfl⟩ := fits.object
    rw [inKnownCase, membersInKnownCase_eq, Datum.at?_cons, lookup_renamed lower known, Datum.anyCase?_cons]
    cases found : Datum.last? name ms with
    | none => rfl
    | some d =>
      change (respelled sub d).at? rest = d.anyCase? rest
      rw [respelled]
      split
      · exact ih (lower.member known) (fits.last? known found) follow
      · next leaf' =>
        obtain rfl := follow_leaf (Bool.eq_false_iff.2 leaf') follow
        exact d.anyCase?_nil.symm

end Layer

end ChoreReminder
