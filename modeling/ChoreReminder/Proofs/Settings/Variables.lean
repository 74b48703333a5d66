import Mathlib.Data.List.Induction
import ChoreReminder.Proofs.Outcome
import ChoreReminder.Proofs.Settings.Layers

/-! What variables give for single settings. Inside a section the last variable counts that a setting could be
given by, be it named for the setting or for a group around it; the JSON of the whole section counts below
them all. Names in JSON may be spelled in any case, but where a section is given both as a whole and in
parts, another spelling would keep the two apart. -/

namespace ChoreReminder

open Datum (Distinct)

namespace Layer

open Outline (Fits FitsExactly IsLeaf Lower)

variable {strict : Outline → Bool} {o part leaf : Outline} {sec : String} {vars : Members} {target : List String}

/-! ### Sections side by side -/

def ofSections (fields : List (String × Outline)) (r : String × Outline → Option Datum) : Members :=
  fields.filterMap fun f => (r f).map (f.1, ·)

variable {fields : List (String × Outline)} {r : String × Outline → Option Datum}

theorem ofSections_cons (f : String × Outline) (rest : List (String × Outline))
    (r : String × Outline → Option Datum) :
    ofSections (f :: rest) r = ((r f).map (f.1, ·)).toList ++ ofSections rest r := by
  rw [ofSections, List.filterMap_cons]
  cases r f <;> rfl

theorem ofSections_names : ((ofSections fields r).map (·.1)).Sublist (fields.map (·.1)) := by
  induction fields with
  | nil => exact .refl _
  | cons f rest ih =>
    rw [ofSections_cons]
    cases r f with
    | none => exact ih.cons _
    | some d => exact ih.cons_cons _

theorem mem_ofSections {m : String × Datum} (h : m ∈ ofSections fields r) :
    ∃ f ∈ fields, f.1 = m.1 ∧ r f = some m.2 := by
  obtain ⟨f, hf, made⟩ := List.mem_filterMap.1 h
  obtain ⟨d, given, rfl⟩ := Option.map_eq_some_iff.1 made
  exact ⟨f, hf, rfl, given⟩

theorem lookup_ofSections (names : (fields.map (·.1)).Nodup) {f : String × Outline} (hf : f ∈ fields) :
    (ofSections fields r).lookup f.1 = r f := by
  have names' := names.sublist (ofSections_names (r := r))
  cases given : r f with
  | some d => exact lookup_of_mem names' (List.mem_filterMap.2 ⟨f, hf, by rw [given]; rfl⟩)
  | none =>
    cases found : (ofSections fields r).lookup f.1 with
    | none => rfl
    | some d =>
      obtain ⟨f', hf', same, given'⟩ := mem_ofSections (mem_of_lookup found)
      rw [List.inj_on_of_nodup_map names hf' hf same, given] at given'
      cases given'

theorem ofSections_fits (names : (fields.map (·.1)).Nodup) (lower : (Outline.group fields).Lower)
    (fits : ∀ f ∈ fields, ∀ d, r f = some d → f.2.FitsExactly d) :
    (Outline.group fields).FitsExactly (.obj (ofSections fields r)) := by
  have own {m : String × Datum} (hm : m ∈ ofSections fields r) :
      ∃ f : String × Outline, fields.lookup m.1 = some f.2 ∧ Text.lowerText m.1 = m.1 ∧ f.2.FitsExactly m.2 := by
    obtain ⟨f, hf, same, given⟩ := mem_ofSections hm
    have known : fields.lookup m.1 = some f.2 := lookup_of_mem names (same ▸ hf)
    exact ⟨f, known, lower.own known, fits f hf m.2 given⟩
  refine .group ?_ (fun m hm part known _ => ?_) fun m hm part known => ?_
  · refine List.Pairwise.imp_of_mem (fun {n n'} _ hn' differ _ same => differ ?_)
      (names.sublist ofSections_names)
    obtain ⟨m, hm, rfl⟩ := List.mem_map.1 hn'
    obtain ⟨f, -, own, -⟩ := own hm
    exact same.symm.trans own
  · obtain ⟨f, -, own, -⟩ := own hm
    exact own
  · obtain ⟨f, known', own, fits⟩ := own hm
    rw [own, known'] at known
    exact Option.some.inj known ▸ fits

theorem ofSections_distinct (names : (fields.map (·.1)).Nodup)
    (distinct : ∀ f ∈ fields, ∀ d, r f = some d → Distinct d) : Distinct (.obj (ofSections fields r)) := by
  refine .obj (names.sublist ofSections_names) fun m hm => ?_
  obtain ⟨f, hf, -, given⟩ := mem_ofSections hm
  exact distinct f hf m.2 given

/-! ### The settings of the program -/

theorem settings_lower : Outline.ofSettings.Lower := by
  have single : Lower .single := .leaf fun _ => Outline.noConfusion
  have list : Lower .list := .leaf fun _ => Outline.noConfusion
  have none (f : String × Outline) (h : f ∈ []) : f.2.Lower := nomatch h
  refine .group (by decide +kernel) ?_
  simp only [List.forall_mem_cons]
  refine ⟨.group (by decide +kernel) ?_, .group (by decide +kernel) ?_, .group (by decide +kernel) ?_,
    .group (by decide +kernel) ?_, none⟩
  · simp [single, list]
  · simp only [List.forall_mem_singleton]
    refine .group (by decide +kernel) ?_
    simp [single]
  · simp [single]
  · simp [single]

theorem settings_names : (Outline.ofSettings.fields.map (·.1)).Nodup := by decide

/-! ### Variables of a section -/

theorem steps_ne_nil (cs : List Char) : steps cs ≠ [] := by
  fun_cases steps cs <;> simp_all

def wayIn? (sec name : String) : Option (List String) :=
  (after? (mark ++ sec ++ "__") name).map fun rest => (steps rest).map String.ofList

def says? (o : Outline) (sec : String) (v : String × Datum) : Option (List String × Datum) :=
  (wayIn? sec v.1).bind fun way => (valueOf (o.follow way) v.1 v.2).toOption.map (way, ·)

def NestedFit (strict : Outline → Bool) (o : Outline) (sec : String) (vars : Members) : Prop :=
  ∀ v ∈ vars, ∀ way ∈ wayIn? sec v.1,
    ∃ part ∈ o.follow way, ∃ d ∈ (valueOf (some part) v.1 v.2).toOption, part.Fits strict d

instance : Decidable (NestedFit strict o sec vars) :=
  inferInstanceAs (Decidable (∀ v ∈ vars, ∀ way ∈ wayIn? sec v.1,
    ∃ part ∈ o.follow way, ∃ d ∈ (valueOf (some part) v.1 v.2).toOption, part.Fits strict d))

structure Said (strict : Outline → Bool) (o : Outline) (p : List String × Datum) : Prop where
  some' : p.1 ≠ []
  fits : ∃ part, o.follow p.1 = some part ∧ part.Fits strict p.2
  distinct : Distinct p.2

theorem valueOf_distinct {name : String} {d d' : Datum} (plain : Distinct d)
    (h : valueOf (some part) name d = .ok d') : Distinct d' := by
  unfold valueOf at h
  split at h
  case h_3 =>
    obtain rfl := Except.ok.inj h
    exact plain
  all_goals
    split at h
    · obtain rfl := Except.ok.inj h
      exact plain
    · split at h
      · next read =>
        obtain rfl := Except.ok.inj h
        exact Datum.Json.read?_distinct read
      · cases h

def written (ps : List (List String × Datum)) : Members := ps.foldl (fun ms p => put p.2 p.1 ms) []

theorem says?_eq {v : String × Datum} {way : List String} {d : Datum} (named : wayIn? sec v.1 = some way)
    (known : o.follow way = some part) (read : valueOf (some part) v.1 v.2 = .ok d) :
    says? o sec v = some (way, d) := by
  rw [says?, named, Option.bind_some, known, read]
  rfl

theorem wayIn?_ne_nil {name : String} {way : List String} (named : wayIn? sec name = some way) : way ≠ [] := by
  obtain ⟨rest, -, rfl⟩ := Option.map_eq_some_iff.1 named
  exact fun none => steps_ne_nil rest (List.map_eq_nil_iff.1 none)

theorem parts_eq (fit : NestedFit strict o sec vars) :
    parts o (mark ++ sec) vars = .ok (written (vars.filterMap (says? o sec))) := by
  unfold parts written
  rw [List.foldl_filterMap]
  refine foldlM_ok vars (fun v hv ms => ?_) []
  obtain ⟨name, d⟩ := v
  cases named : after? (mark ++ sec ++ "__") name with
  | none =>
    have silent : says? o sec (name, d) = none := by rw [says?, wayIn?, named, Option.map_none, Option.bind_none]
    simp only [named, silent]
  | some cs =>
    have way : wayIn? sec name = some ((steps cs).map String.ofList) := by rw [wayIn?, named, Option.map_some]
    obtain ⟨part, known, d', read, -⟩ := fit _ hv _ way
    have read := toOption_eq_some.1 read
    have known : o.follow ((steps cs).map String.ofList) = some part := known
    simp only [named, known, read, says?_eq way known read]
    rfl

theorem said_of_mem (fit : NestedFit strict o sec vars) (texts : ∀ v ∈ vars, Distinct v.2) :
    ∀ p ∈ vars.filterMap (says? o sec), Said strict o p := by
  intro p hp
  obtain ⟨v, hv, said⟩ := List.mem_filterMap.1 hp
  obtain ⟨way, named, -⟩ := Option.bind_eq_some_iff.1 said
  obtain ⟨part, known, d, read, fits⟩ := fit v hv way named
  have read := toOption_eq_some.1 read
  obtain rfl := Option.some.inj ((says?_eq named known read).symm.trans said)
  exact ⟨wayIn?_ne_nil named, ⟨part, known, fits⟩, valueOf_distinct (texts v hv) read⟩

theorem written_append (ps : List (List String × Datum)) (p : List String × Datum) :
    written (ps ++ [p]) = put p.2 p.1 (written ps) := by
  rw [written, List.foldl_append]
  rfl

theorem written_fits (lower : (Outline.group fields).Lower) {ps : List (List String × Datum)}
    (said : ∀ p ∈ ps, Said strict (.group fields) p) :
    (Outline.group fields).Fits strict (.obj (written ps)) ∧ Distinct (.obj (written ps)) := by
  induction ps using List.reverseRecOn with
  | nil => exact ⟨.empty, .empty⟩
  | append_singleton ps p ih =>
    obtain ⟨earlier, last⟩ := List.forall_mem_append.1 said
    obtain ⟨some', ⟨part, follow, value⟩, distinct⟩ := last p (List.mem_singleton_self p)
    obtain ⟨fits, names⟩ := ih earlier
    rw [written_append]
    exact ⟨put_fits follow some' lower value fits, put_distinct follow some' lower distinct fits names⟩

theorem anyCase?_empty (follow : (Outline.group fields).follow target = some leaf) (single : leaf.IsLeaf) :
    (Datum.obj []).anyCase? target = none := by
  cases target with
  | nil =>
    obtain rfl := Option.some.inj follow
    exact absurd rfl (single fields)
  | cons name rest => rfl

theorem anyCase?_written (groups : ∀ part, part.isGroup = true → strict part = true)
    (lower : (Outline.group fields).Lower) {ps : List (List String × Datum)}
    (said : ∀ p ∈ ps, Said strict (.group fields) p) (follow : (Outline.group fields).follow target = some leaf)
    (single : leaf.IsLeaf) : (Datum.obj (written ps)).anyCase? target =
      (ps.filter (·.1 <+: target)).getLast?.bind fun p => p.2.anyCase? (target.drop p.1.length) := by
  induction ps using List.reverseRecOn with
  | nil => exact anyCase?_empty follow single
  | append_singleton ps p ih =>
    obtain ⟨earlier, last⟩ := List.forall_mem_append.1 said
    obtain ⟨some', ⟨part, leads, -⟩, -⟩ := last p (List.mem_singleton_self p)
    rw [written_append, anyCase?_put groups leads some' lower follow single (written_fits lower earlier).1,
      List.filter_append]
    by_cases about : p.1 <+: target
    · simp [about]
    · simp [about, ih earlier]

/-! ### A section as a whole -/

def wholeText? (sec : String) (vars : Members) : Option String :=
  match vars.lookup (mark ++ sec) with
  | some (.str s) => some s
  | _ => none

def whole? (sec : String) (vars : Members) : Option Datum := (wholeText? sec vars).bind (Datum.Json.read? ·.toList)

/-- What is said about a setting inside a section, by variables for it or for a group around it. -/
def heard (o : Outline) (sec : String) (vars : Members) (target : List String) : List (List String × Datum) :=
  (vars.filterMap (says? o sec)).filter (·.1 <+: target)

/-- What variables give for a setting inside a section: what is said last, and below it the JSON of the whole
section. Names in JSON may be spelled in any case. -/
def gives (o : Outline) (sec : String) (vars : Members) (target : List String) : Option Datum :=
  ((heard o sec vars target).getLast?.bind fun p => p.2.anyCase? (target.drop p.1.length)).or
    ((whole? sec vars).bind (·.anyCase? target))

def mixes (sec : String) (vars : Members) : Bool :=
  (wholeText? sec vars).isSome && vars.any fun v => (wayIn? sec v.1).isSome

/-- The variables of a section fit. Where they give the section both as a whole and in parts, the whole spells
groups as they are known, and the parts spell all names so. -/
structure SectionFits (o : Outline) (sec : String) (vars : Members) : Prop where
  nested : NestedFit (fun part => mixes sec vars || part.isGroup) o sec vars
  whole : ∀ s ∈ wholeText? sec vars,
    ∃ d ∈ Datum.Json.read? s.toList, o.Fits (fun part => mixes sec vars && part.isGroup) d

instance : Decidable (SectionFits o sec vars) :=
  decidable_of_iff (NestedFit (fun part => mixes sec vars || part.isGroup) o sec vars ∧
      ∀ s ∈ wholeText? sec vars,
        ∃ d ∈ Datum.Json.read? s.toList, o.Fits (fun part => mixes sec vars && part.isGroup) d)
    ⟨fun ⟨nested, whole⟩ => ⟨nested, whole⟩, fun fit => ⟨fit.nested, fit.whole⟩⟩

def rawSection (o : Outline) (sec : String) (vars : Members) : Option Datum :=
  let ms := written (vars.filterMap (says? o sec))
  match whole? sec vars with
  | some d => some (overlay (some d) (.obj ms))
  | none => if ms.isEmpty then none else some (.obj ms)

def sectionOf (o : Outline) (sec : String) (vars : Members) : Option Datum :=
  (rawSection o sec vars).map (inKnownCase o)

section Whole

variable {fields : List (String × Outline)} (lower : (Outline.group fields).Lower)
  (texts : ∀ v ∈ vars, Distinct v.2) (fit : SectionFits (.group fields) sec vars)

include fit in
theorem whole?_fits {d : Datum} (given : whole? sec vars = some d) :
    (Outline.group fields).Fits (fun part => mixes sec vars && part.isGroup) d ∧ Distinct d := by
  obtain ⟨s, found, read⟩ := Option.bind_eq_some_iff.1 given
  obtain ⟨d', read', fits⟩ := fit.whole s found
  obtain rfl := Option.some.inj (read.symm.trans read')
  exact ⟨fits, Datum.Json.read?_distinct read⟩

theorem unmixed {d : Datum} (given : whole? sec vars = some d) (apart : mixes sec vars = false) :
    vars.filterMap (says? o sec) = [] := by
  obtain ⟨s, found, -⟩ := Option.bind_eq_some_iff.1 given
  rw [mixes, found, Option.isSome_some, Bool.true_and, List.any_eq_false] at apart
  refine List.filterMap_eq_nil_iff.2 fun v hv => ?_
  rw [says?, Option.not_isSome_iff_eq_none.1 (apart v hv), Option.bind_none]

include lower texts fit in
theorem written_exactly {d : Datum} (given : whole? sec vars = some d) :
    (Outline.group fields).FitsExactly (.obj (written (vars.filterMap (says? (.group fields) sec)))) := by
  cases mixed : mixes sec vars with
  | false =>
    rw [unmixed given mixed]
    exact .empty
  | true => simpa only [mixed, Bool.true_or] using (written_fits lower (said_of_mem fit.nested texts)).1

include lower texts fit in
theorem rawSection_fits {d : Datum} (given : rawSection (.group fields) sec vars = some d) :
    ∃ strict, (Outline.group fields).Fits strict d ∧ Distinct d := by
  obtain ⟨fits, names⟩ := written_fits lower (said_of_mem fit.nested texts)
  unfold rawSection at given
  dsimp only at given
  split at given
  · next below =>
    obtain ⟨fits', names'⟩ := whole?_fits fit below
    obtain rfl := Option.some.inj given
    exact ⟨_, overlay_fits (written_exactly lower texts fit below) names fits' names',
      overlay_distinct names names'⟩
  · split at given
    · cases given
    · obtain rfl := Option.some.inj given
      exact ⟨_, fits, names⟩

include lower texts fit in
theorem rawSection_anyCase? (follow : (Outline.group fields).follow target = some leaf) (single : leaf.IsLeaf) :
    (rawSection (.group fields) sec vars).bind (·.anyCase? target) = gives (.group fields) sec vars target := by
  have said := said_of_mem fit.nested texts
  obtain ⟨fits, names⟩ := written_fits lower said
  have inside := anyCase?_written (fun _ group => by simp [group]) lower said follow single
  rw [gives, heard, ← inside, rawSection]
  cases below : whole? sec vars with
  | some d =>
    obtain ⟨fits', -⟩ := whole?_fits fit below
    cases mixed : mixes sec vars with
    | false =>
      -- The whole may spell its groups in any case here, but nothing is merged into it.
      obtain ⟨ms, rfl⟩ := fits'.object
      rw [unmixed below mixed, Option.bind_some, show written [] = [] from rfl, overlay, merge,
        anyCase?_empty follow single]
      rfl
    | true =>
      simp only [mixed, Bool.true_and] at fits'
      exact anyCase?_overlay (fun _ => id) follow single lower (written_exactly lower texts fit below) names fits'
  | none =>
    rw [Option.bind_none, Option.or_none]
    dsimp only
    split
    · next none =>
      rw [List.isEmpty_iff.1 none, anyCase?_empty follow single]
      rfl
    · rfl

include lower texts fit in
theorem sectionOf_fits {d : Datum} (given : sectionOf (.group fields) sec vars = some d) :
    (Outline.group fields).FitsExactly d ∧ Distinct d := by
  obtain ⟨raw, spelled, rfl⟩ := Option.map_eq_some_iff.1 given
  obtain ⟨strict, fits, distinct⟩ := rawSection_fits lower texts fit spelled
  exact ⟨inKnownCase_fits lower fits, inKnownCase_distinct distinct _⟩

include lower texts fit in
theorem sectionOf_at? (follow : (Outline.group fields).follow target = some leaf) (single : leaf.IsLeaf) :
    (sectionOf (.group fields) sec vars).bind (·.at? target) = gives (.group fields) sec vars target := by
  rw [← rawSection_anyCase? lower texts fit follow single, sectionOf]
  cases given : rawSection (.group fields) sec vars with
  | none => rfl
  | some d =>
    obtain ⟨strict, fits, -⟩ := rawSection_fits lower texts fit given
    exact inKnownCase_at? lower fits follow single

include fit in
theorem section?_eq : section? (.group fields) sec vars = .ok (sectionOf (.group fields) sec vars) := by
  unfold section?
  simp only [parts_eq fit.nested]
  rw [sectionOf, rawSection]
  split
  · next s found =>
    have text : wholeText? sec vars = some s := by rw [wholeText?, found]
    obtain ⟨d, read, whole⟩ := fit.whole s text
    have below : whole? sec vars = some d := by rw [whole?, text, Option.bind_some, read]
    obtain ⟨ms, rfl⟩ := whole.object
    rw [read, below]
    dsimp only
    rw [overlay]
    rfl
  · next other =>
    have below : whole? sec vars = none := by
      unfold whole? wholeText?
      split
      · next s found => exact absurd found (other s)
      · rfl
    rw [below]
    change Except.ok (if _ then _ else _) = _
    dsimp only
    split <;> rfl

end Whole

/-! ### All sections -/

def lowered (vars : Members) : Members := Datum.setAll (vars.map fun v => (Text.lowerText v.1, v.2)) []

def VariablesFit (vars : Members) : Prop := ∀ f ∈ Outline.ofSettings.fields, SectionFits f.2 f.1 (lowered vars)

instance : Decidable (VariablesFit vars) :=
  inferInstanceAs (Decidable (∀ f ∈ Outline.ofSettings.fields, SectionFits f.2 f.1 (lowered vars)))

def variablesGive? (vars : Members) : List String → Option Datum
  | [] => none
  | sec :: target => (Outline.ofSettings.fields.lookup sec).bind fun o => gives o sec (lowered vars) target

structure Gives (ms : Members) (told : List String → Option Datum) : Prop where
  fits : Outline.ofSettings.FitsExactly (.obj ms)
  distinct : Distinct (.obj ms)
  at? : ∀ way leaf, Outline.ofSettings.follow way = some leaf → leaf.IsLeaf → (Datum.obj ms).at? way = told way

theorem mem_lowered {v : String × Datum} (h : v ∈ lowered vars) : ∃ u ∈ vars, v.2 = u.2 := by
  obtain ⟨u, hu, rfl⟩ := List.mem_map.1 ((Datum.mem_setAll h).resolve_left List.not_mem_nil)
  exact ⟨u, hu, rfl⟩

theorem sections_group {f : String × Outline} (hf : f ∈ Outline.ofSettings.fields) :
    ∃ fields, f.2 = .group fields := by
  revert f
  simp [Outline.ofSettings, Outline.fields]

theorem gives_ofSections {r : String × Outline → Option Datum} {told : List String → Option Datum}
    (fits : ∀ f ∈ Outline.ofSettings.fields, ∀ d, r f = some d → f.2.FitsExactly d ∧ Distinct d)
    (at? : ∀ f ∈ Outline.ofSettings.fields, ∀ target leaf, f.2.follow target = some leaf → leaf.IsLeaf →
      (r f).bind (·.at? target) = told (f.1 :: target)) : Gives (ofSections Outline.ofSettings.fields r) told where
  fits := ofSections_fits settings_names settings_lower fun f hf d given => (fits f hf d given).1
  distinct := ofSections_distinct settings_names fun f hf d given => (fits f hf d given).2
  at? way leaf follow single := by
    cases way with
    | nil =>
      obtain rfl := Option.some.inj follow
      exact absurd rfl (single _)
    | cons sec target =>
      obtain ⟨fields, o, same, known, follow⟩ := Outline.follow_cons follow
      obtain rfl : Outline.ofSettings.fields = fields := congrArg Outline.fields same
      have hf := mem_of_lookup known
      rw [Datum.at?_cons, lookup_ofSections settings_names hf]
      exact at? _ hf target leaf follow single

theorem ofVariables_eq {r : String × Outline → Option Datum}
    (read : ∀ f ∈ Outline.ofSettings.fields, section? f.2 f.1 (lowered vars) = .ok (r f)) :
    ofVariables vars = .ok (ofSections Outline.ofSettings.fields r) := by
  have all (fields : List (String × Outline)) (ms : Members) :
      fields.foldl (fun ms f => ms ++ ((r f).map (f.1, ·)).toList) ms = ms ++ ofSections fields r := by
    induction fields generalizing ms with
    | nil => exact (List.append_nil ms).symm
    | cons f rest ih => rw [List.foldl_cons, ih, ofSections_cons, List.append_assoc]
  have names : vars.foldl (fun ms v => Datum.setMember (Text.lowerText v.1) v.2 ms) [] = lowered vars := by
    rw [lowered, Datum.setAll, List.foldl_map]
  refine (foldlM_ok _ (fun f hf ms => ?_) []).trans (congrArg Except.ok (all _ []))
  change (section? f.2 f.1 (vars.foldl (fun ms v => Datum.setMember (Text.lowerText v.1) v.2 ms) []) >>=
    fun d => .ok (ms ++ (d.map (f.1, ·)).toList)) = _
  rw [names, read f hf]
  rfl

theorem ofVariables_gives (texts : ∀ v ∈ vars, Distinct v.2) (fit : VariablesFit vars) :
    ∃ ms, ofVariables vars = .ok ms ∧ Gives ms (variablesGive? vars) := by
  have texts' : ∀ v ∈ lowered vars, Distinct v.2 := by
    intro v hv
    obtain ⟨u, hu, same⟩ := mem_lowered hv
    exact same ▸ texts u hu
  have lower {f : String × Outline} (hf : f ∈ Outline.ofSettings.fields) : f.2.Lower :=
    settings_lower.member (lookup_of_mem settings_names hf)
  refine ⟨_, ofVariables_eq (r := fun f => sectionOf f.2 f.1 (lowered vars)) fun f hf => ?_,
    gives_ofSections (fun f hf d given => ?_) fun f hf target leaf follow single => ?_⟩
  all_goals
    obtain ⟨sec, o⟩ := f
    obtain ⟨fields, rfl : o = .group fields⟩ := sections_group hf
  · exact section?_eq (fit _ hf)
  · exact sectionOf_fits (lower hf) texts' (fit _ hf) given
  · rw [sectionOf_at? (lower hf) texts' (fit _ hf) follow single, variablesGive?, lookup_of_mem settings_names hf]
    rfl

/-! ### Single variables -/

def Reaches (name : String) : (way : List String) → Prop
  | [] => False
  | sec :: target => ∃ way, wayIn? sec name = some way ∧ way <+: target

theorem heard_append (vars rest : Members) :
    heard o sec (vars ++ rest) target = heard o sec vars target ++ heard o sec rest target := by
  simp only [heard, List.filterMap_append, List.filter_append]

theorem heard_cons (v : String × Datum) (rest : Members) :
    heard o sec (v :: rest) target = heard o sec [v] target ++ heard o sec rest target := heard_append [v] rest

theorem heard_of_silent (silent : ∀ v ∈ vars, ¬ Reaches v.1 (sec :: target)) : heard o sec vars target = [] := by
  rw [heard, List.filter_eq_nil_iff]
  intro p hp about
  obtain ⟨v, hv, said⟩ := List.mem_filterMap.1 hp
  obtain ⟨way, named, said⟩ := Option.bind_eq_some_iff.1 said
  obtain ⟨d, -, rfl⟩ := Option.map_eq_some_iff.1 said
  exact silent v hv ⟨way, named, of_decide_eq_true about⟩

theorem gives_of_last {before after : Members} {name : String} {d d' : Datum}
    (split : vars = before ++ (name, d) :: after) (named : wayIn? sec name = some target)
    (known : o.follow target = some part) (read : valueOf (some part) name d = .ok d')
    (last : ∀ v ∈ after, ¬ Reaches v.1 (sec :: target)) : gives o sec vars target = some d' := by
  have own : heard o sec [(name, d)] target = [(target, d')] := by
    have said : says? o sec (name, d) = some (target, d') := says?_eq named known read
    simp [heard, said]
  rw [gives, split, heard_append, heard_cons, own, heard_of_silent last, List.append_nil, List.getLast?_concat]
  simp [Datum.anyCase?_nil]

theorem gives_setMember {name : String} (other : name ≠ mark ++ sec) (silent : ¬ Reaches name (sec :: target))
    (d : Datum) : gives o sec (Datum.setMember name d vars) target = gives o sec vars target := by
  have whole : whole? sec (Datum.setMember name d vars) = whole? sec vars := by
    rw [whole?, wholeText?, Datum.lookup_setMember, if_neg (Ne.symm other), whole?, wholeText?]
  have unheard (d : Datum) : heard o sec [(name, d)] target = [] := heard_of_silent (List.forall_mem_singleton.2 silent)
  have same : heard o sec (Datum.setMember name d vars) target = heard o sec vars target := by
    clear whole
    induction vars with
    | nil => exact unheard d
    | cons v rest ih =>
      obtain ⟨n, v⟩ := v
      rw [Datum.setMember, heard_cons (n, v) rest]
      split
      · next own =>
        obtain rfl := own
        rw [heard_cons, unheard, unheard]
      · rw [heard_cons, ih]
  rw [gives, whole, same, gives]

end Layer

end ChoreReminder
