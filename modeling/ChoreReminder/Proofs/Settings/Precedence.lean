import ChoreReminder.Proofs.Datum.Equality
import ChoreReminder.Proofs.Datum.Yaml
import ChoreReminder.Proofs.Settings.Leaf
import ChoreReminder.Proofs.Settings.Variables
import ChoreReminder.Settings.Load

/-! Where each setting comes from. The document, the file of variables and the environment are layers one above
the other; a setting has the value that the topmost layer gives that gives one, and its default if none
does. So what the layers give for one setting is all that its value depends on. -/

namespace ChoreReminder

open Datum (Distinct)

namespace Settings

theorem leaves_follow : ∀ leaf ∈ leaves, ∃ o, Outline.ofSettings.follow leaf.way = some o ∧ o.IsLeaf := by
  have single : Outline.single.IsLeaf := fun _ => Outline.noConfusion
  have list : Outline.list.IsLeaf := fun _ => Outline.noConfusion
  simp only [leaves, NotificationSettings.leaves, TelegramSettings.leaves, LoggingSettings.leaves, List.map_cons,
    List.map_nil, List.cons_append, List.nil_append, List.forall_mem_cons]
  refine ⟨?_, ?_, ?_, ?_, ?_, ⟨_, rfl, list⟩, ?_, ?_, ?_, ?_, ?_, ?_, ?_, ?_, ?_, ?_,
    fun _ none => absurd none List.not_mem_nil⟩ <;>
    exact ⟨_, rfl, single⟩

theorem sections_follow : ∀ way ∈ sections, ∃ fields, Outline.ofSettings.follow way = some (.group fields) := by
  simp only [sections, List.forall_mem_cons]
  exact ⟨⟨_, rfl⟩, ⟨_, rfl⟩, ⟨_, rfl⟩, ⟨_, rfl⟩, ⟨_, rfl⟩, fun _ none => absurd none List.not_mem_nil⟩

end Settings

namespace Layer

variable {base above ms : Members} {told told' : List String → Option Datum}

/-- The value of a section in a document: the one at the name in its known case, or else the first at the name in
any case. -/
def outermost? (ms : Members) (sec : String) : Option Datum :=
  (ms.lookup sec).or ((ms.find? fun m => Text.lowerText m.1 = sec).map (·.2))

def documentGives? (ms : Members) : List String → Option Datum
  | [] => none
  | sec :: target => (outermost? ms sec).bind (·.at? target)

def DocumentFits (ms : Members) : Prop :=
  ∀ f ∈ Outline.ofSettings.fields, ∀ d ∈ outermost? ms f.1, f.2.FitsExactly d

instance : Decidable (DocumentFits ms) :=
  inferInstanceAs (Decidable (∀ f ∈ Outline.ofSettings.fields, ∀ d ∈ outermost? ms f.1, f.2.FitsExactly d))

theorem ofDocument_gives (distinct : Distinct (.obj ms)) (fit : DocumentFits ms) :
    Gives (ofDocument ms) (documentGives? ms) := by
  refine gives_ofSections (r := fun f => outermost? ms f.1)
    (fun f hf d given => ⟨fit f hf d given, ?_⟩) fun f hf target leaf follow single => rfl
  rcases Option.or_eq_some_iff.1 given with found | ⟨-, found⟩
  · exact distinct.lookup found
  · obtain ⟨m, first, rfl⟩ := Option.map_eq_some_iff.1 found
    exact distinct.member (List.mem_of_find?_eq_some first)

theorem Gives.merge (below : Gives base told) (upper : Gives above told') :
    Gives (merge base above) fun way => (told' way).or (told way) := by
  have merged : Datum.obj (Layer.merge base above) = overlay (some (.obj base)) (.obj above) := by rw [overlay]
  have fits : Outline.ofSettings.FitsExactly (.obj (Layer.merge base above)) := by
    rw [merged]
    exact overlay_fits upper.fits upper.distinct below.fits below.distinct
  constructor
  · exact fits
  · rw [merged]
    exact overlay_distinct upper.distinct below.distinct
  · intro way leaf follow single
    rw [← fits.anyCase?_eq settings_lower follow, merged,
      anyCase?_overlay (fun _ _ => rfl) follow single settings_lower upper.fits upper.distinct below.fits,
      upper.fits.anyCase?_eq settings_lower follow, below.fits.anyCase?_eq settings_lower follow,
      upper.at? way leaf follow single, below.at? way leaf follow single]

/-! ### Single variables -/

def nameOf (way : List String) : String := mark ++ "__".intercalate way

/-- The variable is named for the setting, or for a group or a section around it. -/
def Concerns (name : String) (way : List String) : Prop :=
  (∃ sec ∈ way.head?, name = mark ++ sec) ∨ Reaches name way

theorem leaves_named : ∀ leaf ∈ Settings.leaves,
    leaf.way.head?.bind (fun sec => wayIn? sec (nameOf leaf.way)) = some leaf.way.tail := by
  decide +kernel

/-- A variable for a setting counts before all JSON, if none stands behind it that is named for a group around the
setting. -/
theorem variablesGive?_of_last {vars before after : Members} {leaf : Leaf Settings} (hl : leaf ∈ Settings.leaves)
    {d d' : Datum} (split : lowered vars = before ++ (nameOf leaf.way, d) :: after)
    (read : valueOf (Outline.ofSettings.follow leaf.way) (nameOf leaf.way) d = .ok d')
    (last : ∀ v ∈ after, ¬ Reaches v.1 leaf.way) : variablesGive? vars leaf.way = some d' := by
  obtain ⟨o, follow, -⟩ := Settings.leaves_follow leaf hl
  have named := leaves_named leaf hl
  rw [follow] at read
  cases way : leaf.way with
  | nil =>
    rw [way] at named
    cases named
  | cons sec target =>
    rw [way] at split read last named follow
    obtain ⟨fields, section', same, known, follow⟩ := Outline.follow_cons follow
    obtain rfl : Outline.ofSettings.fields = fields := congrArg Outline.fields same
    rw [variablesGive?, known, Option.bind_some]
    exact gives_of_last split named follow read last

theorem variablesGive?_append {name : String} {way : List String} (other : ¬ Concerns (Text.lowerText name) way)
    (vars : Members) (d : Datum) : variablesGive? (vars ++ [(name, d)]) way = variablesGive? vars way := by
  cases way with
  | nil => rfl
  | cons sec target =>
    obtain ⟨section', inside⟩ := not_or.1 other
    have last : lowered (vars ++ [(name, d)]) = Datum.setMember (Text.lowerText name) d (lowered vars) := by
      rw [lowered, List.map_append, Datum.setAll, List.foldl_append]
      rfl
    rw [variablesGive?, last, variablesGive?]
    exact congrArg _ (funext fun o => gives_setMember (fun same => section' ⟨sec, rfl, same⟩) inside d)

end Layer

theorem VariableFile.read_distinct (given : List (String × String)) (cs : List Char) :
    ∀ v ∈ VariableFile.read given cs, Distinct v.2 := by
  unfold VariableFile.read
  generalize VariableFile.lines (cs.length + 1) cs = lines
  suffices all : ∀ done : Layer.Members, (∀ v ∈ done, Distinct v.2) →
      ∀ v ∈ lines.foldl _ done, Distinct v.2 from all [] fun _ none => nomatch none
  induction lines with
  | nil => exact fun done texts => texts
  | cons line rest ih =>
    refine fun done texts => ih _ fun v hv => ?_
    rcases Datum.mem_setMember hv with rfl | hv
    · cases line.2 <;> exact .other fun _ => Datum.noConfusion
    · exact texts v hv

namespace Surroundings

def exported (s : Surroundings) : Layer.Members := s.environment.map fun v => (v.1, Datum.str v.2)

def filed (s : Surroundings) : Layer.Members := ((s.file? ".env").map (VariableFile.read s.environment)).getD []

def membersOf? (cs : List Char) : Option Layer.Members :=
  match Yaml.Document.read cs with
  | .ok ⟨.obj ms, true⟩ => some ms
  | .ok ⟨.null, _⟩ => some []
  | _ => none

def document? (s : Surroundings) (asked : Option String) : Option Layer.Members :=
  (Settings.documentPath? s asked).toOption.bind fun path =>
    path.elim (some []) fun path => membersOf? ((s.file? path).getD [])

/-- What all layers give for a setting: the environment counts most, then the file of variables, then the
document. -/
def given? (s : Surroundings) (doc : Layer.Members) (way : List String) : Option Datum :=
  (Layer.variablesGive? s.exported way).or
    ((Layer.variablesGive? s.filed way).or (Layer.documentGives? doc way))

theorem readDocument_of_members {cs : List Char} {doc : Layer.Members} (h : membersOf? cs = some doc)
    (path : String) : Settings.readDocument path cs = .ok (Layer.ofDocument doc) ∧ Distinct (.obj doc) := by
  unfold membersOf? at h
  unfold Settings.readDocument
  split at h
  · next ms read =>
    obtain rfl := Option.some.inj h
    rw [read]
    exact ⟨rfl, Yaml.Document.read_distinct read⟩
  · next read =>
    obtain rfl := Option.some.inj h
    rw [read]
    exact ⟨rfl, .empty⟩
  · cases h

theorem readDocument_eq {s : Surroundings} {asked : Option String} {doc : Layer.Members}
    (h : s.document? asked = some doc) : ∃ path, Settings.documentPath? s asked = .ok path ∧ Distinct (.obj doc) ∧
      path.elim (.ok []) (fun path => Settings.readDocument path ((s.file? path).getD [])) =
        .ok (Layer.ofDocument doc) := by
  obtain ⟨path, found, read⟩ := Option.bind_eq_some_iff.1 h
  refine ⟨path, toOption_eq_some.1 found, ?_⟩
  cases path with
  | none =>
    obtain rfl := Option.some.inj read
    exact ⟨.empty, rfl⟩
  | some path =>
    obtain ⟨ok, distinct⟩ := readDocument_of_members read path
    exact ⟨distinct, ok⟩

theorem readVariables_gives (s : Surroundings) (filed : Layer.VariablesFit s.filed)
    (exported : Layer.VariablesFit s.exported) : ∃ ms, Settings.readVariables s = .ok ms ∧
      Layer.Gives ms fun way => (Layer.variablesGive? s.exported way).or (Layer.variablesGive? s.filed way) := by
  have texts : ∀ v ∈ s.exported, Distinct v.2 := by
    intro v hv
    obtain ⟨u, -, rfl⟩ := List.mem_map.1 hv
    exact .other fun _ => Datum.noConfusion
  have texts' : ∀ v ∈ s.filed, Distinct v.2 := by
    intro v hv
    unfold Surroundings.filed at hv
    cases file : s.file? ".env" with
    | none => simp [file] at hv
    | some cs =>
      rw [file] at hv
      exact VariableFile.read_distinct _ cs v hv
  obtain ⟨above, readAbove, givesAbove⟩ := Layer.ofVariables_gives texts exported
  obtain ⟨base, readBase, givesBase⟩ := Layer.ofVariables_gives texts' filed
  refine ⟨_, ?_, givesBase.merge givesAbove⟩
  unfold Settings.readVariables
  dsimp only
  rw [show Layer.ofVariables (s.environment.map _) = .ok above from readAbove,
    show Layer.ofVariables (Option.getD _ []) = .ok base from readBase]

end Surroundings

namespace Settings

/-- The document can be read, every layer is built like the settings, and what is given for single settings can
be read. -/
structure WellTyped (s : Surroundings) (asked : Option String) (doc : Layer.Members) : Prop where
  document : s.document? asked = some doc
  sections : Layer.DocumentFits doc
  filed : Layer.VariablesFit s.filed
  exported : Layer.VariablesFit s.exported
  readable : ∀ leaf ∈ leaves, leaf.Readable (s.given? doc leaf.way)

variable {s : Surroundings} {asked : Option String} {doc : Layer.Members}

instance : Decidable (WellTyped s asked doc) :=
  decidable_of_iff
    (s.document? asked = some doc ∧ Layer.DocumentFits doc ∧ Layer.VariablesFit s.filed ∧
      Layer.VariablesFit s.exported ∧ ∀ leaf ∈ leaves, leaf.Readable (s.given? doc leaf.way))
    ⟨fun ⟨document, sections, filed, exported, readable⟩ => ⟨document, sections, filed, exported, readable⟩,
      fun typed => ⟨typed.document, typed.sections, typed.filed, typed.exported, typed.readable⟩⟩

theorem load_shows (typed : WellTyped s asked doc) :
    ∃ settings, load s asked = .ok settings ∧
      ∀ leaf ∈ leaves, leaf.Shows {} settings (s.given? doc leaf.way) := by
  obtain ⟨path, found, distinct, read⟩ := Surroundings.readDocument_eq typed.document
  obtain ⟨above, readAbove, givesAbove⟩ := s.readVariables_gives typed.filed typed.exported
  have all := (Layer.ofDocument_gives distinct typed.sections).merge givesAbove
  have objects (way : List String) (hw : way ∈ sections) (v : Datum)
      (hv : (Datum.obj (Layer.merge (Layer.ofDocument doc) above)).at? way = some v) : ∃ ms, v = .obj ms := by
    obtain ⟨fields, follow⟩ := sections_follow way hw
    exact (all.fits.at? Layer.settings_lower follow hv).object
  have given {leaf : Leaf Settings} (hl : leaf ∈ leaves) :
      (Datum.obj (Layer.merge (Layer.ofDocument doc) above)).at? leaf.way = s.given? doc leaf.way := by
    obtain ⟨o, follow, single⟩ := leaves_follow leaf hl
    rw [all.at? leaf.way o follow single, Surroundings.given?, Option.or_assoc]
  obtain ⟨settings, ok, shows'⟩ := ofDatum_reads objects fun leaf hl => by
    rw [given hl]
    exact typed.readable leaf hl
  refine ⟨settings, ?_, fun leaf hl => given hl ▸ shows' leaf hl⟩
  refine bind_eq_ok.2 ⟨path, found, ?_⟩
  cases path <;> exact bind_eq_ok.2 ⟨_, read, bind_eq_ok.2 ⟨_, readAbove, by rw [ok]; rfl⟩⟩

/-- Well-typed settings are loaded setting by setting. Each one has the value that the environment gives for it, or
else the file of variables, or else the document, or else its default; it stays as it is while these
layers give the same for it, and they do so whatever variables for other settings say. Inside a layer of
variables its own variable counts before all JSON, unless a variable for a group around it stands behind. -/
theorem load_by_setting (typed : WellTyped s asked doc) :
    ∃ settings, load s asked = .ok settings ∧ ∀ leaf ∈ leaves,
      leaf.Shows {} settings (s.given? doc leaf.way) ∧
      (∀ s' asked' doc', WellTyped s' asked' doc' → s'.given? doc' leaf.way = s.given? doc leaf.way →
        ∃ settings', load s' asked' = .ok settings' ∧ leaf.value settings' = leaf.value settings) ∧
      (∀ vars name d, ¬ Layer.Concerns (Text.lowerText name) leaf.way →
        Layer.variablesGive? (vars ++ [(name, d)]) leaf.way = Layer.variablesGive? vars leaf.way) ∧
      ∀ vars before after d d', Layer.lowered vars = before ++ (Layer.nameOf leaf.way, d) :: after →
        Layer.valueOf (Outline.ofSettings.follow leaf.way) (Layer.nameOf leaf.way) d = .ok d' →
        (∀ v ∈ after, ¬ Layer.Reaches v.1 leaf.way) → Layer.variablesGive? vars leaf.way = some d' := by
  obtain ⟨settings, ok, shows'⟩ := load_shows typed
  refine ⟨settings, ok, fun leaf hl => ⟨shows' leaf hl, fun s' asked' doc' typed' same => ?_,
    fun vars name d other => Layer.variablesGive?_append other vars d,
    fun vars before after d d' split read last => Layer.variablesGive?_of_last hl split read last⟩⟩
  obtain ⟨settings', ok', shows''⟩ := load_shows typed'
  exact ⟨settings', ok', (same ▸ shows'' leaf hl).unique (shows' leaf hl)⟩

/-- The chat id is given by every layer, and in the environment by its own variable and by JSON, which spells it in
another case. -/
theorem load_by_setting_chatId :
    let s : Surroundings := {
      files := [
        ("config.yaml",
          "\x7b\"channels\": \x7b\"telegram\": \x7b\"bot_token\": \"2:def\", \"chat_id\": \"6\"\x7d\x7d\x7d"),
        (".env", "NAGBOT_CHANNELS__TELEGRAM__CHAT_ID=7\n")]
      environment := [
        ("NAGBOT_CHANNELS__TELEGRAM__CHAT_ID", "5"),
        ("NAGBOT_CHANNELS", "\x7b\"telegram\": \x7b\"Chat_Id\": \"8\", \"Bot_Token\": \"1:abc\"\x7d\x7d")] }
    ∃ doc settings, WellTyped s none doc ∧ load s none = .ok settings ∧ settings.telegram.chatId = "5" ∧
      settings.telegram.botToken = "1:abc" := by
  intro s
  let doc : Layer.Members :=
    [("channels", .obj [("telegram", .obj [("bot_token", .str "2:def"), ("chat_id", .str "6")])])]
  have typed : WellTyped s none doc := by decide +kernel
  obtain ⟨settings, ok, all⟩ := load_by_setting typed
  have read (i : Nat) (hi : i < leaves.length) : leaves[i].Shows {} settings (s.given? doc leaves[i].way) :=
    (all leaves[i] (List.getElem_mem hi)).1
  have chatId : s.given? doc ["channels", "telegram", "chat_id"] = some (.str "5") := by decide +kernel
  have botToken : s.given? doc ["channels", "telegram", "bot_token"] = some (.str "1:abc") := by decide +kernel
  refine ⟨doc, settings, typed, ok, ?_, ?_⟩
  · exact (Except.ok.inj (chatId ▸ read 8 (by decide))).symm
  · exact (Except.ok.inj (botToken ▸ read 7 (by decide))).symm

/-- In the environment JSON for the group stands behind the variable for the chat id. The group is replaced, so
the chat id of the environment is lost and that of the file counts. -/
theorem load_group_behind :
    let s : Surroundings := {
      files := [(".env", "NAGBOT_CHANNELS__TELEGRAM__CHAT_ID=7\n")]
      environment := [
        ("NAGBOT_CHANNELS__TELEGRAM__CHAT_ID", "5"),
        ("nagbot_channels__telegram", "\x7b\"bot_token\": \"1:abc\"\x7d")] }
    WellTyped s none [] ∧ (load s none).toOption.map (·.telegram.chatId) = some "7" := by
  decide +kernel

end Settings

end ChoreReminder
