import ChoreReminder.Proofs.Datum.Members
import ChoreReminder.Proofs.Outcome
import ChoreReminder.Settings.Basic

/-! Single settings. Each has its way in a document, its own reader, and its place in the settings; a document
whose sections are objects and whose values can be read is read as a whole, each setting from the value at
the end of its way, or from its default where the way leads nowhere. -/

namespace ChoreReminder

/-- A single setting of a record, or of a record inside it. -/
structure Leaf (α : Type) where
  way : List String
  Value : Type
  read : Datum → Reading Value
  value : α → Value

namespace Leaf

variable {α β : Type}

def inside (name : String) (part : β → α) (leaf : Leaf α) : Leaf β :=
  ⟨name :: leaf.way, leaf.Value, leaf.read, leaf.value ∘ part⟩

/-- The setting is what is given for it, or as in the base if nothing is given. -/
def Shows (leaf : Leaf α) (base x : α) : Option Datum → Prop
  | some d => leaf.read d = .ok (leaf.value x)
  | none => leaf.value x = leaf.value base

theorem inside_shows (name : String) (part : β → α) (leaf : Leaf α) (base x : β) (given : Option Datum) :
    (leaf.inside name part).Shows base x given ↔ leaf.Shows (part base) (part x) given := by
  cases given <;> rfl

theorem Shows.unique {leaf : Leaf α} {base x y : α} {given : Option Datum} (hx : leaf.Shows base x given)
    (hy : leaf.Shows base y given) : leaf.value x = leaf.value y := by
  cases given with
  | none => exact hx.trans hy.symm
  | some d => exact Except.ok.inj (hx.symm.trans hy)

def Readable (leaf : Leaf α) (given : Option Datum) : Prop := ∀ d ∈ given, ∃ a, leaf.read d = .ok a

instance (leaf : Leaf α) (given : Option Datum) : Decidable (leaf.Readable given) :=
  decidable_of_iff (∀ d ∈ given, (leaf.read d).toOption.isSome = true)
    (forall_congr' fun _ => imp_congr_right fun _ => isSome_toOption)

end Leaf

def ReadsLeaves {α : Type} (leaves : List (Leaf α)) (read : Datum → Reading α) (base : α) (d : Datum) : Prop :=
  (∀ leaf ∈ leaves, leaf.Readable (d.at? leaf.way)) →
    ∃ x, read d = .ok x ∧ ∀ leaf ∈ leaves, leaf.Shows base x (d.at? leaf.way)

def NotificationSettings.leaves : List (Leaf NotificationSettings) := [
  ⟨["enabled"], Bool, Datum.toBool, (·.enabled)⟩,
  ⟨["poll_interval_s"], Int, Datum.toIntFrom 1, (·.pollInterval)⟩,
  ⟨["dispatch_interval_s"], Int, Datum.toIntFrom 1, (·.dispatchInterval)⟩,
  ⟨["max_attempts"], Int, Datum.toIntFrom 1, (·.maxAttempts)⟩,
  ⟨["batch_size"], Int, Datum.toIntFrom 1, (·.batchSize)⟩,
  ⟨["channels"], List String, Datum.toStrings, (·.channels)⟩]

def TelegramSettings.leaves : List (Leaf TelegramSettings) := [
  ⟨["enabled"], Bool, Datum.toBool, (·.enabled)⟩,
  ⟨["bot_token"], String, Datum.toStr, (·.botToken)⟩,
  ⟨["chat_id"], String, readChatId, (·.chatId)⟩,
  ⟨["callback_mode"], CallbackMode, CallbackMode.ofDatum, (·.callbackMode)⟩,
  ⟨["webhook_secret"], String, Datum.toStr, (·.webhookSecret)⟩,
  ⟨["poll_timeout_s"], Int, Datum.toIntFrom 0, (·.pollTimeout)⟩,
  ⟨["request_timeout_s"], Binary64, readTimeout, (·.requestTimeout)⟩]

def LoggingSettings.leaves : List (Leaf LoggingSettings) := [
  ⟨["level"], String, Datum.toStr, (·.level)⟩,
  ⟨["json_logs"], Bool, Datum.toBool, (·.jsonLogs)⟩]

def Settings.leaves : List (Leaf Settings) :=
  NotificationSettings.leaves.map (.inside "notifications" (·.notifications)) ++
  TelegramSettings.leaves.map (.inside "channels" (·.telegram) ∘ .inside "telegram" id) ++
  [⟨["database", "path"], String, Datum.toStr, (·.databasePath)⟩] ++
  LoggingSettings.leaves.map (.inside "logging" (·.logging))

namespace Datum

variable {α : Type}

theorem at?_single (d : Datum) (name : String) : d.at? [name] = d.get? name := by
  rw [at?]
  cases d.get? name <;> rfl

theorem optionalField_shows (leaf : Leaf α) {name : String} (way : leaf.way = [name]) (base : α) {d : Datum}
    (readable : leaf.Readable (d.at? leaf.way)) :
    ∃ a, d.optionalField name leaf.read (leaf.value base) = .ok a ∧
      ∀ x, leaf.value x = a → leaf.Shows base x (d.at? leaf.way) := by
  rw [way, at?_single] at readable ⊢
  rw [optionalField]
  cases found : d.get? name with
  | none => exact ⟨_, rfl, fun _ same => same⟩
  | some v =>
    obtain ⟨a, read⟩ := readable v found
    refine ⟨a, ?_, fun x same => read.trans (congrArg Except.ok same.symm)⟩
    change Reading.under name (leaf.read v) = .ok a
    rw [read]
    rfl

end Datum

theorem NotificationSettings.ofDatum_reads (d : Datum) : ReadsLeaves leaves ofDatum {} d := by
  intro readable
  simp only [leaves, List.forall_mem_cons] at readable ⊢
  obtain ⟨enabled, poll, dispatch, attempts, batch, channels, -⟩ := readable
  obtain ⟨enabled, readEnabled, showEnabled⟩ := Datum.optionalField_shows _ rfl {} enabled
  obtain ⟨poll, readPoll, showPoll⟩ := Datum.optionalField_shows _ rfl {} poll
  obtain ⟨dispatch, readDispatch, showDispatch⟩ := Datum.optionalField_shows _ rfl {} dispatch
  obtain ⟨attempts, readAttempts, showAttempts⟩ := Datum.optionalField_shows _ rfl {} attempts
  obtain ⟨batch, readBatch, showBatch⟩ := Datum.optionalField_shows _ rfl {} batch
  obtain ⟨channels, readChannels, showChannels⟩ := Datum.optionalField_shows _ rfl {} channels
  refine ⟨⟨enabled, poll, dispatch, attempts, batch, channels⟩, ?_, showEnabled _ rfl, showPoll _ rfl,
    showDispatch _ rfl, showAttempts _ rfl, showBatch _ rfl, showChannels _ rfl, fun _ none => nomatch none⟩
  simp only [ofDatum, readEnabled, readPoll, readDispatch, readAttempts, readBatch, readChannels]
  rfl

theorem TelegramSettings.ofDatum_reads (d : Datum) : ReadsLeaves leaves ofDatum {} d := by
  intro readable
  simp only [leaves, List.forall_mem_cons] at readable ⊢
  obtain ⟨enabled, token, chat, mode, secret, poll, request, -⟩ := readable
  obtain ⟨enabled, readEnabled, showEnabled⟩ := Datum.optionalField_shows _ rfl {} enabled
  obtain ⟨token, readToken, showToken⟩ := Datum.optionalField_shows _ rfl {} token
  obtain ⟨chat, readChat, showChat⟩ := Datum.optionalField_shows _ rfl {} chat
  obtain ⟨mode, readMode, showMode⟩ := Datum.optionalField_shows _ rfl {} mode
  obtain ⟨secret, readSecret, showSecret⟩ := Datum.optionalField_shows _ rfl {} secret
  obtain ⟨poll, readPoll, showPoll⟩ := Datum.optionalField_shows _ rfl {} poll
  obtain ⟨request, readRequest, showRequest⟩ := Datum.optionalField_shows _ rfl {} request
  refine ⟨⟨enabled, token, chat, mode, secret, poll, request⟩, ?_, showEnabled _ rfl, showToken _ rfl,
    showChat _ rfl, showMode _ rfl, showSecret _ rfl, showPoll _ rfl, showRequest _ rfl,
    fun _ none => nomatch none⟩
  simp only [ofDatum, readEnabled, readToken, readChat, readMode, readSecret, readPoll, readRequest]
  rfl

theorem LoggingSettings.ofDatum_reads (d : Datum) : ReadsLeaves leaves ofDatum {} d := by
  intro readable
  simp only [leaves, List.forall_mem_cons] at readable ⊢
  obtain ⟨level, json, -⟩ := readable
  obtain ⟨level, readLevel, showLevel⟩ := Datum.optionalField_shows _ rfl {} level
  obtain ⟨json, readJson, showJson⟩ := Datum.optionalField_shows _ rfl {} json
  refine ⟨⟨level, json⟩, ?_, showLevel _ rfl, showJson _ rfl, fun _ none => nomatch none⟩
  simp only [ofDatum, readLevel, readJson]
  rfl

theorem Datum.optionalSection_reads {α : Type} {leaves : List (Leaf α)} {read : Datum → Reading α} {base : α}
    {d : Datum} {name : String} (reads : ∀ v, d.get? name = some v → ReadsLeaves leaves read base v)
    (object : ∀ v, d.get? name = some v → ∃ ms, v = .obj ms) :
    ReadsLeaves (leaves.map (.inside name id)) (·.optionalField name (toSection read) base) base d := by
  intro readable
  rw [List.forall_mem_map] at readable
  simp only [List.forall_mem_map]
  rw [optionalField]
  cases found : d.get? name with
  | none =>
    refine ⟨base, rfl, fun leaf _ => ?_⟩
    rw [Leaf.inside, at?, found]
    rfl
  | some v =>
    obtain ⟨ms, rfl⟩ := object v found
    have inner (leaf : Leaf α) : d.at? (leaf.inside name (id : α → α)).way = (obj ms).at? leaf.way := by
      rw [Leaf.inside, at?, found]
      rfl
    obtain ⟨x, ok, shows'⟩ := reads _ found fun leaf hl => inner leaf ▸ readable leaf hl
    refine ⟨x, ?_, fun leaf hl => inner leaf ▸ shows' leaf hl⟩
    change Reading.under name (read (.obj ms)) = .ok x
    rw [ok]
    rfl

namespace Settings

def sections : List (List String) :=
  [["notifications"], ["channels"], ["channels", "telegram"], ["database"], ["logging"]]

theorem ofDatum_reads {d : Datum} (objects : ∀ way ∈ sections, ∀ v, d.at? way = some v → ∃ ms, v = .obj ms) :
    ReadsLeaves leaves ofDatum {} d := by
  intro readable
  simp only [leaves, List.forall_mem_append, List.forall_mem_map, List.forall_mem_singleton] at readable ⊢
  simp only [sections, List.forall_mem_cons, Datum.at?_single] at objects
  obtain ⟨⟨⟨notifications, telegram⟩, database⟩, logging⟩ := readable
  obtain ⟨objN, objC, objT, objD, objL, -⟩ := objects
  have objT' (v : Datum) (found : d.get? "channels" = some v) (w : Datum) (inner : v.get? "telegram" = some w) :
      ∃ ms, w = .obj ms := by
    refine objT w ?_
    rw [Datum.at?, found, Option.bind_some, Datum.at?_single]
    exact inner
  obtain ⟨n, readN, showN⟩ := Datum.optionalSection_reads
    (fun v _ => NotificationSettings.ofDatum_reads v) objN (List.forall_mem_map.2 notifications)
  obtain ⟨t, readT, showT⟩ := Datum.optionalSection_reads (fun v found =>
    Datum.optionalSection_reads (fun w _ => TelegramSettings.ofDatum_reads w) (objT' v found)) objC
    (List.forall_mem_map.2 (List.forall_mem_map.2 telegram))
  let path : Leaf String := ⟨["path"], String, Datum.toStr, id⟩
  have pathReads (v : Datum) : ReadsLeaves [path] (·.optionalField "path" Datum.toStr "data/nagbot.db")
      "data/nagbot.db" v := by
    intro readable
    obtain ⟨p, ok, shows'⟩ := Datum.optionalField_shows path rfl _ (readable path (List.mem_singleton_self _))
    exact ⟨p, ok, List.forall_mem_singleton.2 (shows' p rfl)⟩
  obtain ⟨p, readP, showP⟩ := Datum.optionalSection_reads (fun v _ => pathReads v) objD
    (List.forall_mem_map.2 (List.forall_mem_singleton.2 database))
  obtain ⟨l, readL, showL⟩ := Datum.optionalSection_reads
    (fun v _ => LoggingSettings.ofDatum_reads v) objL (List.forall_mem_map.2 logging)
  simp only [List.forall_mem_map, List.forall_mem_singleton, Leaf.inside_shows] at showN showT showP showL
  refine ⟨⟨n, t, p, l⟩, ?_, ⟨⟨?_, ?_⟩, ?_⟩, ?_⟩
  · simp only [ofDatum, readN, readT, readP, readL]
    rfl
  · exact fun leaf hl => (leaf.inside_shows ..).2 (showN leaf hl)
  · exact fun leaf hl => (Leaf.inside_shows ..).2 ((leaf.inside_shows ..).2 (showT leaf hl))
  · exact (path.inside_shows "database" Settings.databasePath {} ⟨n, t, p, l⟩ _).2 showP
  · exact fun leaf hl => (leaf.inside_shows ..).2 (showL leaf hl)

end Settings

end ChoreReminder
