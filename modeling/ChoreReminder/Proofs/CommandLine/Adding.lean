import ChoreReminder.CommandLine.Run
import ChoreReminder.Proofs.CommandLine.Markup
import ChoreReminder.Proofs.Notify.Attempts
import ChoreReminder.Proofs.Run.Rules

/-! Chores that are added by a command. The chore is stored before it is told of, and what tells of it has the name of
the chore in its markup. So the exit code says whether a chore was stored for all names but those with which the
console cannot show the line; with such a name the command fails and the chore is there. -/

namespace ChoreReminder

namespace Shelf

variable {s : Shelf} {path : String}

theorem lookup_put (s : Shelf) (path other : String) (l : Ledger) :
    (s.put path l).ledgers.lookup other = if other = path then some l else s.ledgers.lookup other :=
  Registry.get?_register ⟨s.ledgers⟩ path other l

theorem fetch_put (s : Shelf) (path : String) (l : Ledger) : (s.put path l).fetch path = l := by
  rw [fetch, lookup_put, if_pos rfl]
  rfl

theorem fetch_put_same (s : Shelf) (path other : String) : (s.put path (s.fetch path)).fetch other = s.fetch other := by
  by_cases same : other = path
  · rw [same, fetch_put]
  · rw [fetch, lookup_put, if_neg same]
    rfl

end Shelf

namespace Ledger

theorem nextChoreId_plain (l : Ledger) : ∀ c ∈ l.nextChoreId.toList, c ≠ '[' ∧ c ≠ Markup.backslash := by
  have front : ∀ c ∈ "c0000000-0000-4000-8000-".toList, c ≠ '[' ∧ c ≠ Markup.backslash :=
    Text.forall_mem_of_all (by decide)
  intro c member
  rw [nextChoreId, rowId, String.toList_append] at member
  obtain member | member := List.mem_append.1 member
  · exact front c member
  · have digit : c.isDigit = true := Text.isDigit_of_mem_padded member
    exact ⟨fun opens => absurd (opens ▸ digit) (by decide), fun hides => absurd (hides ▸ digit) (by decide)⟩

end Ledger

namespace Command

variable {console : Console} {now : Instant} {s : Surroundings} {before after : Shelf} {wire : Wire}
  {id name path : String} {description : Option String} {schedule : Schedule}

/-! ### Exit codes -/

theorem exitCode_fail (console : Console) (text : String) : exitCode (Output.fail console text) = 1 := by
  rw [Output.fail]
  cases Output.say console ("[red]" ++ text ++ "[/red]") <;> rfl

theorem exitCode_say (console : Console) (text : String) :
    exitCode (Output.say console text) ≤ 1 ∧
      (exitCode (Output.say console text) = 0 ↔ ∃ t, console text = .ok t) := by
  rw [Output.say, ReportLine.ofMarkup]
  cases console text with
  | ok t => exact ⟨Nat.zero_le 1, fun _ => ⟨t, rfl⟩, fun _ => rfl⟩
  | error f => exact ⟨Nat.le_refl 1, nofun, nofun⟩

/-! ### Additions -/

/-- One chore more, of this id, name, description and schedule, stands in the database under a path. All other rows
and databases are as they were. -/
structure Added (path id name : String) (description : Option String) (schedule : Schedule) (before after : Shelf) :
    Prop where
  chore : ∃ r : ChoreRow, r.id = id ∧ r.name = name ∧ r.description = description ∧ r.schedule = .ok schedule ∧
    after.fetch path =
      { before.fetch path with
        chores := (before.fetch path).chores ++ [r]
        ids := { (before.fetch path).ids with chores := (before.fetch path).ids.chores + 1 } }
  others : ∀ other, other ≠ path → after.ledgers.lookup other = before.ledgers.lookup other

def Stored (s : Surroundings) (id name : String) (description : Option String) (chosen : Option Schedule)
    (before after : Shelf) : Prop :=
  ∃ settings schedule, Startup.openSettings s = .ok settings ∧ chosen = some schedule ∧
    Added settings.database id name description schedule before after

def Untouched (before after : Shelf) : Prop := ∀ path, after.fetch path = before.fetch path

theorem Added.touches (added : Added path id name description schedule before after) : ¬ Untouched before after := by
  obtain ⟨⟨r, -, -, -, -, rows⟩, -⟩ := added
  intro still
  have same : (before.fetch path).ids.chores = (before.fetch path).ids.chores + 1 :=
    congrArg (·.ids.chores) ((still path).symm.trans rows)
  omega

theorem Stored.touches {chosen : Option Schedule} (stored : Stored s id name description chosen before after) :
    ¬ Untouched before after := by
  obtain ⟨settings, schedule, -, -, added⟩ := stored
  exact added.touches

theorem Stored.id_unique {chosen : Option Schedule} {other : String}
    (stored : Stored s id name description chosen before after)
    (again : Stored s other name description chosen before after) : id = other := by
  obtain ⟨settings, -, opened, -, ⟨r, rfl, -, -, -, rows⟩, -⟩ := stored
  obtain ⟨settings', -, opened', -, ⟨r', rfl, -, -, -, rows'⟩, -⟩ := again
  obtain rfl := Except.ok.inj (opened.symm.trans opened')
  have same := congrArg (·.chores) (rows.symm.trans rows')
  rw [List.append_cancel_left_eq] at same
  exact congrArg (·.id) (List.cons.inj same).1

theorem added_put {chore : Chore} {l : Ledger}
    (done : (before.fetch path).createChore now name schedule description none = .ok (chore, l)) :
    Added path (before.fetch path).nextChoreId name description schedule before (before.put path l) := by
  obtain ⟨valid, created, -, -, rfl⟩ := Ledger.createChore_ok done
  let r := (before.fetch path).newChoreRow now name schedule description created
  have holds : r.Holds schedule created now := ⟨rfl, rfl, rfl⟩
  refine ⟨⟨r, rfl, rfl, rfl, holds.schedule valid, Shelf.fetch_put ..⟩, fun other differs => ?_⟩
  rw [Shelf.lookup_put, if_neg differs]

theorem addTo_cases (console : Console) (now : Instant) (name : String) (schedule : Schedule)
    (description : Option String) (b : Bench) :
    ∃ output, (∃ chore l, b.ledger.createChore now name schedule description none = .ok (chore, l) ∧
        addTo console now name schedule description b = (output, { b with ledger := l }) ∧
        exitCode output ≤ 1 ∧
        (exitCode output = 0 ↔ ∃ t, console (addedText b.ledger.nextChoreId name) = .ok t)) ∨
      (∃ f, b.ledger.createChore now name schedule description none = .error f) ∧
        addTo console now name schedule description b = (output, b) ∧ exitCode output = 1 := by
  cases done : b.ledger.createChore now name schedule description none with
  | ok r =>
    obtain ⟨chore, l⟩ := r
    have result : addTo console now name schedule description b =
        (Output.say console (addedText chore.id chore.name), { b with ledger := l }) := by
      simp only [addTo, done]
    have named : chore.id = b.ledger.nextChoreId ∧ chore.name = name := by
      rw [Ledger.createChore_chore done]
      exact ⟨rfl, rfl⟩
    rw [named.1, named.2] at result
    obtain ⟨low, told⟩ := exitCode_say console (addedText b.ledger.nextChoreId name)
    exact ⟨_, .inl ⟨chore, l, rfl, result, low, told⟩⟩
  | error f =>
    have failed : ∃ output,
        addTo console now name schedule description b = (output, b) ∧ exitCode output = 1 := by
      unfold addTo
      rw [done]
      split
      · next chore l added => cases added
      · exact ⟨_, rfl, rfl⟩
      · exact ⟨_, rfl, exitCode_fail _ _⟩
      · exact ⟨_, rfl, rfl⟩
    obtain ⟨output, result, code⟩ := failed
    exact ⟨output, .inr ⟨⟨f, rfl⟩, result, code⟩⟩

theorem withSettings_cases (console : Console) (s : Surroundings) (shelf : Shelf) (wire : Wire)
    (work : Settings → Bench → Except CommandFault Output × Bench) :
    (∃ output, withSettings console s shelf wire work = (output, shelf, wire) ∧ exitCode output = 1 ∧
      ∀ settings, Startup.openSettings s = .ok settings → Startup.isDirectory settings.database = true) ∨
    ∃ settings, Startup.openSettings s = .ok settings ∧ Startup.isDirectory settings.database = false ∧
      withSettings console s shelf wire work =
        let r := work settings ⟨shelf.fetch settings.database, wire⟩
        (r.1, shelf.put settings.database r.2.ledger, r.2.wire) := by
  unfold withSettings
  cases opened : Startup.openSettings s with
  | error f =>
    left
    cases f with
    | load f =>
      by_cases about : f.isAboutFile = true
      · refine ⟨Output.fail console f.message, ?_, exitCode_fail console f.message, by simp⟩
        simp only [about, if_true]
      · refine ⟨.error (.start (.load f)), ?_, rfl, by simp⟩
        simp only [about, if_false, Bool.false_eq_true]
    | _ => exact ⟨_, rfl, rfl, by simp⟩
  | ok settings =>
    cases directory : Startup.isDirectory settings.database with
    | true =>
      refine .inl ⟨.error (.start (.database settings.database)), ?_, rfl, ?_⟩
      · simp [Startup.openDatabase, directory]
      · intro other same
        exact Except.ok.inj same ▸ directory
    | false =>
      refine .inr ⟨settings, rfl, directory, ?_⟩
      simp [Startup.openDatabase, directory]

/-- A run of the command adds a chore to the database, or it fails and leaves every database alone. It fails so only
where there is no database, no single schedule is chosen, or the ledger refuses the chore. -/
theorem run_add_cases (console : Console) (now : Instant) (s : Surroundings) (shelf : Shelf) (wire : Wire)
    (name : String) (cron : Option String) (every hour minute : Option Int) (once : Bool)
    (description : Option String) :
    ∃ output after,
      run console now s shelf wire (.addChore name cron every hour minute once description) = (output, after, wire) ∧
      ((∃ id, (∀ c ∈ id.toList, c ≠ '[' ∧ c ≠ Markup.backslash) ∧
          Stored s id name description (chosenSchedule? cron every hour minute once) shelf after ∧
          exitCode output ≤ 1 ∧ (exitCode output = 0 ↔ ∃ text, console (addedText id name) = .ok text)) ∨
        Untouched shelf after ∧ exitCode output = 1 ∧
          ∀ settings schedule, Startup.openSettings s = .ok settings →
            Startup.isDirectory settings.database = false →
            chosenSchedule? cron every hour minute once = some schedule →
            ∃ f, (shelf.fetch settings.database).createChore now name schedule description none = .error f) := by
  rw [run]
  cases chosen : chosenSchedule? cron every hour minute once with
  | none =>
    refine ⟨_, _, rfl, .inr ⟨fun _ => rfl, exitCode_fail _ _, ?_⟩⟩
    simp
  | some schedule =>
    obtain ⟨output, ends, failed, nowhere⟩ | ⟨settings, opened, file, ends⟩ :=
      withSettings_cases console s shelf wire fun _ => addTo console now name schedule description
    · refine ⟨output, shelf, ends, .inr ⟨fun _ => rfl, failed, fun settings _ opened file _ => ?_⟩⟩
      rw [nowhere settings opened] at file
      cases file
    · obtain ⟨output, added | refused⟩ :=
        addTo_cases console now name schedule description ⟨shelf.fetch settings.database, wire⟩
      · obtain ⟨chore, l, done, result, low, told⟩ := added
        rw [result] at ends
        exact ⟨output, _, ends, .inl ⟨_, Ledger.nextChoreId_plain _,
          ⟨settings, schedule, opened, rfl, added_put done⟩, low, told⟩⟩
      · obtain ⟨⟨f, refused⟩, result, failed⟩ := refused
        rw [result] at ends
        refine ⟨output, _, ends, .inr ⟨Shelf.fetch_put_same shelf settings.database, failed, ?_⟩⟩
        intro other schedule' opened' _ same
        obtain rfl := Except.ok.inj (opened.symm.trans opened')
        obtain rfl := Option.some.inj same
        exact ⟨f, refused⟩

/-- Whatever the console is, the chore is stored, or no database is touched. The exit code is 0 exactly if the chore
is stored and the console shows the line that tells of it; otherwise it is 1, even where the chore is stored. With a
console that holds to the rule of closing tags, a name that closes more than it opens has the exit code 1. An
accepted schedule is stored, provided that the settings lead to a sound database. -/
theorem add_exit_code (console : Console) (now : Instant) (s : Surroundings) (shelf : Shelf) (wire : Wire)
    (name : String) (cron : Option String) (every hour minute : Option Int) (once : Bool)
    (description : Option String) :
    let result := run console now s shelf wire (.addChore name cron every hour minute once description)
    let storedAs (id : String) :=
      Stored s id name description (chosenSchedule? cron every hour minute once) shelf result.2.1
    ((∃ id, storedAs id) ↔ ¬ Untouched shelf result.2.1) ∧
      (exitCode result.1 = 0 ↔ ∃ id, storedAs id ∧ ∃ text, console (addedText id name) = .ok text) ∧
      exitCode result.1 ≤ 1 ∧ result.2.2 = wire ∧
      (console.Strict → Markup.Overclosed (Markup.tags name.toList) → exitCode result.1 = 1) ∧
      ∀ settings schedule, Startup.openSettings s = .ok settings →
        Startup.isDirectory settings.database = false →
        chosenSchedule? cron every hour minute once = some schedule → schedule.validate (.utc now) = .ok () →
        (shelf.fetch settings.database).Sound → ∃ id, storedAs id := by
  obtain ⟨output, after, ends, ⟨id, plain, stored, low, told⟩ | ⟨still, failed, refused⟩⟩ :=
    run_add_cases console now s shelf wire name cron every hour minute once description
  · rw [ends]
    refine ⟨⟨fun _ => stored.touches, fun _ => ⟨id, stored⟩⟩, ⟨fun done => ⟨id, stored, told.1 done⟩, ?_⟩, low, rfl,
      ?_, fun _ _ _ _ _ _ _ => ⟨id, stored⟩⟩
    · rintro ⟨other, again, shown⟩
      exact told.2 (stored.id_unique again ▸ shown)
    · intro strict unmatched
      obtain ⟨f, unshown⟩ := strict _ (Markup.overclosed_added plain unmatched)
      have unequal : exitCode output ≠ 0 := by
        intro done
        obtain ⟨text, shown⟩ := told.1 done
        rw [unshown] at shown
        cases shown
      show exitCode output = 1
      change exitCode output ≤ 1 at low
      omega
  · rw [ends]
    refine ⟨⟨fun ⟨_, stored⟩ => stored.touches, fun touched => absurd still touched⟩,
      ⟨fun done => absurd (done.symm.trans failed) (by decide), fun ⟨_, stored, _⟩ => absurd still stored.touches⟩,
      failed.le, rfl, fun _ _ => failed, ?_⟩
    intro settings schedule opened file chosen valid sound
    obtain ⟨f, refused⟩ := refused settings schedule opened file chosen
    obtain ⟨r, done⟩ | ⟨beyond, -⟩ := sound.createChore_accepted valid name description none
    · rw [done] at refused
      cases refused
    · rw [Option.getD_none, Stamp.instant?_utc] at beyond
      cases beyond

/-- A name whose style is closed again can be shown; one that closes a style of its own accord is stored too, and the
command fails. -/
theorem add_exit_code_names :
    let shelf : Shelf := ⟨[], ⟨0, 0, 0, 0⟩⟩
    let add (name : String) := run Markup.render ⟨0, by decide⟩ ⟨[], []⟩ shelf ⟨[], []⟩
      (.addChore name none (some 3) (some 8) none false none)
    let storedAs (name id : String) :=
      Stored ⟨[], []⟩ id name none (some (.interval 3 (some 8) none)) shelf (add name).2.1
    (exitCode (add "Plants [bold]upstairs[/]").1 = 0 ∧ ∃ id, storedAs "Plants [bold]upstairs[/]" id) ∧
      Console.Strict Markup.render ∧ Markup.Overclosed (Markup.tags "Plants [/green]".toList) ∧
      exitCode (add "Plants [/green]").1 = 1 ∧ ∃ id, storedAs "Plants [/green]" id := by
  intro shelf add storedAs
  have code : exitCode (add "Plants [bold]upstairs[/]").1 = 0 := by decide +kernel
  obtain ⟨-, told, -⟩ := add_exit_code Markup.render ⟨0, by decide⟩ ⟨[], []⟩ shelf ⟨[], []⟩ "Plants [bold]upstairs[/]"
    none (some 3) (some 8) none false none
  obtain ⟨-, -, -, -, fails, kept⟩ := add_exit_code Markup.render ⟨0, by decide⟩ ⟨[], []⟩ shelf ⟨[], []⟩
    "Plants [/green]" none (some 3) (some 8) none false none
  have unmatched : Markup.Overclosed (Markup.tags "Plants [/green]".toList) :=
    ⟨[], "/green".toList, [], by decide +kernel, by decide, Nat.le_refl 0⟩
  obtain ⟨id, shown, -⟩ := told.1 code
  cases opened : Startup.openSettings ⟨[], []⟩ with
  | error f =>
    have place : (Startup.openSettings ⟨[], []⟩).toOption.isSome = true := by decide +kernel
    rw [opened] at place
    cases place
  | ok settings =>
    have place : (Startup.openSettings ⟨[], []⟩).toOption.map (·.database) = some "data/nagbot.db" := by decide +kernel
    rw [opened] at place
    obtain named : settings.database = "data/nagbot.db" := Option.some.inj place
    have sound : (shelf.fetch settings.database).Sound := named ▸ Ledger.sound_empty
    exact ⟨⟨code, id, shown⟩, Markup.render_strict, unmatched, fails Markup.render_strict unmatched,
      kept settings (.interval 3 (some 8) none) opened (named ▸ by decide) rfl (by decide) sound⟩

/-- The name closes a style that is not open, so the command fails when the chore is stored already. -/
theorem add_unshown_name :
    ¬ ∀ (now : Instant) (s : Surroundings) (shelf : Shelf) (wire : Wire) (name : String) (cron : Option String)
        (every hour minute : Option Int) (once : Bool) (description : Option String),
      let result := run Markup.render now s shelf wire (.addChore name cron every hour minute once description)
      exitCode result.1 ≠ 0 → Untouched shelf result.2.1 := by
  intro always
  let now : Instant := ⟨0, by decide⟩
  let shelf : Shelf := ⟨[], ⟨0, 0, 0, 0⟩⟩
  let result := run Markup.render now ⟨[], []⟩ shelf ⟨[], []⟩
    (.addChore "Plants [/green]" none none none none true none)
  have failed : exitCode result.1 ≠ 0 := by decide +kernel
  have stored : (result.2.1.fetch "data/nagbot.db").chores.map (·.name) = ["Plants [/green]"] := by decide +kernel
  have still : Untouched shelf result.2.1 :=
    always now ⟨[], []⟩ shelf ⟨[], []⟩ "Plants [/green]" none none none none true none failed
  rw [still] at stored
  cases stored

end Command

end ChoreReminder
