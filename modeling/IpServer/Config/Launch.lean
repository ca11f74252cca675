import IpServer.Config.Writing
import IpServer.Library.Machine

/-!
# Launching the program again and again

`main` computes the configuration, sets up logging, and saves the configuration if its file does
not exist, before it runs the application. The files stay when the program ends, and the next
launch finds them; in between, others may write or remove them (`fileStep`). Different texts are
taken as naming different files.

Two libraries use files of their own (`Launch.usedFiles`): the one for logging creates the log
file, appends to it and renames its backups, and SQLite puts two files beside the OUI database.
What they make of them is left open; all else stays as it is.

* `Store.changed_run`: apart from these the program writes nothing but its configuration file, and
  this only if it is not there, or empty, or cannot be read.
* `Launch.relaunch`: the first launch saves its own configuration if there is no file, so that what
  its command line gave stays; and the defaults, without it, if there is an empty file. In both
  cases a launch with the same command line has the same configuration, unless a launch in between
  has used the file.
-/

namespace IpServer

open ConfigParser

/-- What the files hold, where there is one. -/
abbrev Store := String → Option String

/-- The files of a list, and no others, are made what they are made. -/
def Store.within (files : List String) (effect : Store → Store) (store : Store) : Store :=
  fun path => if path ∈ files then effect store path else store path

/-- A launch of the program: its command line, as the option parser delivers it, what it finds
    apart from the contents of the files, and what is made of the files that it uses. -/
structure Launch where
  options : Except String ParseResult
  homeVariable : Option String := some "/home/user"
  userDirectory : Option String := none
  /-- what looking for a path throws, if it does -/
  hidden : String → Option Exn := fun _ => none
  /-- what is there beside the files -/
  otherPaths : String → Bool := fun _ => false
  readable : String → Bool := fun _ => true
  opensForWriting : String → Bool := fun _ => true
  accepts : String → Option ℕ := fun _ => none
  /-- `init_logging`, which may throw -/
  initLogging : ServerConfig → Except Exn Unit := fun _ => .ok ()
  /-- the directories that `init_logging` and `ensure_directories` create -/
  created : String → Bool := fun _ => false
  /-- the name of a backup of a log file, by its number -/
  backup : String → ℕ → String := fun file n => file ++ "." ++ toString n
  /-- what `init_logging` makes of the log files -/
  opensLogs : Store → Store := id
  /-- what is made of the files that are used, from then on to the end of the program -/
  uses : Store → Store := id

namespace Launch

variable (lib : JsonLibrary) (l : Launch) (store : Store)

/-- The surroundings in which the configuration is computed. -/
def environment : Environment where
  homeVariable := l.homeVariable
  userDirectory := l.userDirectory
  pathExists path :=
    match l.hidden path with
    | some e => .error e
    | none => .ok ((store path).isSome || l.otherPaths path)
  file path := ⟨store path, l.readable path, l.opensForWriting path, l.accepts path⟩

/-- The files after `save_to_file`. -/
def save (config : ServerConfig) (path : String) : Store :=
  Function.update store path (saveToFile lib config ((l.environment store).file path)).2.content

/-- There is an empty configuration file, or one that cannot be read. -/
def FindsEmpty (result : ParseResult) : Prop :=
  Consulted (l.environment store) result ∧
    ((l.environment store).file (configPath (l.environment store) result)).read?.getD "" = ""

instance (result : ParseResult) : Decidable (l.FindsEmpty store result) :=
  inferInstanceAs (Decidable (_ ∧ _))

/-- The files after `parse`: `handle_config_file` saves the defaults to an empty file. -/
def parsed : Store :=
  match l.options with
  | .error _ => store
  | .ok result =>
    if result.help = false ∧ l.FindsEmpty store result then
      let path := configPath (l.environment store) result
      l.save lib store (initialConfig (l.environment store) path) path
    else store

/-- The files that the sinks of `init_logging` write: the log file, and its backups if it is
    rotated. -/
def logFiles (config : ServerConfig) : List String :=
  if config.enableFileLogging then
    config.logFilePath ::
      if config.logRotationType = "size" then
        (List.range config.logMaxBackupFiles.toNat).map fun n =>
          l.backup config.logFilePath (n + 1)
      else []
  else []

/-- The files that the libraries write while the program runs: those of the log, and what SQLite
    puts beside the OUI database, which is opened for reading but asked for a write-ahead log. -/
def usedFiles (config : ServerConfig) : List String :=
  l.logFiles config ++ [config.ouiDbPath ++ "-wal", config.ouiDbPath ++ "-shm"]

/-- The default configuration file is created, if there is none: what looking for it throws, and
    the files afterwards. -/
def createFile (config : ServerConfig) : Except Exn Unit × Store :=
  if config.configFile = "" ∨ l.created config.configFile then (.ok (), store)
  else
    match (l.environment store).pathExists config.configFile with
    | .error e => (.error e, store)
    | .ok true => (.ok (), store)
    | .ok false => (.ok (), l.save lib store config config.configFile)

/-- `main`: the configuration that it runs the application with, unless it only prints its help,
    and the files when it has ended. -/
def main : Except Exn (Option ServerConfig) × Store :=
  match parse lib (l.environment store) l.options with
  | .error e => (.error e, l.parsed lib store)
  | .ok none => (.ok none, l.parsed lib store)
  | .ok (some config) =>
    let logging := (l.parsed lib store).within (l.logFiles config) l.opensLogs
    match l.initLogging config with
    | .error e => (.error e, logging)
    | .ok () =>
      let created := l.createFile lib logging config
      (created.1.map fun _ => some config, created.2.within (l.usedFiles config) l.uses)

/-- A file is one of those that the launch uses. -/
def Uses (path : String) : Prop :=
  ∃ config, parse lib (l.environment store) l.options = .ok (some config) ∧
    path ∈ l.usedFiles config

end Launch

/-- What happens to the files. -/
inductive FileStep
  | launch (l : Launch)
  /-- someone else writes or removes a file -/
  | edit (path : String) (content : Option String)

/-- A step: what `main` would run the application with, and the files. -/
def fileStep (lib : JsonLibrary) : Machine Store FileStep (Except Exn (Option ServerConfig))
  | store, .launch l => l.main lib store
  | store, .edit path content => (.ok none, Function.update store path content)

theorem fileStep_launch (lib : JsonLibrary) (store : Store) (l : Launch) :
    (fileStep lib store (.launch l)).2 = (l.main lib store).2 := rfl

/-- A step by which nobody else touches the file, and which may read it. -/
def FileStep.Spares (lib : JsonLibrary) (store : Store) (path : String) : FileStep → Prop
  | .launch l => l.readable path = true ∧ ¬l.Uses lib store path
  | .edit path' _ => path' ≠ path

namespace ConfigParser

variable {lib : JsonLibrary} {env : Environment} {result : ParseResult} {config : ServerConfig}

theorem baseConfig_of_consulted {env : Environment} (h : Consulted env result) :
    baseConfig lib env result = .ok (handleConfigFile lib env (configPath env result)) := by
  obtain ⟨hnamed, hthere⟩ := h
  have hexists : env.pathExists (configPath env result) = .ok true := toOption_eq_some.1 hthere
  rw [configPath] at hnamed hexists ⊢
  have hdefault : (applyDefaultPaths env {}).configFile = Paths.configFile env := rfl
  rw [baseConfig]
  simp only [hdefault, if_neg hnamed, hexists]
  rfl

/-- Where there is no file, the defaults are the base. -/
theorem baseConfig_of_not_consulted {env : Environment} (hnamed : configPath env result ≠ "")
    (h : ¬Consulted env result) {base : ServerConfig}
    (hbase : baseConfig lib env result = .ok base) :
    env.pathExists (configPath env result) = .ok false ∧
      base = initialConfig env (configPath env result) := by
  have hdefault : (applyDefaultPaths env {}).configFile = Paths.configFile env := rfl
  have hnamed' : result.config.getD (Paths.configFile env) ≠ "" := hnamed
  rw [baseConfig] at hbase
  simp only [hdefault, if_neg hnamed'] at hbase
  obtain ⟨found, hfound, hbase⟩ := bind_eq_ok.1 hbase
  cases found with
  | true => exact absurd ⟨hnamed, toOption_eq_some.2 hfound⟩ h
  | false => exact ⟨hfound, (pure_eq_ok.1 hbase).symm⟩

theorem help_of_parse (h : parse lib env (.ok result) = .ok (some config)) :
    result.help = false := by
  rw [parse] at h
  by_contra hhelp
  rw [Bool.not_eq_false] at hhelp
  simp only [hhelp, if_true] at h
  cases h

/-- The path of a configuration file is not kept when it has been loaded. -/
theorem configFile_handleConfigFile (env : Environment) (path : String) :
    (handleConfigFile lib env path).configFile = "" ∨
      (handleConfigFile lib env path).configFile = path := by
  rw [handleConfigFile]
  split
  · dsimp only
    split
    · exact .inr rfl
    · exact .inl rfl
  · rw [loadFromFile]
    split
    · next hload =>
      left
      split at hload
      · cases hload
      · split at hload
        · cases hload
        · exact configFile_fromJson hload
    · exact .inl rfl

theorem configFile_of_parse (h : parse lib env (.ok result) = .ok (some config)) :
    config.configFile = "" ∨ config.configFile = configPath env result := by
  obtain ⟨base, hbase, rfl⟩ := parse_eq_ok h
  have hfile : (applyCliOverrides result base).configFile = base.configFile := rfl
  rw [hfile]
  by_cases hnamed : configPath env result = ""
  · rw [configPath] at hnamed
    have hdefault : (applyDefaultPaths env {}).configFile = Paths.configFile env := rfl
    rw [baseConfig] at hbase
    simp only [hdefault, if_pos hnamed] at hbase
    obtain rfl := pure_eq_ok.1 hbase
    exact .inl hnamed
  · by_cases hconsulted : Consulted env result
    · rw [baseConfig_of_consulted hconsulted] at hbase
      obtain rfl := Except.ok.inj hbase
      exact configFile_handleConfigFile env _
    · obtain ⟨-, rfl⟩ := baseConfig_of_not_consulted hnamed hconsulted hbase
      exact .inr rfl

end ConfigParser

namespace Launch

variable {lib : JsonLibrary} {l : Launch} {store : Store} {path : String}
  {config : ServerConfig} {result : ParseResult}

theorem read?_file (h : l.readable path = true) :
    ((l.environment store).file path).read? = store path :=
  read?_of_readable h

theorem within_of_notMem {files : List String} {effect : Store → Store} (h : path ∉ files) :
    store.within files effect path = store path :=
  if_neg h

/-- The log files are among those that are used. -/
theorem notMem_logFiles (h : path ∉ l.usedFiles config) : path ∉ l.logFiles config :=
  fun hlog => h (List.mem_append_left _ hlog)

theorem save_of_ne (config : ServerConfig) {other : String} (h : other ≠ path) :
    l.save lib store config path other = store other :=
  Function.update_of_ne h _ _

/-- What saving changes. -/
theorem save_changes {config : ServerConfig} {other : String}
    (h : l.save lib store config path other ≠ store other) :
    other = path ∧ l.opensForWriting path = true := by
  obtain rfl : other = path := by
    by_contra hne
    exact h (save_of_ne config hne)
  refine ⟨rfl, ?_⟩
  by_contra hclosed
  rw [Bool.not_eq_true] at hclosed
  rw [save, saveToFile_of_closed hclosed] at h
  exact h (Function.update_self _ _ _)

theorem parsed_of_ok (h : l.options = .ok result) : l.parsed lib store =
    if result.help = false ∧ l.FindsEmpty store result then
      let path := configPath (l.environment store) result
      l.save lib store (initialConfig (l.environment store) path) path
    else store := by
  rw [parsed, h]

/-- A launch that may write to a file: it is its configuration file, and it is not there, or empty,
    or cannot be read. -/
structure MayWrite (l : Launch) (store : Store) (path : String) : Prop where
  named : path ≠ ""
  opens : l.opensForWriting path = true
  empty : l.readable path = true → (store path).getD "" = ""
  isConfigFile : ∃ result, l.options = .ok result ∧ result.help = false ∧
    configPath (l.environment store) result = path

/-- `parse` saves the defaults. -/
theorem parsed_changes (h : l.parsed lib store path ≠ store path) : l.MayWrite store path := by
  rcases hoptions : l.options with what | result
  · rw [parsed, hoptions] at h
    exact absurd rfl h
  · rw [parsed_of_ok hoptions] at h
    split at h
    · next hempty =>
      obtain ⟨rfl, hopens⟩ := save_changes h
      refine ⟨hempty.2.1.1, hopens, fun hread => ?_, result, hoptions, hempty.1, rfl⟩
      have hcontent := hempty.2.2
      rwa [read?_file hread] at hcontent
    · exact absurd rfl h

theorem pathExists_congr {store' : Store} (h : store' path = store path) :
    (l.environment store').pathExists path = (l.environment store).pathExists path := by
  simp only [environment, h]

theorem save_congr {store' : Store} (h : store' path = store path) :
    l.save lib store' config path path = l.save lib store config path path := by
  rw [save, save, Function.update_self, Function.update_self]
  simp only [environment, h]

/-- The default configuration file is created only where there is none. -/
theorem createFile_changes (h : (l.createFile lib store config).2 path ≠ store path) :
    config.configFile = path ∧ path ≠ "" ∧ l.opensForWriting path = true ∧ store path = none := by
  rw [createFile] at h
  split at h
  · exact absurd rfl h
  · next hskip =>
    split at h
    · exact absurd rfl h
    · exact absurd rfl h
    · next hmissing =>
      obtain ⟨rfl, hopens⟩ := save_changes h
      refine ⟨rfl, (not_or.1 hskip).1, hopens, ?_⟩
      simp only [environment] at hmissing
      split at hmissing
      · cases hmissing
      · have hnone := (Bool.or_eq_false_iff.1 (Except.ok.inj hmissing)).1
        rwa [Option.isSome_eq_false_iff, Option.isNone_iff_eq_none] at hnone

/-- The files after a launch that has a configuration, apart from those that it uses. -/
theorem main_snd (hparse : parse lib (l.environment store) l.options = .ok (some config))
    (h : path ∉ l.usedFiles config) : (l.main lib store).2 path = l.parsed lib store path ∨
      (l.main lib store).2 path = (l.createFile lib
        ((l.parsed lib store).within (l.logFiles config) l.opensLogs) config).2 path := by
  rw [main, hparse]
  dsimp only
  cases l.initLogging config with
  | error e => exact .inl (within_of_notMem (notMem_logFiles h))
  | ok u => exact .inr (within_of_notMem h)

/-- What a launch writes to, apart from the files that it uses. -/
theorem main_changes (h : (l.main lib store).2 path ≠ store path) :
    l.MayWrite store path ∨ l.Uses lib store path := by
  by_cases hparsed : l.parsed lib store path = store path
  · rcases hparse : parse lib (l.environment store) l.options with e | _ | config
    · rw [main, hparse] at h
      exact absurd hparsed h
    · rw [main, hparse] at h
      exact absurd hparsed h
    · by_cases hused : path ∈ l.usedFiles config
      · exact .inr ⟨config, hparse, hused⟩
      · left
        have hlogging := (@within_of_notMem (l.parsed lib store) path _ l.opensLogs
          (notMem_logFiles hused)).trans hparsed
        rcases main_snd hparse hused with heq | heq
        · exact absurd (heq.trans hparsed) h
        · rw [heq, ← hlogging] at h
          obtain ⟨hfile, hnamed, hopens, hnone⟩ := createFile_changes h
          rw [hlogging] at hnone
          rcases hoptions : l.options with what | result
          · rw [hoptions] at hparse
            cases hparse
          · rw [hoptions] at hparse
            refine ⟨hnamed, hopens, fun _ => by rw [hnone]; rfl, result, hoptions,
              help_of_parse hparse, ?_⟩
            rcases configFile_of_parse hparse with hempty | hpath
            · exact absurd (hfile.symm.trans hempty) hnamed
            · exact hpath.symm.trans hfile
  · exact .inl (parsed_changes hparsed)

end Launch

/-- A step that may change a file: somebody else writes or removes it, or a launch may write to it
    or uses it. -/
def FileStep.MayChange (lib : JsonLibrary) (store : Store) (path : String) : FileStep → Prop
  | .launch l => l.MayWrite store path ∨ l.Uses lib store path
  | .edit path' _ => path' = path

section

variable {lib : JsonLibrary} {store : Store} {path : String}

theorem fileStep_of_not {a : FileStep} (h : ¬a.MayChange lib store path) :
    (fileStep lib store a).2 path = store path := by
  cases a with
  | launch l =>
    by_contra hne
    exact h (Launch.main_changes hne)
  | edit other content => exact Function.update_of_ne (Ne.symm h) _ _

theorem FileStep.Spares.not_mayChange {text : String} {a : FileStep}
    (h : a.Spares lib store path) (hne : text ≠ "") (hstore : store path = some text) :
    ¬a.MayChange lib store path := by
  cases a with
  | launch l =>
    rintro (hwrites | huses)
    · have hempty := hwrites.empty h.1
      rw [hstore] at hempty
      exact hne hempty
    · exact h.2 huses
  | edit other content => exact h

/-- A file that holds something, and can be read, stays as it is until somebody else changes it or
    a launch uses it. -/
theorem Store.kept_of_spares {text : String} (hne : text ≠ "") (h : store path = some text)
    {as : List FileStep}
    (has : (fileStep lib).Along (fun store a => a.Spares lib store path) store as) :
    (fileStep lib).run store as path = some text := by
  refine Machine.run_induction (I := fun store : Store => store path = some text) ?_ h has
  intro store a hstore hspares
  rw [fileStep_of_not (hspares.not_mayChange hne hstore), hstore]

/-- If a file is not what it was, somebody else has changed it; or a launch has used it, as its log
    file, a backup of this or a file beside its OUI database; or a launch has met it as its
    configuration file, and it was not there, or empty, or could not be read. -/
theorem Store.changed_run (lib : JsonLibrary) {store : Store} {path : String} {as : List FileStep}
    (h : (fileStep lib).run store as path ≠ store path) : ∃ pre a post, as = pre ++ a :: post ∧
      a.MayChange lib ((fileStep lib).run store pre) path := by
  by_contra hnone
  push Not at hnone
  refine h (Machine.run_induction (I := fun store' : Store => store' path = store path) ?_ rfl
    (Machine.along_of_split (P := fun store' a => ¬FileStep.MayChange lib store' path a) hnone))
  intro store' a hstore hnot
  rw [fileStep_of_not hnot, hstore]

end

/-! ## The first launch and the later ones -/

/-- The values of the options have the types of the options. -/
def ParseResult.Typed (result : ParseResult) : Prop :=
  ∀ (f : NumberField) (n : ℤ), f.cli result = some n → f.holds n

/-- A configuration has been saved to a file, and everything has arrived. -/
def Store.Saved (lib : JsonLibrary) (store : Store) (path : String) (config : ServerConfig) :
    Prop :=
  ∃ text, lib.dumpIndented 0 (toJson config) = .ok text ∧ store path = some (text ++ "\n")

namespace ConfigParser

variable {config : ServerConfig} {result : ParseResult}

/-- A number that is stored is a value of the type of its field. -/
theorem NumberField.holds_stored {f : NumberField} {n : ℤ} (h : f.holds n) :
    f.holds (f.stored n) := by
  cases f with
  | logMaxFileSize =>
    simp only [NumberField.holds, NumberField.stored, toSize]
    omega
  | port | threads | maxRequestsPerMinute | maxBatchSize | logMaxBackupFiles => exact h

theorem representable_applyCliOverrides (hbase : Representable config) (htyped : result.Typed) :
    Representable (applyCliOverrides result config) where
  holds f := by
    rw [number_cli]
    cases hgiven : f.cli result with
    | none => exact hbase.holds f
    | some n => exact NumberField.holds_stored (htyped f n hgiven)
  dvd_logMaxFileSize := by
    have hvalue := @number_cli result .logMaxFileSize config
    rw [NumberField.value] at hvalue
    rw [hvalue]
    cases NumberField.logMaxFileSize.cli result with
    | none => exact hbase.dvd_logMaxFileSize
    | some n =>
      simp only [Option.map_some, Option.getD_some, NumberField.stored, toSize]
      omega

/-- Applying the command line once more changes nothing, but the path of the file. -/
theorem applyCliOverrides_again (result : ParseResult) (base : ServerConfig) (path : String) :
    applyCliOverrides result { applyCliOverrides result base with configFile := path } =
      { applyCliOverrides result base with configFile := path } := by
  have htext (f : TextField) (config : ServerConfig) :
      f.value { config with configFile := path } = f.value config := by cases f <;> rfl
  have hflag (f : FlagField) (config : ServerConfig) :
      f.value { config with configFile := path } = f.value config := by cases f <;> rfl
  have hnumber (f : NumberField) (config : ServerConfig) :
      f.value { config with configFile := path } = f.value config := by cases f <;> rfl
  refine eq_of_fields (fun f => ?_) (fun f => ?_) (fun f => ?_) rfl
  · rw [text_cli, htext, text_cli]
    cases f.cli result <;> rfl
  · rw [flag_cli, hflag, flag_cli]
    cases f.cli result <;> rfl
  · rw [number_cli, hnumber, number_cli]
    cases f.cli result <;> rfl

end ConfigParser

section

variable {lib : JsonLibrary} {l : Launch} {store : Store} {path : String}
  {config : ServerConfig} {result : ParseResult}

/-- `main` runs the application if the configuration is valid and logging can be set up, where no
    file is to be created; and apart from the files that it uses, it leaves all as it is. -/
theorem Launch.main_of_base (hoptions : l.options = .ok result) (hhelp : result.help = false)
    {base : ServerConfig} (hbase : baseConfig lib (l.environment store) result = .ok base)
    (hparsed : l.parsed lib store = store) (hnone : base.configFile = "") :
    (l.main lib store).1 = (do
      validate (l.environment store) (applyCliOverrides result base)
      l.initLogging (applyCliOverrides result base)
      return some (applyCliOverrides result base)) ∧
    ∀ other ∉ l.usedFiles (applyCliOverrides result base),
      (l.main lib store).2 other = store other := by
  have hparse : parse lib (l.environment store) l.options =
      (validate (l.environment store) (applyCliOverrides result base)).bind fun _ =>
        .ok (some (applyCliOverrides result base)) := by
    rw [hoptions, parse, hhelp, hbase]
    rfl
  have hcreate (store : Store) :
      l.createFile lib store (applyCliOverrides result base) = (.ok (), store) :=
    if_pos (.inl hnone)
  rw [Launch.main, hparse, hparsed]
  rcases validate (l.environment store) (applyCliOverrides result base) with e | ⟨⟩
  · exact ⟨rfl, fun _ _ => rfl⟩
  · simp only [Except.bind, hcreate]
    rcases l.initLogging (applyCliOverrides result base) with e | ⟨⟩
    · exact ⟨rfl, fun other hother => Launch.within_of_notMem (Launch.notMem_logFiles hother)⟩
    · refine ⟨rfl, fun other hother => ?_⟩
      exact (Launch.within_of_notMem hother).trans
        (Launch.within_of_notMem (Launch.notMem_logFiles hother))

/-- A file that is there is looked for. -/
theorem Launch.consulted (hpath : configPath (l.environment store) result = path)
    (hnamed : path ≠ "") (hseen : l.hidden path = none) (hthere : (store path).isSome = true) :
    Consulted (l.environment store) result := by
  rw [Consulted, hpath, Launch.environment]
  refine ⟨hnamed, ?_⟩
  simp only [hseen, hthere, Bool.true_or, Except.toOption]

/-- A launch that looks for its configuration file at a path, where it can be read. -/
structure Launch.Finds (l : Launch) (result : ParseResult) (path : String) : Prop where
  options : l.options = .ok result
  help : result.help = false
  path_eq : ∀ store, configPath (l.environment store) result = path
  named : path ≠ ""
  seen : l.hidden path = none
  readable : l.readable path = true

/-- What is saved is found again. -/
theorem Store.Saved.main_eq (h : store.Saved lib path config) (hconfig : Representable config)
    (hundoes : lib.Undoes (toJson config)) (hfinds : l.Finds result path) :
    let config' := applyCliOverrides result { config with configFile := "" }
    (l.main lib store).1 = (do
      validate (l.environment store) config'
      l.initLogging config'
      return some config') ∧
    ∀ other ∉ l.usedFiles config', (l.main lib store).2 other = store other := by
  obtain ⟨text, hdump, hstore⟩ := h
  have hread : ((l.environment store).file path).read? = some (text ++ "\n") := by
    rw [Launch.read?_file hfinds.readable, hstore]
  have hne : text ++ "\n" ≠ "" := by simp
  have hpath := hfinds.path_eq store
  have hload : handleConfigFile lib (l.environment store) path =
      { config with configFile := "" } := by
    rw [handleConfigFile, hread, Option.getD_some, if_neg hne, loadFromFile, hread]
    dsimp only
    rw [hundoes text hdump]
    dsimp only
    rw [fromJson_toJson hconfig]
  have hconsulted := Launch.consulted hpath hfinds.named hfinds.seen
    (by rw [hstore, Option.isSome_some])
  have hbase := @baseConfig_of_consulted lib _ _ hconsulted
  rw [hpath, hload] at hbase
  refine Launch.main_of_base hfinds.options hfinds.help hbase ?_ rfl
  rw [Launch.parsed_of_ok hfinds.options]
  refine if_neg fun hempty => ?_
  have hempty := hempty.2.2
  rw [hpath, hread] at hempty
  exact hne hempty

/-- What `main` has done when it runs the application. -/
theorem Launch.main_eq_ok (h : (l.main lib store).1 = .ok (some config)) :
    parse lib (l.environment store) l.options = .ok (some config) ∧
      ∀ other ∉ l.usedFiles config, (l.main lib store).2 other = (l.createFile lib
        ((l.parsed lib store).within (l.logFiles config) l.opensLogs) config).2 other := by
  rw [Launch.main] at h ⊢
  split at h
  · cases h
  · cases h
  · next config' hparse =>
    dsimp only at h ⊢
    split at h
    · cases h
    · obtain ⟨⟨⟩, -, heq⟩ := map_eq_ok.1 h
      obtain rfl := Option.some.inj heq
      exact ⟨hparse, fun other hother => Launch.within_of_notMem hother⟩

/-- What is written to a file that takes everything is saved. -/
theorem Launch.saved_save (hutf8 : ∀ f : TextField, Json.validUtf8 (f.value config) = true)
    (hopens : l.opensForWriting path = true) (haccepts : l.accepts path = none) :
    (l.save lib store config path).Saved lib path config := by
  have htakes : TakesWhole lib config ((l.environment store).file path) := fun _ _ _ n hn => by
    have hnone : l.accepts path = some n := hn
    rw [haccepts] at hnone
    cases hnone
  obtain ⟨text, hdump, hcontent⟩ :=
    content_of_saved (saveToFile_eq_true.2 ⟨hopens, hutf8⟩) htakes
  exact ⟨text, hdump, (Function.update_self _ _ _).trans hcontent⟩

/-- The first launch: there is no configuration file, or an empty one, and it can be written and is
    not otherwise used. -/
structure Launch.Founds (lib : JsonLibrary) (first : Launch) (store : Store) (result : ParseResult)
    (path : String) (config : ServerConfig) : Prop where
  options : first.options = .ok result
  typed : result.Typed
  path_eq : configPath (first.environment store) result = path
  named : path ≠ ""
  fresh : store path = none ∧ first.otherPaths path = false ∧ first.created path = false ∨
    store path = some "" ∧ first.readable path = true
  opens : first.opensForWriting path = true
  accepts : first.accepts path = none
  unused : path ∉ first.usedFiles config
  runs : (first.main lib store).1 = .ok (some config)

/-- What the first launch saves: its own configuration if there is no file, and the defaults if
    there is an empty one. -/
def Launch.saves (first : Launch) (store : Store) (path : String) (config : ServerConfig) :
    ServerConfig :=
  if store path = none then config else initialConfig (first.environment store) path

namespace Launch.Founds

variable {first : Launch} (h : first.Founds lib store result path config)
include h

/-- The configuration of the first launch. -/
theorem eq_cli : ∃ base, parse lib (first.environment store) (.ok result) = .ok (some config) ∧
    baseConfig lib (first.environment store) result = .ok base ∧
      config = applyCliOverrides result base := by
  have hparse := (main_eq_ok h.runs).1
  rw [h.options] at hparse
  obtain ⟨base, hbase, heq⟩ := parse_eq_ok hparse
  exact ⟨base, hparse, hbase, heq⟩

theorem help_eq : result.help = false := by
  obtain ⟨-, hparse, -, -⟩ := h.eq_cli
  exact help_of_parse hparse

/-- What is in the file after the first launch. -/
theorem main_snd_eq : (first.main lib store).2 path = (first.createFile lib
    ((first.parsed lib store).within (first.logFiles config) first.opensLogs) config).2 path :=
  (main_eq_ok h.runs).2 path h.unused

/-- When logging has been set up, the file is as it was after `parse`. -/
theorem within_logFiles :
    (first.parsed lib store).within (first.logFiles config) first.opensLogs path =
      first.parsed lib store path :=
  within_of_notMem (notMem_logFiles h.unused)

/-- Without a file, the configuration of the first launch is saved. -/
theorem of_missing (hmissing : store path = none) :
    config = applyCliOverrides result (initialConfig (first.environment store) path) ∧
      (first.main lib store).2 path = first.save lib store config path path := by
  obtain ⟨hnot, hcreated⟩ : first.otherPaths path = false ∧ first.created path = false := by
    rcases h.fresh with ⟨-, hnew⟩ | ⟨hempty, -⟩
    · exact hnew
    · rw [hmissing] at hempty
      cases hempty
  have hpath := h.path_eq
  have hconsulted : ¬Consulted (first.environment store) result := by
    rintro ⟨-, hthere⟩
    rw [hpath, toOption_eq_some, environment] at hthere
    dsimp only at hthere
    split at hthere
    · cases hthere
    · rw [hmissing, hnot] at hthere
      cases hthere
  obtain ⟨base, -, hbase, hconfig⟩ := h.eq_cli
  obtain ⟨hexists, rfl⟩ := baseConfig_of_not_consulted (by rw [hpath]; exact h.named) hconsulted
    hbase
  rw [hpath] at hexists hconfig
  refine ⟨hconfig, ?_⟩
  have hparsed : first.parsed lib store = store := by
    rw [parsed_of_ok h.options]
    exact if_neg fun hfinds => hconsulted hfinds.2.1
  have hlogging := h.within_logFiles
  -- the path is that of the first launch
  have hfile : config.configFile = path := by rw [hconfig]; rfl
  rw [h.main_snd_eq, createFile, hfile,
    if_neg (not_or.2 ⟨h.named, by rw [hcreated]; exact Bool.false_ne_true⟩),
    pathExists_congr (hlogging.trans (congrFun hparsed path)), hexists]
  exact save_congr (hlogging.trans (congrFun hparsed path))

/-- To an empty file, the defaults are saved. -/
theorem of_empty (hempty : store path = some "")
    (hutf8 : ∀ f : TextField,
      Json.validUtf8 (f.value (initialConfig (first.environment store) path)) = true) :
    config = applyCliOverrides result (initialConfig (first.environment store) path) ∧
      (first.main lib store).2 path =
        first.save lib store (initialConfig (first.environment store) path) path path := by
  have hread : first.readable path = true := by
    rcases h.fresh with ⟨hnone, -⟩ | ⟨-, hread⟩
    · rw [hempty] at hnone
      cases hnone
    · exact hread
  have hpath := h.path_eq
  have hnothing : ((first.environment store).file path).read?.getD "" = "" :=
    read?_of_empty hempty
  obtain ⟨base, -, hbase, hconfig⟩ := h.eq_cli
  have hconsulted : Consulted (first.environment store) result := by
    by_contra hnot
    obtain ⟨hexists, -⟩ := baseConfig_of_not_consulted (by rw [hpath]; exact h.named) hnot hbase
    rw [hpath, environment] at hexists
    dsimp only at hexists
    split at hexists
    · cases hexists
    · rw [hempty] at hexists
      cases hexists
  have hbase' : base = initialConfig (first.environment store) path := by
    rw [baseConfig_of_consulted hconsulted, hpath, handleConfigFile_of_empty hnothing,
      if_pos (saveToFile_eq_true.2 ⟨h.opens, hutf8⟩)] at hbase
    exact (Except.ok.inj hbase).symm
  subst hbase'
  refine ⟨hconfig, ?_⟩
  have hparsed : first.parsed lib store =
      first.save lib store (initialConfig (first.environment store) path) path := by
    rw [parsed_of_ok h.options, hpath]
    refine if_pos ⟨h.help_eq, hconsulted, ?_⟩
    rw [hpath]
    exact hnothing
  have hlogging := h.within_logFiles
  rw [hparsed] at hlogging
  rw [h.main_snd_eq, hparsed, ← hlogging]
  -- the file is there by now
  by_contra hchanged
  obtain ⟨-, -, -, hnone⟩ := createFile_changes hchanged
  obtain ⟨text, -, htext⟩ := @saved_save lib first store path _ hutf8 h.opens h.accepts
  rw [hlogging, htext] at hnone
  cases hnone

/-- What the first launch saves is in the file. -/
theorem saved (hutf8 : ∀ f : TextField,
      Json.validUtf8 (f.value (first.saves store path config)) = true) :
    (first.main lib store).2.Saved lib path (first.saves store path config) := by
  rw [saves] at hutf8 ⊢
  split at hutf8
  · next hmissing =>
    obtain ⟨text, hdump, htext⟩ := @saved_save lib first store path _ hutf8 h.opens h.accepts
    rw [if_pos hmissing]
    exact ⟨text, hdump, (h.of_missing hmissing).2.trans htext⟩
  · next hnot =>
    have hempty : store path = some "" := by
      rcases h.fresh with ⟨hmissing, -⟩ | ⟨hempty, -⟩
      · exact absurd hmissing hnot
      · exact hempty
    obtain ⟨text, hdump, htext⟩ := @saved_save lib first store path _ hutf8 h.opens h.accepts
    rw [if_neg hnot]
    exact ⟨text, hdump, (h.of_empty hempty hutf8).2.trans htext⟩

theorem representable_saves : Representable (first.saves store path config) := by
  have hinitial := representable_initialConfig (first.environment store) path
  rw [saves]
  split
  · next hmissing =>
    rw [(h.of_missing hmissing).1]
    exact representable_applyCliOverrides hinitial h.typed
  · exact hinitial

/-- The command line of the first launch, applied to what it saved, gives its configuration. -/
theorem applyCliOverrides_saves (hutf8 : ∀ f : TextField,
      Json.validUtf8 (f.value (first.saves store path config)) = true) :
    applyCliOverrides result { first.saves store path config with configFile := "" } =
      { config with configFile := "" } := by
  rw [saves] at hutf8 ⊢
  split at hutf8
  · next hmissing =>
    rw [if_pos hmissing, (h.of_missing hmissing).1]
    exact applyCliOverrides_again result _ ""
  · next hnot =>
    have hempty : store path = some "" := by
      rcases h.fresh with ⟨hmissing, -⟩ | ⟨hempty, -⟩
      · exact absurd hmissing hnot
      · exact hempty
    rw [if_neg hnot, (h.of_empty hempty hutf8).1]
    rfl

end Launch.Founds

/-- A launch with a port in a new home. -/
def firstLaunch : Launch := { options := .ok { port := some 9000 } }

/-- A home without files. -/
def newHome : Store := fun _ => none

/-- Where the configuration file is. -/
def homeFile : String := "/home/user/.config/ip_local/config.json"

/-- The configuration of the first launch. -/
def firstConfig : ServerConfig :=
  applyCliOverrides { port := some 9000 }
    (initialConfig (firstLaunch.environment newHome) homeFile)

/-- A launch with a log file, to which a line is written. -/
def loggingLaunch : Launch where
  options :=
    .ok { logFile := some "server.log", logRotation := some "none", ouiDb := some "oui.db" }
  uses store path := some ((store path).getD "" ++ "[info] HTTP server started\n")

/-- Somebody else writes a file, and the program is launched with a log file. -/
def meanwhile : List FileStep := [.edit "notes" (some "9000"), .launch loggingLaunch]

/-- The log is kept apart from the configuration. -/
theorem loggingLaunch_not_uses {lib : JsonLibrary} {store : Store} :
    ¬loggingLaunch.Uses lib store homeFile := by
  rintro ⟨config, hparse, hused⟩
  obtain ⟨base, -, rfl⟩ := parse_eq_ok hparse
  exact absurd hused (by decide +kernel : homeFile ∉ ["server.log", "oui.db-wal", "oui.db-shm"])

theorem spares_meanwhile (lib : JsonLibrary) (store : Store) :
    (fileStep lib).Along (fun store a => a.Spares lib store homeFile) store meanwhile :=
  ⟨(by decide +kernel : "notes" ≠ homeFile), ⟨rfl, loggingLaunch_not_uses⟩, trivial⟩

theorem founds_firstLaunch (lib : JsonLibrary) :
    firstLaunch.Founds lib newHome { port := some 9000 } homeFile firstConfig := by
  have hruns : (firstLaunch.main lib newHome).1 = .ok (some firstConfig) := rfl
  refine ⟨rfl, fun f n hn => ?_, by decide +kernel, by decide, .inl ⟨rfl, rfl, rfl⟩, rfl, rfl,
    by decide +kernel, hruns⟩
  cases f with
  | port =>
    obtain rfl := Option.some.inj hn
    exact ⟨by decide, by decide⟩
  | _ => cases hn

theorem validUtf8_firstConfig (f : TextField) : Json.validUtf8 (f.value firstConfig) = true := by
  cases f <;> exact Json.validUtf8_of_ascii (by decide +kernel)

theorem Store.changed_run_firstLaunch : ∃ pre a post,
    .launch firstLaunch :: meanwhile = pre ++ a :: post ∧
      FileStep.MayChange .sample ((fileStep .sample).run newHome pre) homeFile a := by
  obtain ⟨text, -, htext⟩ := (founds_firstLaunch .sample).saved validUtf8_firstConfig
  have hkept := Store.kept_of_spares (by simp) htext (spares_meanwhile .sample _)
  have hchanged : (fileStep .sample).run newHome (.launch firstLaunch :: meanwhile) homeFile ≠
      newHome homeFile := by
    rw [Machine.run_cons, fileStep_launch, hkept]
    exact Option.some_ne_none _
  exact Store.changed_run .sample hchanged

end

end IpServer
