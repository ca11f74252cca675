import IpServer.Config.Layering

/-!
# Saving and loading the configuration

A configuration that was saved is loaded again as it was, except for the path of its
file, which is not saved (`load_of_save`). What is read of the members that were written
is what `Accepted` and `Layered` say of any file.

* `written_reparsed`: that integers come back from the file as unsigned ones does not matter.
* `written_toJson`: under the key of each field stands its value, in the unit of the field.
-/

namespace IpServer.ConfigParser

/-! ## What was written -/

variable {config config' : ServerConfig} {j : Json}

namespace NumberField

/-- A number is a value of the type of the field. -/
def holds (n : ℤ) : NumberField → Prop
  | port => 0 ≤ n ∧ n < 2 ^ 16
  | logMaxFileSize => 0 ≤ n ∧ n < 2 ^ 64
  | threads | maxRequestsPerMinute | maxBatchSize | logMaxBackupFiles =>
    -2 ^ 31 ≤ n ∧ n < 2 ^ 31

end NumberField

/-! ## What is read of it -/

theorem TextField.written_toJson (f : TextField) :
    (f.written (toJson config)).getD (f.value {}) = f.value config := by
  rcases f.get?_toJson config with ⟨hget, hvalue⟩ | hget
  · rw [written, hget]
    exact hvalue.symm
  · rw [written, hget]
    rfl

theorem FlagField.written_toJson (f : FlagField) :
    f.written (toJson config) = some (f.value config) := by
  have hmem : (f.key, .boolean (f.value config)) ∈ members config := by
    cases f <;> simp [members, key, value]
  rw [FlagField.written, get?_toJson hmem]

theorem NumberField.written_toJson (f : NumberField) (h : f.holds (f.value config)) :
    f.written (toJson config) = some (f.value config / f.unit) := by
  have hunsigned : ∀ n : ℤ, 0 ≤ n ∧ n < 2 ^ 64 →
      (f.key, .unsigned (UInt64.ofNat n.toNat)) ∈ members config →
      f.written (toJson config) = some n := fun n hn hmem => by
    have hsize : n.toNat < UInt64.size := by
      rw [UInt64.size]
      omega
    rw [NumberField.written, get?_toJson hmem]
    simp only [UInt64.toNat_ofNat_of_lt' hsize, Int.toNat_of_nonneg hn.1]
  have hinteger : ∀ n : ℤ, -2 ^ 31 ≤ n ∧ n < 2 ^ 31 →
      (f.key, .integer (Int64.ofInt n)) ∈ members config →
      f.written (toJson config) = some n := fun n hn hmem => by
    rw [NumberField.written, get?_toJson hmem]
    simp only [Int64.toInt_ofInt_of_le (n := n) (by omega) (by omega)]
  cases f with
  | port =>
    rw [unit, Int.ediv_one]
    exact hunsigned _ ⟨h.1, by have := h.2; omega⟩ (by simp [members, key, value])
  | logMaxFileSize =>
    have hrange : 0 ≤ config.logMaxFileSize ∧ config.logMaxFileSize < 2 ^ 64 := h
    exact hunsigned _ (by rw [value, unit]; omega) (by simp [members, key, value, unit])
  | threads | maxRequestsPerMinute | maxBatchSize | logMaxBackupFiles =>
    rw [unit, Int.ediv_one]
    exact hinteger _ h (by simp [members, key, value])

/-! ### Parsing again -/

theorem TextField.written_reparsed (f : TextField) (j : Json) :
    f.written j.reparsed = f.written j := by
  rw [written, written, Json.get?_reparsed]
  rcases j.get? f.key with _ | v
  · rfl
  · rw [Option.map_some]
    rcases v.reparsed_cases with heq | ⟨n, -, rfl, heq⟩ | ⟨items, rfl, heq⟩ | ⟨ms, rfl, heq⟩
    all_goals simp only [heq]

theorem FlagField.written_reparsed (f : FlagField) (j : Json) :
    f.written j.reparsed = f.written j := by
  rw [written, written, Json.get?_reparsed]
  rcases j.get? f.key with _ | v
  · rfl
  · rw [Option.map_some]
    rcases v.reparsed_cases with heq | ⟨n, -, rfl, heq⟩ | ⟨items, rfl, heq⟩ | ⟨ms, rfl, heq⟩
    all_goals simp only [heq]

/-- An integer that is read as an unsigned one is the same number. -/
theorem NumberField.written_reparsed (f : NumberField) (j : Json) :
    f.written j.reparsed = f.written j := by
  rw [written, written, Json.get?_reparsed]
  rcases j.get? f.key with _ | v
  · rfl
  · rw [Option.map_some]
    rcases v.reparsed_cases with heq | ⟨n, hn, rfl, heq⟩ | ⟨items, rfl, heq⟩ | ⟨ms, rfl, heq⟩
    · simp only [heq]
    · have hsize : n.toInt.toNat < UInt64.size := by
        have := n.toInt_lt
        rw [UInt64.size]
        omega
      simp only [heq, UInt64.toNat_ofNat_of_lt' hsize, Int.toNat_of_nonneg hn]
    · simp only [heq]
    · simp only [heq]

theorem contains_reparsed (j : Json) (key : String) : j.reparsed.contains key = j.contains key := by
  rw [Json.contains, Json.contains, Json.get?_reparsed, Option.isSome_map]

theorem accepted_reparsed (h : Accepted j) : Accepted j.reparsed where
  text f hf := by
    rw [contains_reparsed] at hf
    rw [f.written_reparsed]
    exact h.text f hf
  flag f hf := by
    rw [contains_reparsed] at hf
    rw [f.written_reparsed]
    exact h.flag f hf
  number f hf := by
    rw [contains_reparsed] at hf
    rw [f.written_reparsed]
    exact h.number f hf

/-! ## Saving and loading -/

/-- A configuration whose numbers are values of the types of their fields, the log size being a
    number of units. -/
structure Representable (config : ServerConfig) : Prop where
  holds : ∀ f : NumberField, f.holds (f.value config)
  dvd_logMaxFileSize : 2 ^ 20 ∣ config.logMaxFileSize

/-- A value fits in its unit. -/
theorem NumberField.fits_of_holds (f : NumberField) (h : f.holds (f.value config)) :
    f.fits (f.value config / f.unit) := by
  cases f with
  | logMaxFileSize =>
    have hrange : 0 ≤ config.logMaxFileSize ∧ config.logMaxFileSize < 2 ^ 64 := h
    simp only [fits, value, unit]
    omega
  | port | threads | maxRequestsPerMinute | maxBatchSize | logMaxBackupFiles =>
    rw [unit, Int.ediv_one]
    exact h

/-- A value is a number of units. -/
theorem Representable.ediv_mul_unit (h : Representable config) (f : NumberField) :
    f.value config / f.unit * f.unit = f.value config := by
  cases f with
  | logMaxFileSize => exact Int.ediv_mul_cancel h.dvd_logMaxFileSize
  | port | threads | maxRequestsPerMinute | maxBatchSize | logMaxBackupFiles =>
    rw [NumberField.unit, Int.ediv_one, Int.mul_one]

theorem accepted_toJson (h : ∀ f : NumberField, f.holds (f.value config)) :
    Accepted (toJson config) where
  text f hf := by
    obtain ⟨v, hv⟩ := Option.isSome_iff_exists.1 hf
    rcases f.get?_toJson config with ⟨hget, -⟩ | hget
    · rw [hget] at hv
      cases hv
    · rw [TextField.written, hget]
      exact Option.isSome_some
  flag f _ := by
    rw [f.written_toJson]
    exact Option.isSome_some
  number f _ := ⟨_, f.written_toJson (h f), f.fits_of_holds (h f)⟩

/-- Two configurations are equal if their fields are. -/
theorem eq_of_fields (htext : ∀ f : TextField, f.value config = f.value config')
    (hflag : ∀ f : FlagField, f.value config = f.value config')
    (hnumber : ∀ f : NumberField, f.value config = f.value config')
    (hfile : config.configFile = config'.configFile) : config = config' := by
  obtain ⟨host, port, city, asn, oui, threads, file, limiter, requests, batch, auth, keys, key,
    logging, log, rotation, size, backups, stdout, level⟩ := config
  obtain rfl : host = _ := htext .host
  obtain rfl : city = _ := htext .cityDb
  obtain rfl : asn = _ := htext .asnDb
  obtain rfl : oui = _ := htext .ouiDb
  obtain rfl : keys = _ := htext .apiKeysFile
  obtain rfl : key = _ := htext .defaultApiKey
  obtain rfl : log = _ := htext .logFile
  obtain rfl : rotation = _ := htext .logRotation
  obtain rfl : level = _ := htext .logLevel
  obtain rfl : limiter = _ := hflag .enableRateLimiter
  obtain rfl : auth = _ := hflag .enableApiAuth
  obtain rfl : logging = _ := hflag .enableFileLogging
  obtain rfl : stdout = _ := hflag .logEnableStdout
  obtain rfl : port = _ := hnumber .port
  obtain rfl : threads = _ := hnumber .threads
  obtain rfl : requests = _ := hnumber .maxRequestsPerMinute
  obtain rfl : batch = _ := hnumber .maxBatchSize
  obtain rfl : size = _ := hnumber .logMaxFileSize
  obtain rfl : backups = _ := hnumber .logMaxBackupFiles
  obtain rfl : file = _ := hfile
  rfl

theorem configFile_fromJson (h : fromJson config j = .ok config') :
    config'.configFile = config.configFile := by
  simp only [fromJson, bind_eq_ok, pure_eq_ok] at h
  obtain ⟨_, -, _, -, _, -, _, -, _, -, _, -, _, -, _, -, _, -, _, -, _, -, _, -, _, -, _, -, _, -,
    _, -, _, -, _, -, _, -, rfl⟩ := h
  rfl

/-- What was written is read as it was. -/
theorem fromJson_toJson (h : Representable config) :
    fromJson {} (toJson config).reparsed = .ok { config with configFile := "" } := by
  obtain ⟨loaded, hloaded, hlayered⟩ :=
    fromJson_of_accepted (accepted_reparsed (accepted_toJson h.holds)) {}
  have hfile : loaded.configFile = "" := configFile_fromJson hloaded
  rw [hloaded]
  refine congrArg _ (eq_of_fields (fun f => ?_) (fun f => ?_) (fun f => ?_) hfile)
  · have hvalue : f.value loaded = (f.written (toJson config).reparsed).getD (f.value {}) := by
      rw [hlayered.text]
      cases f <;> rfl
    rw [hvalue, f.written_reparsed, f.written_toJson]
    cases f <;> rfl
  · have hvalue : f.value loaded = (f.written (toJson config).reparsed).getD (f.value {}) := by
      rw [hlayered.flag]
      cases f <;> rfl
    rw [hvalue, f.written_reparsed, f.written_toJson]
    cases f <;> rfl
  · have hvalue : f.value loaded =
        ((f.written (toJson config).reparsed).map (· * f.unit)).getD (f.value {}) := by
      rw [hlayered.number]
      cases f <;> rfl
    rw [hvalue, f.written_reparsed, f.written_toJson (h.holds f), Option.map_some,
      Option.getD_some, h.ediv_mul_unit f]
    cases f <;> rfl

/-! ### The file -/

/-- A file that opens takes everything that is to be written for a configuration. -/
def TakesWhole (lib : JsonLibrary) (config : ServerConfig) (file : ConfigFile) : Prop :=
  file.opensForWriting = true → ∀ text, lib.dumpIndented 0 (toJson config) = .ok text →
    ∀ n, file.accepts = some n → (text ++ "\n").length ≤ n

variable {lib : JsonLibrary} {file : ConfigFile} {env : Environment} {path : String}

/-- What is in a file after a configuration was saved to it. -/
theorem content_of_saved (hsaved : (saveToFile lib config file).1 = true)
    (htakes : TakesWhole lib config file) :
    ∃ text, lib.dumpIndented 0 (toJson config) = .ok text ∧
      (saveToFile lib config file).2.content = some (text ++ "\n") := by
  obtain ⟨hopens, hutf8⟩ := saveToFile_eq_true.1 hsaved
  obtain ⟨text, htext⟩ := (@dumpIndented_toJson_eq_ok lib config).2 hutf8
  refine ⟨text, htext, ?_⟩
  rw [saveToFile_of_ok hopens htext]
  cases haccepts : file.accepts with
  | none => rfl
  | some n =>
    have hlength : (text ++ "\n").toList.length ≤ n := by
      rw [String.length_toList]
      exact htakes hopens text htext n haccepts
    dsimp only
    rw [arrived, List.take_of_length_le hlength, String.ofList_toList]

/-- A configuration that is not saved leaves an empty file as it was. -/
theorem content_of_not_saved (hempty : file.content = some "")
    (h : (saveToFile lib config file).1 = false) :
    (saveToFile lib config file).2.content = some "" := by
  cases hopens : file.opensForWriting with
  | false => rwa [saveToFile_of_closed hopens]
  | true =>
    rw [saveToFile] at h ⊢
    cases hdump : lib.dumpIndented 0 (toJson config) with
    | error e =>
      simp only [hopens, Bool.not_true, Bool.false_eq_true, if_false]
    | ok text =>
      simp only [hopens, hdump, Bool.not_true, Bool.false_eq_true, if_false] at h
      cases h

/-- A file to which a configuration can be saved once takes it again. -/
theorem saveToFile_again : (saveToFile lib config (saveToFile lib config file).2).1 =
    (saveToFile lib config file).1 := by
  rw [Bool.eq_iff_iff, saveToFile_eq_true, saveToFile_eq_true, opensForWriting_saveToFile]

/-- What was saved is loaded. -/
theorem loadFromFile_of_saved (hundoes : lib.Undoes (toJson config))
    (hconfig : Representable config) (hsaved : (saveToFile lib config file).1 = true)
    (htakes : TakesWhole lib config file)
    (hread : (env.file path).read? = (saveToFile lib config file).2.content) :
    loadFromFile lib env path = .ok { config with configFile := "" } := by
  obtain ⟨text, htext, hcontent⟩ := content_of_saved hsaved htakes
  rw [loadFromFile, hread, hcontent]
  dsimp only
  rw [hundoes text htext]
  exact fromJson_toJson hconfig

theorem representable_initialConfig (env : Environment) (path : String) :
    Representable (initialConfig env path) := by
  refine ⟨fun f => ?_, ?_⟩
  · cases f <;> simp [NumberField.holds, NumberField.value, initialConfig, applyDefaultPaths]
  · exact (by decide : (2 ^ 20 : ℤ) ∣ 10 * 1024 * 1024)

theorem handleConfigFile_of_empty (h : (env.file path).read?.getD "" = "") :
    handleConfigFile lib env path =
      if (saveToFile lib (initialConfig env path) (env.file path)).1 then initialConfig env path
      else {} := by
  rw [handleConfigFile, if_pos h]
  rfl

/-- What is read from an empty file, if it can be read. -/
theorem read?_of_empty (h : file.content = some "") : file.read?.getD "" = "" := by
  rw [ConfigFile.read?, h]
  split <;> rfl

/-- The defaults depend on the home directory alone. -/
theorem initialConfig_congr {env' : Environment} (hhome : env'.homeVariable = env.homeVariable)
    (huser : env'.userDirectory = env.userDirectory) :
    initialConfig env' path = initialConfig env path := by
  simp only [initialConfig, applyDefaultPaths, Paths.cityDbPath, Paths.asnDbPath,
    Paths.ouiDbPath, Paths.databaseDir, Paths.configFile, Paths.logFilePath, Paths.baseDir,
    Paths.getHome, hhome, huser]

/-- A configuration that was saved to a file that takes all of it is loaded, where the file can be
    read, as it was but for the path of its file; and if a start with an empty file saves the
    defaults, if it can, the next start finds the configuration that the first one had. -/
theorem load_of_save (lib : JsonLibrary) (path : String) :
    (∀ (config : ServerConfig) (file : ConfigFile) (env : Environment),
      lib.Undoes (toJson config) → Representable config →
      (saveToFile lib config file).1 = true → TakesWhole lib config file →
      (env.file path).read? = (saveToFile lib config file).2.content →
      loadFromFile lib env path = .ok { config with configFile := "" }) ∧
    ∀ (file : ConfigFile) (env env' : Environment),
      lib.Undoes (toJson (initialConfig env path)) →
      env.file path = file → file.content = some "" →
      TakesWhole lib (initialConfig env path) file →
      env'.homeVariable = env.homeVariable → env'.userDirectory = env.userDirectory →
      env'.file path = (saveToFile lib (initialConfig env path) file).2 →
      { handleConfigFile lib env' path with configFile := "" } =
        { handleConfigFile lib env path with configFile := "" } := by
  refine ⟨fun config file env => loadFromFile_of_saved, ?_⟩
  rintro file env env' hundoes rfl hempty htakes hhome huser hfile'
  rw [handleConfigFile_of_empty (read?_of_empty hempty)]
  by_cases hempty' : (env'.file path).read?.getD "" = ""
  · -- the second start finds nothing that it can read, and does what the first one did
    rw [handleConfigFile_of_empty hempty', initialConfig_congr hhome huser, hfile',
      saveToFile_again]
  · have hsaved : (saveToFile lib (initialConfig env path) (env.file path)).1 = true := by
      by_contra hnot
      rw [Bool.not_eq_true] at hnot
      refine hempty' (read?_of_empty ?_)
      rw [hfile', content_of_not_saved hempty hnot]
    have hreadable : (env'.file path).readable = true := by
      by_contra hnot
      exact hempty' (by rw [ConfigFile.read?, if_neg hnot]; rfl)
    have hload := loadFromFile_of_saved hundoes (representable_initialConfig env path) hsaved
      htakes ((read?_of_readable hreadable).trans (by rw [hfile']))
    rw [if_pos hsaved, handleConfigFile, if_neg hempty', hload]

/-- The surroundings of a program that finds the same file everywhere. -/
def finding (file : ConfigFile) : Environment where
  homeVariable := some "/home/user"
  userDirectory := none
  pathExists _ := .ok true
  file _ := file

/-- An empty file that can be read and takes everything that is written to it. -/
def emptyFile : ConfigFile := ⟨some "", true, true, none⟩

theorem load_of_save_emptyFile :
    let path := "/home/user/.config/ip_local/config.json"
    let first := finding emptyFile
    let config := initialConfig first path
    let lib := readingBack (toJson config)
    ∃ saved, saved = (saveToFile lib config emptyFile).2 ∧
      loadFromFile lib (finding saved) path = .ok { config with configFile := "" } ∧
        { handleConfigFile lib (finding saved) path with configFile := "" } =
          { handleConfigFile lib first path with configFile := "" } := by
  intro path first config lib
  have hundoes : lib.Undoes (toJson config) := undoes_readingBack _
  have hutf8 : ∀ f : TextField, Json.validUtf8 (f.value config) = true := fun f => by
    cases f <;> exact Json.validUtf8_of_ascii (by decide +kernel)
  -- what was written is not looked at
  obtain ⟨saved, hsaved⟩ : ∃ saved, saved = (saveToFile lib config emptyFile).2 := ⟨_, rfl⟩
  have htakes : TakesWhole lib config emptyFile := fun _ _ _ n hn => by cases hn
  have hread : saved.read? = (saveToFile lib config emptyFile).2.content := by
    rw [hsaved]
    exact read?_of_readable readable_saveToFile
  obtain ⟨hload, hstart⟩ := load_of_save lib path
  refine ⟨saved, hsaved, ?_, ?_⟩
  · exact hload config emptyFile (finding saved) hundoes (representable_initialConfig first path)
      (saveToFile_eq_true.2 ⟨rfl, hutf8⟩) htakes hread
  · exact hstart emptyFile first (finding saved) hundoes rfl rfl htakes rfl rfl hsaved

end IpServer.ConfigParser
