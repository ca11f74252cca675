import IpServer.Config.Document
import Mathlib.Tactic.ByContra

/-!
# Layers of the configuration

The configuration is meant to have three layers: what the command line gives
comes before what the file gives, and this before the defaults (`Layered`). The
defaults of four fields, the paths of the databases and of the log, are computed
at the start (`applyDefaultPaths`); but whenever a configuration file exists,
unless it is empty and the defaults are saved to it, the configuration is started
again without them. So the layers are respected exactly if that is not the case
or each of the four paths is given (`layered_iff`).
-/

namespace IpServer

namespace ConfigParser

namespace TextField

/-- What the command line gives for the field. -/
def cli (result : ParseResult) : TextField → Option String
  | host => result.host
  | cityDb => result.cityDb
  | asnDb => result.asnDb
  | ouiDb => result.ouiDb
  | apiKeysFile => result.apiKeysFile
  | defaultApiKey => result.defaultApiKey
  | logFile => result.logFile
  | logRotation => result.logRotation
  | logLevel => result.logLevel

/-- What the file gives for the field. -/
def written (j : Json) (f : TextField) : Option String :=
  match j.get? f.key with
  | some (.string s) => some s
  | _ => none

/-- The fields whose default is computed at the start. -/
def hasDefaultPath : TextField → Bool
  | cityDb | asnDb | ouiDb | logFile => true
  | host | apiKeysFile | defaultApiKey | logRotation | logLevel => false

end TextField

namespace FlagField

/-- What the command line gives for the field; a log file enables file logging. -/
def cli (result : ParseResult) : FlagField → Option Bool
  | enableRateLimiter => result.enableRateLimiter.map parseBoolString
  | enableApiAuth => result.enableApiAuth.map parseBoolString
  | enableFileLogging =>
    if result.logFile.isSome then some true else result.enableFileLogging.map parseBoolString
  | logEnableStdout => result.logEnableStdout.map parseBoolString

/-- What the file gives for the field. -/
def written (j : Json) (f : FlagField) : Option Bool :=
  match j.get? f.key with
  | some (.boolean b) => some b
  | some (.string s) => some (parseBoolString s)
  | _ => none

end FlagField

namespace NumberField

/-- What the command line gives for the field. -/
def cli (result : ParseResult) : NumberField → Option ℤ
  | port => result.port
  | threads => result.threads
  | maxRequestsPerMinute => result.maxRequestsPerMinute
  | maxBatchSize => result.maxBatchSize
  | logMaxFileSize => result.logMaxSize
  | logMaxBackupFiles => result.logMaxBackups

/-- How a number on the command line is stored in the field. -/
def stored (n : ℤ) : NumberField → ℤ
  | logMaxFileSize => toSize (n * 1024 * 1024)
  | port | threads | maxRequestsPerMinute | maxBatchSize | logMaxBackupFiles => n

/-- What the file gives for the field. -/
def written (j : Json) (f : NumberField) : Option ℤ :=
  match j.get? f.key with
  | some (.integer n) => some n.toInt
  | some (.unsigned n) => some n.toNat
  | some (.string s) => (stoll s).toOption
  | _ => none

end NumberField

/-- A file whose values have the types and ranges that are accepted. -/
structure Accepted (j : Json) : Prop where
  text : ∀ f : TextField, j.contains f.key → (f.written j).isSome
  flag : ∀ f : FlagField, j.contains f.key → (f.written j).isSome
  number : ∀ f : NumberField, j.contains f.key → ∃ n, f.written j = some n ∧ f.fits n

/-- Every field holds what the command line gives, or else the file, or else the start; the
    numbers given count in the units of their fields. -/
structure Layered (start : ServerConfig) (file : Option Json) (result : ParseResult)
    (config : ServerConfig) : Prop where
  text : ∀ f : TextField,
    f.value config = ((f.cli result).or (file.bind f.written)).getD (f.value start)
  flag : ∀ f : FlagField,
    f.value config = ((f.cli result).or (file.bind f.written)).getD (f.value start)
  number : ∀ f : NumberField, f.value config =
    (((f.cli result).or (file.bind f.written)).map (· * f.unit)).getD (f.value start)

variable (lib : JsonLibrary) (env : Environment) (result : ParseResult)

/-- The path of the configuration file. -/
def configPath : String := result.config.getD (Paths.configFile env)

/-- The configuration file is there. -/
def Consulted : Prop :=
  configPath env result ≠ "" ∧ (env.pathExists (configPath env result)).toOption = some true

instance : Decidable (Consulted env result) := inferInstanceAs (Decidable (_ ∧ _))

/-- What is read from the configuration file, if it is there and can be parsed. -/
def loadedFile : Option Json :=
  if Consulted env result then
    (env.file (configPath env result)).read?.bind fun text =>
      if text = "" then none else (lib.extract text).toOption
  else none

/-- The file is empty, or cannot be read, but opens for writing, and the default paths are UTF-8:
    then the defaults are saved to it. -/
def SavesDefaults : Prop :=
  (env.file (configPath env result)).read?.getD "" = "" ∧
    (env.file (configPath env result)).opensForWriting = true ∧
      ∀ path ∈ defaultPaths env, Json.validUtf8 path = true

instance : Decidable (SavesDefaults env result) := inferInstanceAs (Decidable (_ ∧ _ ∧ _))

variable {lib env result} {j : Json} {config : ServerConfig}

/-! ### Reading an accepted file -/

theorem contains_of_get? {key : String} {v : Json} (h : j.get? key = some v) : j.contains key := by
  rw [Json.contains, h]
  rfl

theorem TextField.read_eq (h : Accepted j) (f : TextField) (field : String) :
    readStr j f.key field = .ok ((f.written j).getD field) := by
  cases hget : j.get? f.key with
  | none => simp [readStr, TextField.written, hget]
  | some v =>
    obtain ⟨s, hs⟩ := Option.isSome_iff_exists.1 (h.text f (contains_of_get? hget))
    rw [TextField.written, hget] at hs
    cases v <;> simp_all [readStr, TextField.written]

theorem FlagField.read_eq (h : Accepted j) (f : FlagField) (field : Bool) :
    readBool j f.key field = .ok ((f.written j).getD field) := by
  cases hget : j.get? f.key with
  | none => simp [readBool, FlagField.written, hget]
  | some v =>
    obtain ⟨b, hb⟩ := Option.isSome_iff_exists.1 (h.flag f (contains_of_get? hget))
    rw [FlagField.written, hget] at hb
    cases v <;> simp_all [readBool, FlagField.written]

/-- What the file gives for a number is converted to the field. -/
theorem NumberField.read_written (f : NumberField) {n : ℤ} (hn : f.written j = some n)
    (hfits : f.fits n) (field : ℤ) : f.read j field = .ok (f.convert n) := by
  have hint : ∀ convert, readInt convert j f.key field = .ok (convert n) := fun convert => by
    rcases hget : j.get? f.key with _ | v <;> rw [NumberField.written, hget] at hn
    · cases hn
    rw [readInt, hget]
    cases v with
    | integer m | unsigned m => simp_all
    | string s => exact congrArg (Except.map convert) (toOption_eq_some.1 hn)
    | _ => cases hn
  cases f with
  | port | threads | maxRequestsPerMinute | maxBatchSize | logMaxBackupFiles => exact hint _
  | logMaxFileSize =>
    have hrange : 0 ≤ n ∧ n < 2 ^ 44 := hfits
    have hsize : toSize n = n := toSize_eq_self.2 (by omega)
    rw [NumberField.written, NumberField.key] at hn
    rw [NumberField.read, readLogMaxFileSize, NumberField.convert, hsize]
    split at hn
    · next hget =>
      rw [Option.some_inj] at hn
      simp only [hget, hn, hsize]
      rfl
    · next hget =>
      rw [Option.some_inj] at hn
      simp only [hget, hn, hsize]
      rfl
    · next hget =>
      simp only [hget, stoull_of_stoll (toOption_eq_some.1 hn) hrange.1]
      rfl
    · cases hn

theorem NumberField.read_eq (h : Accepted j) (f : NumberField) (field : ℤ) :
    f.read j field = .ok (((f.written j).map (· * f.unit)).getD field) := by
  cases hget : j.get? f.key with
  | none =>
    cases f <;> simp_all [NumberField.read, readInt, readLogMaxFileSize, NumberField.written,
      NumberField.key]
  | some v =>
    obtain ⟨n, hn, hfits⟩ := h.number f (contains_of_get? hget)
    rw [f.read_written hn hfits, hn, Option.map_some, Option.getD_some,
      (f.convert_eq_iff n).2 hfits]

/-- An accepted file can be loaded: a field holds what the file gives, or else what it held. -/
theorem fromJson_of_accepted (h : Accepted j) (config : ServerConfig) :
    ∃ config', fromJson config j = .ok config' ∧ Layered config (some j) {} config' := by
  have htext := fun f : TextField => f.read_eq h
  have hflag := fun f : FlagField => f.read_eq h
  have hnumber := fun f : NumberField => f.read_eq h
  have hok : ∃ config', fromJson config j = .ok config' := by
    simp only [fromJson, bind_eq_ok, pure_eq_ok]
    exact ⟨_, _, htext .host _, _, hnumber .port _, _, htext .cityDb _, _, htext .asnDb _,
      _, htext .ouiDb _, _, hnumber .threads _, _, hflag .enableRateLimiter _,
      _, hnumber .maxRequestsPerMinute _, _, hnumber .maxBatchSize _, _, hflag .enableApiAuth _,
      _, htext .apiKeysFile _, _, htext .defaultApiKey _, _, hflag .enableFileLogging _,
      _, htext .logFile _, _, hflag .logEnableStdout _, _, htext .logRotation _,
      _, htext .logLevel _, _, hnumber .logMaxFileSize _, _, hnumber .logMaxBackupFiles _, rfl⟩
  obtain ⟨config', hconfig'⟩ := hok
  have hreads := reads_of_fromJson hconfig'
  refine ⟨config', hconfig', fun f => ?_, fun f => ?_, fun f => ?_⟩
  · have hread := hreads.text f
    rw [htext, Except.ok.injEq] at hread
    cases f <;> exact hread.symm
  · have hread := hreads.flag f
    rw [hflag, Except.ok.injEq] at hread
    cases f <;> exact hread.symm
  · have hread := hreads.number f
    rw [hnumber, Except.ok.injEq] at hread
    cases f <;> exact hread.symm

/-! ### The layers below the command line -/

/-- The defaults are lost: the file is there, and it is not the case that it is empty and
    the defaults are saved to it. -/
def LosesDefaults (env : Environment) (result : ParseResult) : Prop :=
  Consulted env result ∧ ¬SavesDefaults env result

instance : Decidable (LosesDefaults env result) := inferInstanceAs (Decidable (_ ∧ _))

/-- Where the layers start from. -/
def start (env : Environment) (result : ParseResult) : ServerConfig :=
  if LosesDefaults env result then {} else applyDefaultPaths env {}

/-- The path of the configuration file is not one of the fields. -/
theorem layered_with_configFile (config : ServerConfig) (path : String) :
    Layered config none {} { config with configFile := path } := by
  refine ⟨fun f => ?_, fun f => ?_, fun f => ?_⟩ <;> cases f <;> rfl

theorem handleConfigFile_layered (hfile : ∀ j, loadedFile lib env result = some j → Accepted j)
    (hcons : Consulted env result) :
    Layered (start env result) (loadedFile lib env result) {}
      (handleConfigFile lib env (configPath env result)) := by
  have hloaded : loadedFile lib env result =
      (env.file (configPath env result)).read?.bind fun text =>
        if text = "" then none else (lib.extract text).toOption := if_pos hcons
  rw [handleConfigFile]
  by_cases hempty : (env.file (configPath env result)).read?.getD "" = ""
  · have hnone : loadedFile lib env result = none := by
      rw [hloaded]
      cases hread : (env.file (configPath env result)).read? with
      | none => rfl
      | some text =>
        rw [hread] at hempty
        exact if_pos hempty
    have hsaves := @saveToFile_initialConfig lib (env.file (configPath env result)) env
      (configPath env result)
    rw [initialConfig] at hsaves
    rw [if_pos hempty, hnone]
    -- there is no file yet: the defaults are kept if they can be saved
    by_cases hsaved : (saveToFile lib
        { applyDefaultPaths env {} with configFile := configPath env result }
        (env.file (configPath env result))).1 = true
    · rw [start, if_neg fun h => h.2 ⟨hempty, hsaves.1 hsaved⟩]
      simp only [hsaved, if_true]
      exact layered_with_configFile _ _
    · rw [start, if_pos ⟨hcons, fun h => hsaved (hsaves.2 h.2)⟩]
      simp only [hsaved]
      exact layered_with_configFile {} ""
  · rw [if_neg hempty, start, if_pos ⟨hcons, fun h => hempty h.1⟩, loadFromFile]
    cases hread : (env.file (configPath env result)).read? with
    | none => exact absurd (by rw [hread]; rfl) hempty
    | some text =>
      rw [hread, Option.getD_some] at hempty
      rw [hread, Option.bind_some, if_neg hempty] at hloaded
      -- a file that is no JSON counts as none, and the defaults are lost
      cases hextract : lib.extract text with
      | error what =>
        rw [hextract] at hloaded
        simp only [hextract, hloaded]
        exact layered_with_configFile {} ""
      | ok j =>
        rw [hextract] at hloaded
        obtain ⟨config, hconfig, hlayered⟩ := fromJson_of_accepted (hfile j hloaded) {}
        simp only [hextract, hconfig, hloaded]
        exact hlayered

/-- What the command line is applied to. -/
theorem baseConfig_layered (hfile : ∀ j, loadedFile lib env result = some j → Accepted j)
    (h : baseConfig lib env result = .ok config) :
    Layered (start env result) (loadedFile lib env result) {} config := by
  have hdefaults : ¬Consulted env result → config =
      { applyDefaultPaths env {} with configFile := configPath env result } →
      Layered (start env result) (loadedFile lib env result) {} config := by
    rintro hcons rfl
    rw [start, if_neg fun h => hcons h.1, loadedFile, if_neg hcons]
    exact layered_with_configFile _ _
  rw [baseConfig] at h
  split at h
  · next hpath => exact hdefaults (fun hcons => hcons.1 hpath) (pure_eq_ok.1 h).symm
  · next hpath =>
    obtain ⟨found, hfound, h⟩ := bind_eq_ok.1 h
    have hconfigPath : env.pathExists (configPath env result) = .ok found := hfound
    cases found with
    | true =>
      rw [if_pos rfl] at h
      obtain rfl := pure_eq_ok.1 h
      exact handleConfigFile_layered hfile ⟨hpath, by rw [hconfigPath]; rfl⟩
    | false =>
      refine hdefaults (fun hcons => ?_) (pure_eq_ok.1 h).symm
      rw [Consulted, hconfigPath] at hcons
      exact absurd (Option.some_inj.1 hcons.2) Bool.false_ne_true

theorem parse_eq_ok (h : parse lib env (.ok result) = .ok (some config)) :
    ∃ base, baseConfig lib env result = .ok base ∧ config = applyCliOverrides result base := by
  simp only [parse] at h
  split at h
  · exact absurd (pure_eq_ok.1 h) (by simp)
  · obtain ⟨base, hbase, h⟩ := bind_eq_ok.1 h
    obtain ⟨_, -, h⟩ := bind_eq_ok.1 h
    exact ⟨base, hbase, (Option.some_inj.1 (pure_eq_ok.1 h)).symm⟩

/-! ### The layers -/

theorem text_cli (f : TextField) (base : ServerConfig) :
    f.value (applyCliOverrides result base) = (f.cli result).getD (f.value base) := by
  cases f <;> rfl

theorem flag_cli (f : FlagField) (base : ServerConfig) :
    f.value (applyCliOverrides result base) = (f.cli result).getD (f.value base) := by
  cases f with
  | enableFileLogging =>
    simp only [FlagField.value, FlagField.cli, applyCliOverrides]
    split <;> rfl
  | enableRateLimiter | enableApiAuth | logEnableStdout => rfl

theorem number_cli (f : NumberField) (base : ServerConfig) :
    f.value (applyCliOverrides result base) =
      ((f.cli result).map f.stored).getD (f.value base) := by
  cases f with
  | logMaxFileSize => rfl
  | port | threads | maxRequestsPerMinute | maxBatchSize | logMaxBackupFiles =>
    simp only [NumberField.value, NumberField.cli, NumberField.stored, applyCliOverrides,
      Option.map_id']

/-- What the command line and the layers below give, together. -/
theorem applyCliOverrides_text {start base : ServerConfig} {file : Option Json}
    (h : Layered start file {} base) (f : TextField) : f.value (applyCliOverrides result base) =
      ((f.cli result).or (file.bind f.written)).getD (f.value start) := by
  rw [text_cli, h.text]
  cases f.cli result with
  | some s => rfl
  | none => cases f <;> rfl

theorem applyCliOverrides_flag {start base : ServerConfig} {file : Option Json}
    (h : Layered start file {} base) (f : FlagField) : f.value (applyCliOverrides result base) =
      ((f.cli result).or (file.bind f.written)).getD (f.value start) := by
  rw [flag_cli, h.flag]
  cases f.cli result with
  | some b => rfl
  | none => cases f <;> rfl

theorem applyCliOverrides_number {start base : ServerConfig} {file : Option Json}
    (h : Layered start file {} base) (f : NumberField) :
    f.value (applyCliOverrides result base) =
      (((f.cli result).map f.stored).or ((file.bind f.written).map (· * f.unit))).getD
        (f.value start) := by
  rw [number_cli, h.number]
  cases f.cli result with
  | some n => rfl
  | none => cases f <;> rfl

/-- A log size on the command line is kept exactly if its number of bytes fits. -/
theorem stored_logMaxFileSize_iff (n : ℤ) :
    NumberField.logMaxFileSize.stored n = n * NumberField.logMaxFileSize.unit ↔
      0 ≤ n ∧ n < 2 ^ 44 := by
  simp only [NumberField.stored, NumberField.unit, toSize]
  omega

/-- A number on the command line is kept, if a log size has a number of bytes that fits. -/
theorem stored_eq (hsize : ∀ n, result.logMaxSize = some n → 0 ≤ n ∧ n < 2 ^ 44) (f : NumberField)
    {n : ℤ} (hn : f.cli result = some n) : f.stored n = n * f.unit := by
  cases f with
  | logMaxFileSize => exact (stored_logMaxFileSize_iff n).2 (hsize n hn)
  | port | threads | maxRequestsPerMinute | maxBatchSize | logMaxBackupFiles =>
    exact (Int.mul_one n).symm

theorem length_join_ge (a b : String) : a.length + b.length ≤ (Paths.join a b).length := by
  rw [Paths.join]
  split
  · exact Nat.le_of_eq (String.length_append a b).symm
  · rw [String.length_append, String.length_append]
    omega

/-- A field starts with its default even if the defaults are lost, except for the paths. -/
theorem start_text (f : TextField) :
    f.value {} = f.value (applyDefaultPaths env {}) ↔ f.hasDefaultPath = false := by
  have hne : ∀ dir name : String, "".length < name.length → "" ≠ Paths.join dir name :=
    fun dir name hname heq => by
      have hlen := length_join_ge dir name
      rw [← heq] at hlen
      omega
  have hlog : "logs/ip_server.log" ≠ Paths.logFilePath env := fun heq => by
    have hlen := length_join_ge (Paths.join (Paths.baseDir env) "logs") "ip_server.log"
    have hlogs := length_join_ge (Paths.baseDir env) "logs"
    have hbase := length_join_ge (Paths.join (Paths.getHome env) ".config") "ip_local"
    have hhome := length_join_ge (Paths.getHome env) ".config"
    rw [Paths.logFilePath] at heq
    rw [← heq] at hlen
    simp only [Paths.baseDir] at hlen hlogs
    have h₁ : "logs/ip_server.log".length = 18 := by decide
    have h₂ : "ip_server.log".length = 13 := by decide
    have h₃ : ".config".length = 7 := by decide
    omega
  cases f with
  | cityDb => exact iff_of_false (hne _ _ (by decide)) (by decide)
  | asnDb => exact iff_of_false (hne _ _ (by decide)) (by decide)
  | ouiDb => exact iff_of_false (hne _ _ (by decide)) (by decide)
  | logFile => exact iff_of_false hlog (by decide)
  | host | apiKeysFile | defaultApiKey | logRotation | logLevel => exact iff_of_true rfl rfl

/-- The layers are respected exactly if the defaults are not lost or each path that has a
    default is given, and a log size on the command line has a number of bytes that fits. -/
theorem layered_iff (hfile : ∀ j, loadedFile lib env result = some j → Accepted j)
    (hparse : parse lib env (.ok result) = .ok (some config)) :
    Layered (applyDefaultPaths env {}) (loadedFile lib env result) result config ↔
      (¬LosesDefaults env result ∨ ∀ f : TextField, f.hasDefaultPath →
        ((f.cli result).or ((loadedFile lib env result).bind f.written)).isSome) ∧
      ∀ n, result.logMaxSize = some n → 0 ≤ n ∧ n < 2 ^ 44 := by
  obtain ⟨base, hbase, rfl⟩ := parse_eq_ok hparse
  have hlayers := baseConfig_layered hfile hbase
  constructor
  · intro h
    refine ⟨?_, fun n hn => ?_⟩
    · by_cases hlost : LosesDefaults env result
      · refine .inr fun f hpath => ?_
        have hvalue := (applyCliOverrides_text hlayers f).symm.trans (h.text f)
        rw [start, if_pos hlost] at hvalue
        rw [Option.isSome_iff_ne_none]
        intro hnone
        rw [hnone] at hvalue
        exact absurd (start_text f |>.1 hvalue) (by rw [hpath]; decide)
      · exact .inl hlost
    · have hvalue := (applyCliOverrides_number hlayers .logMaxFileSize).symm.trans
        (h.number .logMaxFileSize)
      have hcli : NumberField.logMaxFileSize.cli result = some n := hn
      rw [hcli] at hvalue
      exact (stored_logMaxFileSize_iff n).1 hvalue
  · rintro ⟨hpaths, hsize⟩
    have hstart : start env result = {} ∨ start env result = applyDefaultPaths env {} :=
      ite_eq_or_eq _ _ _
    refine ⟨fun f => ?_, fun f => ?_, fun f => ?_⟩
    · rw [applyCliOverrides_text hlayers]
      cases hgiven : (f.cli result).or ((loadedFile lib env result).bind f.written) with
      | some s => rfl
      | none =>
        -- the field is not given, so it has no default that could be lost
        by_cases hlost : LosesDefaults env result
        · have hpath : f.hasDefaultPath = false := by
            rcases hpaths with hnot | hall
            · exact absurd hlost hnot
            · by_contra hpath
              have hsome := hall f (by simpa using hpath)
              rw [hgiven] at hsome
              cases hsome
          rw [start, if_pos hlost]
          exact (start_text f).2 hpath
        · rw [start, if_neg hlost]
    · rw [applyCliOverrides_flag hlayers]
      rcases hstart with heq | heq
      · rw [heq]
        cases f <;> rfl
      · rw [heq]
    · rw [applyCliOverrides_number hlayers]
      have hdefault : f.value (start env result) = f.value (applyDefaultPaths env {}) := by
        rcases hstart with heq | heq
        · rw [heq]
          cases f <;> rfl
        · rw [heq]
      cases hn : f.cli result with
      | some n => exact stored_eq hsize f hn
      | none => rw [hdefault]; rfl

/-- A file system in which exactly the configuration file exists, with a text. -/
def withConfigFile (text : String) : Environment where
  homeVariable := some "/home/user"
  userDirectory := none
  pathExists path := .ok (path = "/home/user/.config/ip_local/config.json")
  file _ := ⟨some text, true, true, none⟩

/-- A library that parses one text. -/
def extracting (text : String) (j : Json) : JsonLibrary :=
  JsonLibrary.sample.withParser fun s => if s = text then .ok j else .error "parse error"

/-- The text of a file with the four paths and a port. -/
def pathsText : String :=
  "\x7b\"asn_db\":\"asn.mmdb\",\"city_db\":\"city.mmdb\",\"log_file\":\"server.log\"," ++
    "\"oui_db\":\"oui.db\",\"port\":9000\x7d"

/-- What is in the file. -/
def pathsObject : Json :=
  .object [("asn_db", .string "asn.mmdb"), ("city_db", .string "city.mmdb"),
    ("log_file", .string "server.log"), ("oui_db", .string "oui.db"), ("port", .unsigned 9000)]

/-- The configuration with the paths and the port of the file and a number of threads that was
    given on the command line. -/
def pathsConfig : ServerConfig where
  port := 9000
  cityDbPath := "city.mmdb"
  asnDbPath := "asn.mmdb"
  ouiDbPath := "oui.db"
  threadPoolSize := 8
  logFilePath := "server.log"

theorem layered_pathsFile : Layered (applyDefaultPaths (withConfigFile pathsText) {})
    (some pathsObject) { threads := some 8 } pathsConfig := by
  have hloaded : loadedFile (extracting pathsText pathsObject) (withConfigFile pathsText)
      { threads := some 8 } = some pathsObject := rfl
  have haccepted : Accepted pathsObject := by
    refine ⟨fun f hf => ?_, fun f hf => ?_, fun f hf => ?_⟩
    · cases f with
      | cityDb | asnDb | ouiDb | logFile => rfl
      | _ => cases hf
    · cases f <;> cases hf
    · cases f with
      | port => exact ⟨9000, rfl, by decide, by decide⟩
      | _ => cases hf
  have hparse : parse (extracting pathsText pathsObject) (withConfigFile pathsText)
      (.ok { threads := some 8 }) = .ok (some pathsConfig) := rfl
  have hgiven : ∀ f : TextField, f.hasDefaultPath →
      ((f.cli { threads := some 8 }).or ((some pathsObject).bind f.written)).isSome := by
    intro f hf
    cases f with
    | cityDb | asnDb | ouiDb | logFile => rfl
    | _ => cases hf
  rw [← hloaded] at hgiven ⊢
  refine (layered_iff (fun j hj => ?_) hparse).2 ⟨.inr hgiven, fun n hn => by cases hn⟩
  rw [hloaded] at hj
  obtain rfl := Option.some.inj hj
  exact haccepted

/-- When the file is an empty object, the paths of the databases are lost. -/
theorem not_layered : ¬∀ (lib : JsonLibrary) (env : Environment) (result : ParseResult)
    (config : ServerConfig), (∀ j, loadedFile lib env result = some j → Accepted j) →
      parse lib env (.ok result) = .ok (some config) →
      Layered (applyDefaultPaths env {}) (loadedFile lib env result) result config := by
  intro hall
  have hloaded : loadedFile (extracting "\x7b\x7d" (.object [])) (withConfigFile "\x7b\x7d") {} =
      some (.object []) := rfl
  have hcity := (hall (extracting "\x7b\x7d" (.object [])) (withConfigFile "\x7b\x7d") {} {}
    (fun j hj => by
      rw [hloaded] at hj
      cases hj
      exact ⟨fun f h => (Bool.false_ne_true h).elim, fun f h => (Bool.false_ne_true h).elim,
        fun f h => (Bool.false_ne_true h).elim⟩) rfl).text .cityDb
  rw [hloaded] at hcity
  exact absurd hcity (by decide +kernel)

end ConfigParser

end IpServer
