import IpServer.Config.Fields
import IpServer.JsonObject

/-!
# The document that is saved

`save_to_file` writes the configuration as a JSON object. Its members are listed once
(`members`), so that a key is looked up in a list. The object can be printed exactly if
the texts of the configuration are UTF-8, whatever they are; so a configuration is saved
exactly if they are and the file opens (`saveToFile_eq_true`).

* `TextField.get?_toJson`: under the key of a text stands its value.
* `isUtf8Text_toJson_iff`: which configurations can be printed.
* `saveToFile_of_closed`, `saveToFile_of_error`, `saveToFile_of_ok`: the file afterwards.
* `readingBack`: a library that reads the text of one document, and no other.
-/

namespace IpServer

namespace JsonLibrary

/-- The library with another parser. -/
def withParser (lib : JsonLibrary) (f : String → Except String Json) : JsonLibrary :=
  { lib with parse := f, extract := f }

variable (lib : JsonLibrary) (f : String → Except String Json)

mutual

/-- The parser has no part in writing. -/
theorem dumpIndented_withParser : ∀ (level : ℕ) (j : Json),
    (lib.withParser f).dumpIndented level j = lib.dumpIndented level j
  | level, .array items => by
    rw [dumpIndented, dumpIndented, dumpIndentedItems_withParser (level + 2) items]
  | level, .object ms => by
    rw [dumpIndented, dumpIndented, dumpIndentedMembers_withParser (level + 2) ms]
  | _, .null => rfl
  | _, .boolean _ => rfl
  | _, .integer _ => rfl
  | _, .unsigned _ => rfl
  | _, .float _ => rfl
  | _, .string _ => rfl

theorem dumpIndentedItems_withParser : ∀ (level : ℕ) (items : List Json),
    (lib.withParser f).dumpIndentedItems level items = lib.dumpIndentedItems level items
  | _, [] => rfl
  | level, j :: js => by
    rw [dumpIndentedItems, dumpIndentedItems, dumpIndented_withParser level j,
      dumpIndentedItems_withParser level js]

theorem dumpIndentedMembers_withParser : ∀ (level : ℕ) (ms : List (String × Json)),
    (lib.withParser f).dumpIndentedMembers level ms = lib.dumpIndentedMembers level ms
  | _, [] => rfl
  | level, (k, j) :: ms => by
    have hkey : (lib.withParser f).dumpString k = lib.dumpString k := rfl
    rw [dumpIndentedMembers, dumpIndentedMembers, hkey, dumpIndented_withParser level j,
      dumpIndentedMembers_withParser level ms]

end

end JsonLibrary

namespace ConfigParser

/-! ## The members -/

/-- The members of the object that `save_to_file` writes. -/
def members (config : ServerConfig) : List (String × Json) :=
  [("host", .string config.host),
    ("port", .unsigned (UInt64.ofNat config.port.toNat)),
    ("city_db", .string config.cityDbPath),
    ("asn_db", .string config.asnDbPath),
    ("oui_db", .string config.ouiDbPath),
    ("threads", .integer (Int64.ofInt config.threadPoolSize)),
    ("enable_rate_limiter", .boolean config.enableRateLimiter),
    ("max_requests_per_minute", .integer (Int64.ofInt config.maxRequestsPerMinute)),
    ("max_batch_size", .integer (Int64.ofInt config.maxBatchSize)),
    ("enable_api_auth", .boolean config.enableApiAuth),
    ("api_keys_file", .string config.apiKeysFile)] ++
  (if config.defaultApiKey = "" then [] else [("default_api_key", .string config.defaultApiKey)]) ++
  [("enable_file_logging", .boolean config.enableFileLogging),
    ("log_file", .string config.logFilePath),
    ("log_enable_stdout", .boolean config.logEnableStdout),
    ("log_rotation", .string config.logRotationType),
    ("log_max_file_size",
      .unsigned (UInt64.ofNat (config.logMaxFileSize / (1024 * 1024)).toNat)),
    ("log_max_backup_files", .integer (Int64.ofInt config.logMaxBackupFiles)),
    ("log_level", .string config.logLevel)]

variable {lib : JsonLibrary} {config : ServerConfig} {file : ConfigFile}

theorem toJson_eq_update (config : ServerConfig) :
    toJson config = (Json.object []).update (.object (members config)) := by
  rw [toJson, members]
  split
  · rfl
  · rfl

theorem nodup_members (config : ServerConfig) : ((members config).map Prod.fst).Nodup := by
  rw [members]
  split
  · simp
  · simp

/-- What is assigned is read. -/
theorem get?_toJson {key : String} {value : Json} (h : (key, value) ∈ members config) :
    (toJson config).get? key = some value := by
  rw [toJson_eq_update]
  exact Json.get?_update_of_mem (nodup_members config) h []

/-- An empty key is not written. -/
theorem get?_toJson_defaultApiKey (h : config.defaultApiKey = "") :
    (toJson config).get? "default_api_key" = none := by
  rw [toJson_eq_update, Json.get?_update_of_notMem _ []]
  · rfl
  · simp [members, h]

/-- A text is written under its key, unless it is the empty key of the programming interface. -/
theorem TextField.get?_toJson (f : TextField) (config : ServerConfig) :
    (toJson config).get? f.key = none ∧ f.value config = f.value {} ∨
      (toJson config).get? f.key = some (.string (f.value config)) := by
  cases f with
  | defaultApiKey =>
    by_cases hempty : config.defaultApiKey = ""
    · exact .inl ⟨get?_toJson_defaultApiKey hempty, hempty⟩
    · exact .inr (ConfigParser.get?_toJson (by simp [members, key, value, hempty]))
  | host | cityDb | asnDb | ouiDb | apiKeysFile | logFile | logRotation | logLevel =>
    exact .inr (ConfigParser.get?_toJson (by simp [members, key, value]))

/-! ## Texts that can be printed -/

/-- The texts that are built in are UTF-8. -/
theorem TextField.validUtf8_default (f : TextField) : Json.validUtf8 (f.value {}) = true := by
  cases f <;> exact Json.validUtf8_of_ascii (by decide +kernel)

/-- A configuration can be written if its texts are UTF-8. -/
theorem isUtf8Text_toJson (h : ∀ f : TextField, Json.validUtf8 (f.value config) = true) :
    (toJson config).isUtf8Text = true := by
  have htext : ∀ f : TextField, Json.validUtf8 f.key = true := fun f => by
    cases f <;> exact Json.validUtf8_of_ascii (by decide)
  have hflag : ∀ f : FlagField, Json.validUtf8 f.key = true := fun f => by
    cases f <;> exact Json.validUtf8_of_ascii (by decide)
  have hnumber : ∀ f : NumberField, Json.validUtf8 f.key = true := fun f => by
    cases f <;> exact Json.validUtf8_of_ascii (by decide)
  have hmembers : ∀ m ∈ members config, Json.validUtf8 m.1 = true ∧ m.2.isUtf8Text = true := by
    have hkey : ∀ m ∈ if config.defaultApiKey = "" then []
        else [("default_api_key", Json.string config.defaultApiKey)],
        Json.validUtf8 m.1 = true ∧ m.2.isUtf8Text = true := by
      split
      · exact List.forall_mem_nil _
      · exact List.forall_mem_singleton.2 ⟨htext .defaultApiKey, h .defaultApiKey⟩
    simp only [members, List.forall_mem_append, List.forall_mem_cons]
    exact ⟨⟨⟨⟨htext .host, h .host⟩, ⟨hnumber .port, rfl⟩, ⟨htext .cityDb, h .cityDb⟩,
      ⟨htext .asnDb, h .asnDb⟩, ⟨htext .ouiDb, h .ouiDb⟩, ⟨hnumber .threads, rfl⟩,
      ⟨hflag .enableRateLimiter, rfl⟩, ⟨hnumber .maxRequestsPerMinute, rfl⟩,
      ⟨hnumber .maxBatchSize, rfl⟩, ⟨hflag .enableApiAuth, rfl⟩,
      ⟨htext .apiKeysFile, h .apiKeysFile⟩, List.forall_mem_nil _⟩, hkey⟩,
      ⟨hflag .enableFileLogging, rfl⟩, ⟨htext .logFile, h .logFile⟩,
      ⟨hflag .logEnableStdout, rfl⟩, ⟨htext .logRotation, h .logRotation⟩,
      ⟨hnumber .logMaxFileSize, rfl⟩, ⟨hnumber .logMaxBackupFiles, rfl⟩,
      ⟨htext .logLevel, h .logLevel⟩, List.forall_mem_nil _⟩
  have hobject := (Json.Object.mono ⟨[], rfl, List.Pairwise.nil, List.forall_mem_nil _⟩
    fun _ => id).update_members hmembers
  rw [← toJson_eq_update] at hobject
  exact hobject.isUtf8Text_iff.2 hobject

/-- A configuration can be written exactly if its texts are UTF-8. -/
theorem isUtf8Text_toJson_iff : (toJson config).isUtf8Text = true ↔
    ∀ f : TextField, Json.validUtf8 (f.value config) = true := by
  refine ⟨fun h f => ?_, isUtf8Text_toJson⟩
  have hobject : Json.Object (fun _ => True) (toJson config) := by
    rw [toJson_eq_update]
    exact Json.Object.update_members ⟨[], rfl, List.Pairwise.nil, List.forall_mem_nil _⟩
      fun _ _ => trivial
  rcases f.get?_toJson config with ⟨-, hvalue⟩ | hget
  · -- the one text that is not written is empty
    rw [hvalue]
    exact f.validUtf8_default
  · have hmember := (hobject.isUtf8Text_iff.1 h).get? hget
    rw [← hmember.2, Json.isUtf8Text]

theorem dumpIndented_toJson_eq_ok : (∃ text, lib.dumpIndented 0 (toJson config) = .ok text) ↔
    ∀ f : TextField, Json.validUtf8 (f.value config) = true :=
  (JsonLibrary.dumpIndented_eq_ok 0 _).trans isUtf8Text_toJson_iff

theorem dumpIndented_toJson_eq_error
    (h : ∃ f : TextField, Json.validUtf8 (f.value config) = false) :
    ∃ e, lib.dumpIndented 0 (toJson config) = .error e := by
  obtain ⟨f, hf⟩ := h
  rcases hdump : lib.dumpIndented 0 (toJson config) with e | text
  · exact ⟨e, rfl⟩
  · have hutf8 := dumpIndented_toJson_eq_ok.1 ⟨text, hdump⟩ f
    rw [hf] at hutf8
    cases hutf8

/-! ## The file afterwards -/

theorem read?_of_readable (h : file.readable = true) : file.read? = file.content := if_pos h

/-- Saving does not change whether a file can be read. -/
theorem readable_saveToFile : (saveToFile lib config file).2.readable = file.readable := by
  rw [saveToFile]
  split
  · rfl
  · split <;> rfl

/-- Nor does it change whether the file opens. -/
theorem opensForWriting_saveToFile :
    (saveToFile lib config file).2.opensForWriting = file.opensForWriting := by
  rw [saveToFile]
  split
  · rfl
  · split <;> rfl

theorem saveToFile_of_closed (h : file.opensForWriting = false) :
    saveToFile lib config file = (false, file) := by
  rw [saveToFile, h]
  rfl

theorem saveToFile_of_error (h : file.opensForWriting = true) {e : Exn}
    (hdump : lib.dumpIndented 0 (toJson config) = .error e) :
    saveToFile lib config file = (false, { file with content := some "" }) := by
  rw [saveToFile, h, hdump]
  rfl

/-- What arrives of a text and the end of its line. -/
def arrived (text : String) : Option ℕ → String
  | none => text ++ "\n"
  | some n => String.ofList ((text ++ "\n").toList.take n)

theorem saveToFile_of_ok (h : file.opensForWriting = true) {text : String}
    (hdump : lib.dumpIndented 0 (toJson config) = .ok text) : saveToFile lib config file =
      (true, { file with content := some (arrived text file.accepts) }) := by
  rw [saveToFile, h, hdump]
  rcases haccepts : file.accepts with _ | n
  · simp only [Bool.not_true, Bool.false_eq_true, if_false, String.ofList_toList, arrived]
  · rfl

/-- A configuration is saved exactly if the file opens and the texts are UTF-8. -/
theorem saveToFile_eq_true : (saveToFile lib config file).1 = true ↔
    file.opensForWriting = true ∧ ∀ f : TextField, Json.validUtf8 (f.value config) = true := by
  rw [← @dumpIndented_toJson_eq_ok lib, saveToFile]
  cases hopens : file.opensForWriting with
  | false => exact iff_of_false Bool.false_ne_true fun h => Bool.false_ne_true h.1
  | true =>
    cases lib.dumpIndented 0 (toJson config) with
    | error e => exact iff_of_false Bool.false_ne_true fun ⟨_, _, h⟩ => nomatch h
    | ok text => exact iff_of_true rfl ⟨rfl, text, rfl⟩

/-! ## The defaults -/

/-- The configuration that is saved to an empty file. -/
def initialConfig (env : Environment) (path : String) : ServerConfig :=
  { applyDefaultPaths env {} with configFile := path }

/-- The paths that are computed at the start. -/
def defaultPaths (env : Environment) : List String :=
  [Paths.cityDbPath env, Paths.asnDbPath env, Paths.ouiDbPath env, Paths.logFilePath env]

/-- The defaults are saved exactly if the file opens and the default paths are UTF-8. -/
theorem saveToFile_initialConfig {env : Environment} {path : String} :
    (saveToFile lib (initialConfig env path) file).1 = true ↔ file.opensForWriting = true ∧
      ∀ path ∈ defaultPaths env, Json.validUtf8 path = true := by
  rw [saveToFile_eq_true]
  refine and_congr_right fun _ => ?_
  rw [defaultPaths, List.forall_mem_cons, List.forall_mem_cons, List.forall_mem_cons,
    List.forall_mem_singleton]
  refine ⟨fun h => ⟨h .cityDb, h .asnDb, h .ouiDb, h .logFile⟩, ?_⟩
  rintro ⟨hcity, hasn, houi, hlog⟩ f
  cases f with
  | cityDb => exact hcity
  | asnDb => exact hasn
  | ouiDb => exact houi
  | logFile => exact hlog
  | host => exact TextField.validUtf8_default .host
  | apiKeysFile => exact TextField.validUtf8_default .apiKeysFile
  | defaultApiKey => exact TextField.validUtf8_default .defaultApiKey
  | logRotation => exact TextField.validUtf8_default .logRotation
  | logLevel => exact TextField.validUtf8_default .logLevel

/-! ## Reading back -/

/-- A library that reads the text of one value, with or without the end of the line. -/
def readingBack (j : Json) : JsonLibrary :=
  JsonLibrary.sample.withParser fun s =>
    match JsonLibrary.sample.dumpIndented 0 j with
    | .error _ => .error "parse error"
    | .ok text => if s ∈ [text, text ++ "\n"] then .ok j.reparsed else .error "parse error"

/-- What it reads is what was written. -/
theorem undoes_readingBack (j : Json) : (readingBack j).Undoes j := by
  intro text hdump
  rw [readingBack, JsonLibrary.dumpIndented_withParser] at hdump
  have hmem : text ++ "\n" ∈ [text, text ++ "\n"] := List.mem_pair.2 (.inr rfl)
  simp only [readingBack, JsonLibrary.withParser, hdump, if_pos hmem]

end ConfigParser

end IpServer
