import IpServer.Conversions
import IpServer.Json
import IpServer.Library.Except

/-!
# The configuration

`ConfigParser::parse` starts from built-in defaults, replaces them by what the
configuration file gives, if there is one, applies the command line, and
validates the result. `Reads` says what each field holds after `from_json`, and
`Limits` what `validate` checks.

The command line comes as the option parser delivers it: for each option its
value, converted to the type of the option, if the option was given
(`ParseResult`). What the program reads of its surroundings (the home directory,
whether a path exists, the contents of a file and what happens when it is
written) is a parameter (`Environment`). Logging has no effect here.
-/

namespace IpServer

/-- The configuration of the server. -/
structure ServerConfig where
  host : String := "0.0.0.0"
  port : ℤ := 8080
  cityDbPath : String := ""
  asnDbPath : String := ""
  ouiDbPath : String := ""
  threadPoolSize : ℤ := 4
  configFile : String := ""
  enableRateLimiter : Bool := true
  maxRequestsPerMinute : ℤ := 100
  maxBatchSize : ℤ := 100
  enableApiAuth : Bool := false
  apiKeysFile : String := ""
  defaultApiKey : String := ""
  enableFileLogging : Bool := false
  logFilePath : String := "logs/ip_server.log"
  logRotationType : String := "size"
  logMaxFileSize : ℤ := 10 * 1024 * 1024
  logMaxBackupFiles : ℤ := 5
  logEnableStdout : Bool := true
  logLevel : String := "info"
  deriving DecidableEq, Repr

/-- The options given on the command line. -/
structure ParseResult where
  help : Bool := false
  config : Option String := none
  cityDb : Option String := none
  asnDb : Option String := none
  ouiDb : Option String := none
  host : Option String := none
  port : Option ℤ := none
  threads : Option ℤ := none
  enableRateLimiter : Option String := none
  maxRequestsPerMinute : Option ℤ := none
  maxBatchSize : Option ℤ := none
  enableApiAuth : Option String := none
  apiKeysFile : Option String := none
  defaultApiKey : Option String := none
  enableFileLogging : Option String := none
  logFile : Option String := none
  logEnableStdout : Option String := none
  logRotation : Option String := none
  logMaxSize : Option ℤ := none
  logMaxBackups : Option ℤ := none
  logLevel : Option String := none

/-- A file: what it holds, nothing if it is not there; whether it can be read; whether it can
    be opened for writing; and how much of what is written to it arrives, if not everything. -/
structure ConfigFile where
  content : Option String
  readable : Bool
  opensForWriting : Bool
  accepts : Option ℕ
  deriving DecidableEq

/-- What is read from a file, if it can be read. -/
def ConfigFile.read? (file : ConfigFile) : Option String :=
  if file.readable then file.content else none

/-- The surroundings of the program. -/
structure Environment where
  /-- the variable `HOME` -/
  homeVariable : Option String
  /-- the home directory in the user database -/
  userDirectory : Option String
  /-- `std::filesystem::exists`, which may throw -/
  pathExists : String → Except Exn Bool
  file : String → ConfigFile

/-! ## Default paths -/

namespace Paths

/-- `a / b`, for a relative path `b`. -/
def join (a b : String) : String :=
  if a = "" ∨ a.toList.getLast? = some '/' then a ++ b else a ++ "/" ++ b

variable (env : Environment)

def getHome : String :=
  match env.homeVariable with
  | some home => home
  | none =>
    match env.userDirectory with
    | some dir => dir
    | none => "/tmp"

def baseDir : String := join (join (getHome env) ".config") "ip_local"
def configFile : String := join (baseDir env) "config.json"
def databaseDir : String := join (baseDir env) "databases"
def cityDbPath : String := join (databaseDir env) "GeoLite2-City.mmdb"
def asnDbPath : String := join (databaseDir env) "GeoLite2-ASN.mmdb"
def ouiDbPath : String := join (databaseDir env) "master_oui.db"
def logFilePath : String := join (join (baseDir env) "logs") "ip_server.log"

end Paths

/-- `applyDefaultPaths`. -/
def applyDefaultPaths (env : Environment) (config : ServerConfig) : ServerConfig :=
  { config with
    cityDbPath := Paths.cityDbPath env
    asnDbPath := Paths.asnDbPath env
    ouiDbPath := Paths.ouiDbPath env
    configFile := Paths.configFile env
    logFilePath := Paths.logFilePath env }

namespace ConfigLimits

def minPort : ℤ := 1
def maxPort : ℤ := 65535
def minThreadPool : ℤ := 1
def maxThreadPool : ℤ := 64
def minRateLimit : ℤ := 1
def maxRateLimit : ℤ := 10000
def minBatchSize : ℤ := 1
def maxBatchSize : ℤ := 1000
def minLogFileSize : ℤ := 1 * 1024 * 1024
def maxLogFileSize : ℤ := 1 * 1024 * 1024 * 1024
def minBackupFiles : ℤ := 0
def maxBackupFiles : ℤ := 100

end ConfigLimits

namespace ConfigParser

/-! ## The configuration file -/

/-- The lambda `readStr` of `from_json`. -/
def readStr (j : Json) (key field : String) : Except Exn String :=
  match j.get? key with
  | none => .ok field
  | some (.string s) => .ok s
  | some v => .error (v.typeError "string")

/-- The lambda `readInt` of `from_json`, for a field whose type `convert` converts to. -/
def readInt (convert : ℤ → ℤ) (j : Json) (key : String) (field : ℤ) : Except Exn ℤ :=
  match j.get? key with
  | some (.integer n) => .ok (convert n.toInt)
  | some (.unsigned n) => .ok (convert n.toNat)
  | some (.string s) => (stoll s).map convert
  | _ => .ok field

/-- The lambda `readBool` of `from_json`. -/
def readBool (j : Json) (key : String) (field : Bool) : Except Exn Bool :=
  match j.get? key with
  | some (.boolean b) => .ok b
  | some (.string s) => .ok (parseBoolString s)
  | _ => .ok field

/-- How `from_json` reads the log size, in units of 2^20 bytes. -/
def readLogMaxFileSize (j : Json) (field : ℤ) : Except Exn ℤ :=
  match j.get? "log_max_file_size" with
  | none => .ok field
  | some v => do
    let raw ← match v with
      | .integer n => .ok (toSize n.toInt)
      | .unsigned n => .ok (toSize n.toNat)
      | .string s => stoull s
      | _ => .ok 0
    return toSize (raw * 1024 * 1024)

/-- `from_json`. -/
def fromJson (config : ServerConfig) (j : Json) : Except Exn ServerConfig := do
  let host ← readStr j "host" config.host
  let port ← readInt toUInt16 j "port" config.port
  let cityDbPath ← readStr j "city_db" config.cityDbPath
  let asnDbPath ← readStr j "asn_db" config.asnDbPath
  let ouiDbPath ← readStr j "oui_db" config.ouiDbPath
  let threadPoolSize ← readInt toInt32 j "threads" config.threadPoolSize
  let enableRateLimiter ← readBool j "enable_rate_limiter" config.enableRateLimiter
  let maxRequestsPerMinute ←
    readInt toInt32 j "max_requests_per_minute" config.maxRequestsPerMinute
  let maxBatchSize ← readInt toInt32 j "max_batch_size" config.maxBatchSize
  let enableApiAuth ← readBool j "enable_api_auth" config.enableApiAuth
  let apiKeysFile ← readStr j "api_keys_file" config.apiKeysFile
  let defaultApiKey ← readStr j "default_api_key" config.defaultApiKey
  let enableFileLogging ← readBool j "enable_file_logging" config.enableFileLogging
  let logFilePath ← readStr j "log_file" config.logFilePath
  let logEnableStdout ← readBool j "log_enable_stdout" config.logEnableStdout
  let logRotationType ← readStr j "log_rotation" config.logRotationType
  let logLevel ← readStr j "log_level" config.logLevel
  let logMaxFileSize ← readLogMaxFileSize j config.logMaxFileSize
  let logMaxBackupFiles ← readInt toInt32 j "log_max_backup_files" config.logMaxBackupFiles
  return { config with
    host, port, cityDbPath, asnDbPath, ouiDbPath, threadPoolSize, enableRateLimiter
    maxRequestsPerMinute, maxBatchSize, enableApiAuth, apiKeysFile, defaultApiKey
    enableFileLogging, logFilePath, logEnableStdout, logRotationType, logLevel
    logMaxFileSize, logMaxBackupFiles }

variable (lib : JsonLibrary) (env : Environment)

/-- `load_from_file`. -/
def loadFromFile (configFile : String) : Except Exn ServerConfig :=
  match (env.file configFile).read? with
  | none => .error (.std ("Cannot open config file: " ++ configFile))
  | some text =>
    match lib.extract text with
    | .error what => .error (.json what)
    | .ok j => fromJson {} j

/-- The object that `save_to_file` writes. -/
def toJson (config : ServerConfig) : Json :=
  let int (n : ℤ) : Json := .integer (Int64.ofInt n)
  let unsigned (n : ℤ) : Json := .unsigned (UInt64.ofNat n.toNat)
  let j := Json.null
    |>.set "host" (.string config.host)
    |>.set "port" (unsigned config.port)
    |>.set "city_db" (.string config.cityDbPath)
    |>.set "asn_db" (.string config.asnDbPath)
    |>.set "oui_db" (.string config.ouiDbPath)
    |>.set "threads" (int config.threadPoolSize)
    |>.set "enable_rate_limiter" (.boolean config.enableRateLimiter)
    |>.set "max_requests_per_minute" (int config.maxRequestsPerMinute)
    |>.set "max_batch_size" (int config.maxBatchSize)
    |>.set "enable_api_auth" (.boolean config.enableApiAuth)
    |>.set "api_keys_file" (.string config.apiKeysFile)
  let j := if config.defaultApiKey = "" then j
    else j.set "default_api_key" (.string config.defaultApiKey)
  j.set "enable_file_logging" (.boolean config.enableFileLogging)
    |>.set "log_file" (.string config.logFilePath)
    |>.set "log_enable_stdout" (.boolean config.logEnableStdout)
    |>.set "log_rotation" (.string config.logRotationType)
    |>.set "log_max_file_size" (unsigned (config.logMaxFileSize / (1024 * 1024)))
    |>.set "log_max_backup_files" (int config.logMaxBackupFiles)
    |>.set "log_level" (.string config.logLevel)

/-- `save_to_file`: whether it returns true, and the file afterwards. Opening the file
    empties it; a write that fails goes unnoticed. -/
def saveToFile (config : ServerConfig) (file : ConfigFile) : Bool × ConfigFile :=
  if !file.opensForWriting then (false, file)
  else
    match lib.dumpIndented 0 (toJson config) with
    | .error _ => (false, { file with content := some "" })
    | .ok text =>
      let text := (text ++ "\n").toList
      let arrived := match file.accepts with
        | none => text
        | some n => text.take n
      (true, { file with content := some (String.ofList arrived) })

/-- `handle_config_file`. -/
def handleConfigFile (configFile : String) : ServerConfig :=
  if (env.file configFile).read?.getD "" = "" then
    let config := { applyDefaultPaths env {} with configFile := configFile }
    if (saveToFile lib config (env.file configFile)).1 then config else {}
  else
    match loadFromFile lib env configFile with
    | .ok config => config
    | .error _ => {}

/-! ## The command line -/

/-- `apply_cli_overrides`. -/
def applyCliOverrides (result : ParseResult) (config : ServerConfig) : ServerConfig where
  host := result.host.getD config.host
  port := result.port.getD config.port
  threadPoolSize := result.threads.getD config.threadPoolSize
  cityDbPath := result.cityDb.getD config.cityDbPath
  asnDbPath := result.asnDb.getD config.asnDbPath
  ouiDbPath := result.ouiDb.getD config.ouiDbPath
  configFile := config.configFile
  enableRateLimiter :=
    (result.enableRateLimiter.map parseBoolString).getD config.enableRateLimiter
  maxRequestsPerMinute := result.maxRequestsPerMinute.getD config.maxRequestsPerMinute
  maxBatchSize := result.maxBatchSize.getD config.maxBatchSize
  enableApiAuth := (result.enableApiAuth.map parseBoolString).getD config.enableApiAuth
  apiKeysFile := result.apiKeysFile.getD config.apiKeysFile
  defaultApiKey := result.defaultApiKey.getD config.defaultApiKey
  enableFileLogging :=
    -- a log file given on the command line enables file logging, whatever else was given
    if result.logFile.isSome then true
    else (result.enableFileLogging.map parseBoolString).getD config.enableFileLogging
  logFilePath := result.logFile.getD config.logFilePath
  logEnableStdout := (result.logEnableStdout.map parseBoolString).getD config.logEnableStdout
  logRotationType := result.logRotation.getD config.logRotationType
  logMaxFileSize :=
    (result.logMaxSize.map fun n => toSize (n * 1024 * 1024)).getD config.logMaxFileSize
  logMaxBackupFiles := result.logMaxBackups.getD config.logMaxBackupFiles
  logLevel := result.logLevel.getD config.logLevel

/-! ## Validation -/

/-- The lambda `check_range` of `validate`. -/
def checkRange (name : String) (value min max : ℤ) : Except Exn Unit :=
  if value < min ∨ value > max then
    .error (.std ("Invalid " ++ name ++ ": must be between " ++ toString min ++ " and " ++
      toString max))
  else .ok ()

/-- A check that is made under a condition. -/
def checkIf (b : Bool) (check : Except Exn Unit) : Except Exn Unit := if b then check else .ok ()

/-- The part of `validate` about a database path: that it does not exist is only logged, but
    looking for it may throw. -/
def checkPath (path : String) : Except Exn Unit :=
  checkIf (path ≠ "") ((env.pathExists path).map fun _ => ())

/-- The part of `validate` about the rotation of the log. -/
def checkRotationType (config : ServerConfig) : Except Exn Unit :=
  if config.logRotationType ∈ ["none", "size"] then .ok ()
  else .error (.std "Invalid log rotation type: must be none or size")

/-- `validate`. -/
def validate (config : ServerConfig) : Except Exn Unit := do
  checkRange "Port" config.port ConfigLimits.minPort ConfigLimits.maxPort
  checkRange "Thread pool size" config.threadPoolSize ConfigLimits.minThreadPool
    ConfigLimits.maxThreadPool
  checkIf config.enableRateLimiter <|
    checkRange "Max requests per minute" config.maxRequestsPerMinute ConfigLimits.minRateLimit
      ConfigLimits.maxRateLimit
  checkRange "Max batch size" config.maxBatchSize ConfigLimits.minBatchSize
    ConfigLimits.maxBatchSize
  checkPath env config.cityDbPath
  checkPath env config.asnDbPath
  checkPath env config.ouiDbPath
  checkIf config.enableFileLogging do
    checkRotationType config
    checkRange "Log max file size (MB)" (config.logMaxFileSize / (1024 * 1024))
      (ConfigLimits.minLogFileSize / (1024 * 1024)) (ConfigLimits.maxLogFileSize / (1024 * 1024))
    checkRange "Log max backup files" config.logMaxBackupFiles ConfigLimits.minBackupFiles
      ConfigLimits.maxBackupFiles

/-! ## Parsing -/

/-- The configuration before the command line is applied. -/
def baseConfig (result : ParseResult) : Except Exn ServerConfig := do
  let config := applyDefaultPaths env {}
  let config := { config with configFile := result.config.getD config.configFile }
  if config.configFile = "" then return config
  if ← env.pathExists config.configFile then return handleConfigFile lib env config.configFile
  return config

/-- `parse`, on what the option parser makes of the command line, which is the text of an
    exception if it is rejected. Asked for help, the program prints it and exits. -/
def parse (options : Except String ParseResult) : Except Exn (Option ServerConfig) := do
  match options with
  | .error what => .error (.std ("Failed to parse command line options: " ++ what))
  | .ok result =>
    if result.help then return none
    let config := applyCliOverrides result (← baseConfig lib env result)
    validate env config
    return some config

/-! ## What the parts do -/

/-- What each field holds after `from_json`. -/
structure Reads (config : ServerConfig) (j : Json) (config' : ServerConfig) : Prop where
  host : readStr j "host" config.host = .ok config'.host
  port : readInt toUInt16 j "port" config.port = .ok config'.port
  cityDbPath : readStr j "city_db" config.cityDbPath = .ok config'.cityDbPath
  asnDbPath : readStr j "asn_db" config.asnDbPath = .ok config'.asnDbPath
  ouiDbPath : readStr j "oui_db" config.ouiDbPath = .ok config'.ouiDbPath
  threadPoolSize : readInt toInt32 j "threads" config.threadPoolSize = .ok config'.threadPoolSize
  enableRateLimiter :
    readBool j "enable_rate_limiter" config.enableRateLimiter = .ok config'.enableRateLimiter
  maxRequestsPerMinute : readInt toInt32 j "max_requests_per_minute" config.maxRequestsPerMinute =
    .ok config'.maxRequestsPerMinute
  maxBatchSize : readInt toInt32 j "max_batch_size" config.maxBatchSize = .ok config'.maxBatchSize
  enableApiAuth : readBool j "enable_api_auth" config.enableApiAuth = .ok config'.enableApiAuth
  apiKeysFile : readStr j "api_keys_file" config.apiKeysFile = .ok config'.apiKeysFile
  defaultApiKey : readStr j "default_api_key" config.defaultApiKey = .ok config'.defaultApiKey
  enableFileLogging :
    readBool j "enable_file_logging" config.enableFileLogging = .ok config'.enableFileLogging
  logFilePath : readStr j "log_file" config.logFilePath = .ok config'.logFilePath
  logEnableStdout :
    readBool j "log_enable_stdout" config.logEnableStdout = .ok config'.logEnableStdout
  logRotationType : readStr j "log_rotation" config.logRotationType = .ok config'.logRotationType
  logLevel : readStr j "log_level" config.logLevel = .ok config'.logLevel
  logMaxFileSize : readLogMaxFileSize j config.logMaxFileSize = .ok config'.logMaxFileSize
  logMaxBackupFiles : readInt toInt32 j "log_max_backup_files" config.logMaxBackupFiles =
    .ok config'.logMaxBackupFiles

theorem reads_of_fromJson {config config' : ServerConfig} {j : Json}
    (h : fromJson config j = .ok config') : Reads config j config' := by
  simp only [fromJson, bind_eq_ok, pure_eq_ok] at h
  obtain ⟨_, host, _, port, _, city, _, asn, _, oui, _, threads, _, limiter, _, requests, _, batch,
    _, auth, _, keys, _, key, _, logging, _, log, _, stdout, _, rotation, _, level, _, size, _,
    backups, rfl⟩ := h
  exact ⟨host, port, city, asn, oui, threads, limiter, requests, batch, auth, keys, key, logging,
    log, stdout, rotation, level, size, backups⟩

theorem checkRange_eq_ok {name : String} {value min max : ℤ} {u : Unit} :
    checkRange name value min max = .ok u ↔ min ≤ value ∧ value ≤ max := by
  rw [checkRange]
  constructor
  · intro h
    split at h
    · cases h
    · omega
  · intro h
    rw [if_neg (by omega)]

theorem checkIf_eq_ok {b : Bool} {check : Except Exn Unit} {u : Unit} :
    checkIf b check = .ok u ↔ (b → check = .ok ()) := by
  cases b with
  | true => exact ⟨fun h _ => h, fun h => h rfl⟩
  | false => exact ⟨fun _ h => absurd h Bool.false_ne_true, fun _ => rfl⟩

theorem checkRotationType_eq_ok {config : ServerConfig} {u : Unit} :
    checkRotationType config = .ok u ↔ config.logRotationType ∈ ["none", "size"] := by
  rw [checkRotationType]
  constructor
  · intro h
    split at h
    · assumption
    · cases h
  · intro hmem
    rw [if_pos hmem]

/-- What `validate` checks. -/
structure Limits (config : ServerConfig) : Prop where
  port : ConfigLimits.minPort ≤ config.port ∧ config.port ≤ ConfigLimits.maxPort
  threadPoolSize : ConfigLimits.minThreadPool ≤ config.threadPoolSize ∧
    config.threadPoolSize ≤ ConfigLimits.maxThreadPool
  maxRequestsPerMinute : config.enableRateLimiter →
    ConfigLimits.minRateLimit ≤ config.maxRequestsPerMinute ∧
      config.maxRequestsPerMinute ≤ ConfigLimits.maxRateLimit
  maxBatchSize : ConfigLimits.minBatchSize ≤ config.maxBatchSize ∧
    config.maxBatchSize ≤ ConfigLimits.maxBatchSize
  logRotationType : config.enableFileLogging → config.logRotationType ∈ ["none", "size"]
  logMaxFileSize : config.enableFileLogging →
    ConfigLimits.minLogFileSize / (1024 * 1024) ≤ config.logMaxFileSize / (1024 * 1024) ∧
      config.logMaxFileSize / (1024 * 1024) ≤ ConfigLimits.maxLogFileSize / (1024 * 1024)
  logMaxBackupFiles : config.enableFileLogging →
    ConfigLimits.minBackupFiles ≤ config.logMaxBackupFiles ∧
      config.logMaxBackupFiles ≤ ConfigLimits.maxBackupFiles

theorem limits_of_validate {env : Environment} {config : ServerConfig}
    (h : validate env config = .ok ()) : Limits config := by
  simp only [validate, bind_eq_ok, checkIf_eq_ok, checkRange_eq_ok, checkRotationType_eq_ok] at h
  obtain ⟨_, port, _, threads, _, requests, _, batch, _, -, _, -, _, -, logging⟩ := h
  exact ⟨port, threads, requests, batch, fun h => (logging h).choose_spec.1,
    fun h => (logging h).choose_spec.2.choose_spec.1,
    fun h => (logging h).choose_spec.2.choose_spec.2⟩

end ConfigParser

end IpServer
