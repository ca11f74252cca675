import IpServer.Config.Basic

/-!
# The fields of the configuration

The fields other than the path of the configuration file itself, by the type of
their value: texts, flags and numbers. Each has a key in the file, and what it
holds after `from_json` is read under that key (`Reads.text`, `Reads.flag`,
`Reads.number`).
-/

namespace IpServer

namespace ConfigParser

/-- The fields that hold a text. -/
inductive TextField
  | host
  | cityDb
  | asnDb
  | ouiDb
  | apiKeysFile
  | defaultApiKey
  | logFile
  | logRotation
  | logLevel

/-- The fields that hold a flag. -/
inductive FlagField
  | enableRateLimiter
  | enableApiAuth
  | enableFileLogging
  | logEnableStdout

/-- The fields that hold a number. -/
inductive NumberField
  | port
  | threads
  | maxRequestsPerMinute
  | maxBatchSize
  | logMaxFileSize
  | logMaxBackupFiles

namespace TextField

/-- The key of the field in the file. -/
def key : TextField → String
  | host => "host"
  | cityDb => "city_db"
  | asnDb => "asn_db"
  | ouiDb => "oui_db"
  | apiKeysFile => "api_keys_file"
  | defaultApiKey => "default_api_key"
  | logFile => "log_file"
  | logRotation => "log_rotation"
  | logLevel => "log_level"

/-- The value of the field. -/
def value (config : ServerConfig) : TextField → String
  | host => config.host
  | cityDb => config.cityDbPath
  | asnDb => config.asnDbPath
  | ouiDb => config.ouiDbPath
  | apiKeysFile => config.apiKeysFile
  | defaultApiKey => config.defaultApiKey
  | logFile => config.logFilePath
  | logRotation => config.logRotationType
  | logLevel => config.logLevel

end TextField

namespace FlagField

/-- The key of the field in the file. -/
def key : FlagField → String
  | enableRateLimiter => "enable_rate_limiter"
  | enableApiAuth => "enable_api_auth"
  | enableFileLogging => "enable_file_logging"
  | logEnableStdout => "log_enable_stdout"

/-- The value of the field. -/
def value (config : ServerConfig) : FlagField → Bool
  | enableRateLimiter => config.enableRateLimiter
  | enableApiAuth => config.enableApiAuth
  | enableFileLogging => config.enableFileLogging
  | logEnableStdout => config.logEnableStdout

end FlagField

namespace NumberField

/-- The key of the field in the file. -/
def key : NumberField → String
  | port => "port"
  | threads => "threads"
  | maxRequestsPerMinute => "max_requests_per_minute"
  | maxBatchSize => "max_batch_size"
  | logMaxFileSize => "log_max_file_size"
  | logMaxBackupFiles => "log_max_backup_files"

/-- The value of the field. -/
def value (config : ServerConfig) : NumberField → ℤ
  | port => config.port
  | threads => config.threadPoolSize
  | maxRequestsPerMinute => config.maxRequestsPerMinute
  | maxBatchSize => config.maxBatchSize
  | logMaxFileSize => config.logMaxFileSize
  | logMaxBackupFiles => config.logMaxBackupFiles

/-- What a number in the file is multiplied by. -/
def unit : NumberField → ℤ
  | logMaxFileSize => 2 ^ 20
  | port | threads | maxRequestsPerMinute | maxBatchSize | logMaxBackupFiles => 1

/-- A number in the file fits the type of the field. -/
def fits (n : ℤ) : NumberField → Prop
  | port => 0 ≤ n ∧ n < 2 ^ 16
  | logMaxFileSize => 0 ≤ n ∧ n < 2 ^ 44
  | threads | maxRequestsPerMinute | maxBatchSize | logMaxBackupFiles =>
    -2 ^ 31 ≤ n ∧ n < 2 ^ 31

/-- How a number in the file is converted to the field. -/
def convert (n : ℤ) : NumberField → ℤ
  | port => toUInt16 n
  | logMaxFileSize => toSize (toSize n * 1024 * 1024)
  | threads | maxRequestsPerMinute | maxBatchSize | logMaxBackupFiles => toInt32 n

/-- How the field is read from the file. -/
def read (j : Json) (field : ℤ) : NumberField → Except Exn ℤ
  | port => readInt toUInt16 j "port" field
  | threads => readInt toInt32 j "threads" field
  | maxRequestsPerMinute => readInt toInt32 j "max_requests_per_minute" field
  | maxBatchSize => readInt toInt32 j "max_batch_size" field
  | logMaxFileSize => readLogMaxFileSize j field
  | logMaxBackupFiles => readInt toInt32 j "log_max_backup_files" field

/-- The conversion keeps a number exactly if it fits. -/
theorem convert_eq_iff (f : NumberField) (n : ℤ) : f.convert n = n * f.unit ↔ f.fits n := by
  cases f with
  | port => rw [convert, unit, Int.mul_one]; exact toUInt16_eq_self
  | threads | maxRequestsPerMinute | maxBatchSize | logMaxBackupFiles =>
    rw [convert, unit, Int.mul_one]
    exact toInt32_eq_self
  | logMaxFileSize =>
    simp only [convert, unit, fits, toSize]
    omega

end NumberField

variable {config config' : ServerConfig} {j : Json}

theorem Reads.text (h : Reads config j config') (f : TextField) :
    readStr j f.key (f.value config) = .ok (f.value config') := by
  cases f with
  | host => exact h.host
  | cityDb => exact h.cityDbPath
  | asnDb => exact h.asnDbPath
  | ouiDb => exact h.ouiDbPath
  | apiKeysFile => exact h.apiKeysFile
  | defaultApiKey => exact h.defaultApiKey
  | logFile => exact h.logFilePath
  | logRotation => exact h.logRotationType
  | logLevel => exact h.logLevel

theorem Reads.flag (h : Reads config j config') (f : FlagField) :
    readBool j f.key (f.value config) = .ok (f.value config') := by
  cases f with
  | enableRateLimiter => exact h.enableRateLimiter
  | enableApiAuth => exact h.enableApiAuth
  | enableFileLogging => exact h.enableFileLogging
  | logEnableStdout => exact h.logEnableStdout

theorem Reads.number (h : Reads config j config') (f : NumberField) :
    f.read j (f.value config) = .ok (f.value config') := by
  cases f with
  | port => exact h.port
  | threads => exact h.threadPoolSize
  | maxRequestsPerMinute => exact h.maxRequestsPerMinute
  | maxBatchSize => exact h.maxBatchSize
  | logMaxFileSize => exact h.logMaxFileSize
  | logMaxBackupFiles => exact h.logMaxBackupFiles

end ConfigParser

end IpServer
