import IpServer.Config.Fields

/-!
# Numbers in the configuration file

`from_json` converts the integers of the file to the types of the fields before
`validate` looks at them, so that `validate` may accept another number than the
one written. A configuration that is accepted holds the numbers written, within
the limits, exactly if these fit the types of their fields
(`faithful_iff_fits`).
-/

namespace IpServer

namespace ConfigParser

/-- The integer that the file has under a key, if it has one. -/
def writtenInt (j : Json) (key : String) : Option ℤ :=
  match j.get? key with
  | some (.integer n) => some n.toInt
  | some (.unsigned n) => some n.toNat
  | _ => none

namespace NumberField

/-- The limits of the field are enforced. -/
def enforced (config : ServerConfig) : NumberField → Bool
  | maxRequestsPerMinute => config.enableRateLimiter
  | logMaxFileSize | logMaxBackupFiles => config.enableFileLogging
  | port | threads | maxBatchSize => true

/-- The limits of the field. -/
def limits : NumberField → ℤ × ℤ
  | port => (ConfigLimits.minPort, ConfigLimits.maxPort)
  | threads => (ConfigLimits.minThreadPool, ConfigLimits.maxThreadPool)
  | maxRequestsPerMinute => (ConfigLimits.minRateLimit, ConfigLimits.maxRateLimit)
  | maxBatchSize => (ConfigLimits.minBatchSize, ConfigLimits.maxBatchSize)
  | logMaxFileSize => (ConfigLimits.minLogFileSize, ConfigLimits.maxLogFileSize)
  | logMaxBackupFiles => (ConfigLimits.minBackupFiles, ConfigLimits.maxBackupFiles)

end NumberField

/-- Every field holds the number written in the file, if there is one. -/
def Faithful (config : ServerConfig) (j : Json) : Prop :=
  ∀ (f : NumberField) n, writtenInt j f.key = some n → f.value config = n * f.unit

/-- Every number written in the file is within the limits of its field, if these are
    enforced. -/
def WithinLimits (config : ServerConfig) (j : Json) : Prop :=
  ∀ f : NumberField, f.enforced config → ∀ n, writtenInt j f.key = some n →
    f.limits.1 ≤ n * f.unit ∧ n * f.unit ≤ f.limits.2

/-- Every number written in the file fits the type of its field. -/
def Fits (j : Json) : Prop := ∀ (f : NumberField) n, writtenInt j f.key = some n → f.fits n

variable {config config' : ServerConfig} {j : Json}

/-- An integer in the file is converted to the field. -/
theorem read_of_written (f : NumberField) {field n : ℤ} (h : writtenInt j f.key = some n) :
    f.read j field = .ok (f.convert n) := by
  rw [writtenInt] at h
  cases f with
  | port | threads | maxRequestsPerMinute | maxBatchSize | logMaxBackupFiles =>
    rw [NumberField.read, readInt]
    split at h <;> simp_all [NumberField.key, NumberField.convert]
  | logMaxFileSize =>
    rw [NumberField.read, readLogMaxFileSize]
    split at h <;> simp_all [NumberField.key] <;> rfl

/-- A field holds the number written in the file exactly if the number fits. -/
theorem value_eq_iff (h : Reads config j config') {f : NumberField} {n : ℤ}
    (hn : writtenInt j f.key = some n) : f.value config' = n * f.unit ↔ f.fits n := by
  have hvalue := h.number f
  rw [read_of_written f hn, Except.ok.injEq] at hvalue
  rw [← hvalue, NumberField.convert_eq_iff]

/-- The fields of an accepted configuration are within their limits; the log size is only
    checked in whole units. -/
theorem value_within (h : Limits config) (f : NumberField) (hon : f.enforced config) :
    f.limits.1 / f.unit ≤ f.value config / f.unit ∧
      f.value config / f.unit ≤ f.limits.2 / f.unit := by
  have hone : ∀ {lo n hi : ℤ}, lo ≤ n ∧ n ≤ hi → lo / 1 ≤ n / 1 ∧ n / 1 ≤ hi / 1 := fun h => by
    simpa only [Int.ediv_one] using h
  cases f with
  | port => exact hone h.port
  | threads => exact hone h.threadPoolSize
  | maxRequestsPerMinute => exact hone (h.maxRequestsPerMinute hon)
  | maxBatchSize => exact hone h.maxBatchSize
  | logMaxFileSize => exact h.logMaxFileSize hon
  | logMaxBackupFiles => exact hone (h.logMaxBackupFiles hon)

/-- When a file is read and the result accepted, every field holds the number written in the
    file, and this is within the limits, exactly if every such number fits its field. -/
theorem faithful_iff_fits {env : Environment} (hread : fromJson config j = .ok config')
    (hvalid : validate env config' = .ok ()) :
    Faithful config' j ∧ WithinLimits config' j ↔ Fits j := by
  have hreads := reads_of_fromJson hread
  constructor
  · rintro ⟨hfaithful, -⟩ f n hn
    exact (value_eq_iff hreads hn).1 (hfaithful f n hn)
  · intro hfits
    have hfaithful : Faithful config' j := fun f n hn => (value_eq_iff hreads hn).2 (hfits f n hn)
    refine ⟨hfaithful, fun f hon n hn => ?_⟩
    have hwithin := value_within (limits_of_validate hvalid) f hon
    rw [hfaithful f n hn] at hwithin
    -- the limits are whole numbers of units
    cases f <;> simp only [NumberField.unit, NumberField.limits, ConfigLimits.minLogFileSize,
      ConfigLimits.maxLogFileSize] at hwithin ⊢ <;> omega

/-- A file system in which every path exists and nothing can be read. -/
def bareEnvironment : Environment :=
  ⟨some "/home/user", none, fun _ => .ok true, fun _ => ⟨none, false, false, none⟩⟩

theorem faithful_port : Faithful { port := 9000 } (.object [("port", .unsigned 9000)]) ∧
    WithinLimits { port := 9000 } (.object [("port", .unsigned 9000)]) := by
  have hread : fromJson {} (.object [("port", .unsigned 9000)]) = .ok { port := 9000 } := rfl
  have hvalid : validate bareEnvironment { port := 9000 } = .ok () := rfl
  refine (faithful_iff_fits hread hvalid).2 fun f n hn => ?_
  cases f with
  | port =>
    obtain rfl : 9000 = n := Option.some_inj.1 hn
    exact ⟨by decide, by decide⟩
  | threads | maxRequestsPerMinute | maxBatchSize | logMaxFileSize | logMaxBackupFiles => cases hn

/-- The port 73616 is read as 8080, and accepted. -/
theorem not_faithful : ¬∀ (env : Environment) (config config' : ServerConfig) (j : Json),
    fromJson config j = .ok config' → validate env config' = .ok () →
      Faithful config' j ∧ WithinLimits config' j := by
  intro hall
  have hfaithful := (hall bareEnvironment {} {} (.object [("port", .unsigned 73616)]) rfl rfl).1
  have hport : (8080 : ℤ) = 73616 * 1 := hfaithful .port 73616 rfl
  exact absurd hport (by decide)

end ConfigParser

end IpServer
