import IpServer.Basic
import IpServer.Library.Machine
import Mathlib.Algebra.Order.Floor.Semiring
import Mathlib.Data.Rat.Floor
import Mathlib.Algebra.BigOperators.Group.List.Defs
import Mathlib.Tactic.Linarith
import Mathlib.Tactic.Positivity

/-!
# Metrics

The counters of requests and errors are atomic, the latencies and the times of
the requests are under a lock: `record_request` is made of two atomic steps and
`record_error` of one (`MetricsOp`), and `get_stats` reads the parts of the state
one after the other. Latencies and rates, which are `double`s in the source, are
exact here.
-/

namespace IpServer

/-- The metrics. -/
structure Metrics where
  totalRequests : UInt64
  totalErrors : UInt64
  latencies : List ℚ
  startTime : TimePoint
  requestTimestamps : List TimePoint

/-- An atomic step of a recording call. -/
inductive MetricsOp
  /-- `total_requests_++` -/
  | countRequest
  /-- the locked part of `record_request`, with the steady clock at `now` -/
  | logLatency (latencyMs : ℚ) (now : TimePoint)
  /-- `total_errors_++` -/
  | countError
  deriving DecidableEq

/-- A recording call, with the reading of the clock it takes. -/
inductive MetricsCall
  | recordRequest (latencyMs : ℚ) (now : TimePoint)
  | recordError
  deriving DecidableEq

/-- The atomic steps of a call. -/
def MetricsCall.ops : MetricsCall → List MetricsOp
  | .recordRequest latencyMs now => [.countRequest, .logLatency latencyMs now]
  | .recordError => [.countError]

/-- A request is counted. -/
def MetricsOp.isRequest : MetricsOp → Bool
  | .countRequest => true
  | _ => false

/-- An error is counted. -/
def MetricsOp.isError : MetricsOp → Bool
  | .countError => true
  | _ => false

namespace Metrics

/-- `MAX_LATENCIES`. -/
def maxLatencies : ℕ := 1000

/-- The metrics as they are constructed, with the steady clock at `now`. -/
def new (now : TimePoint) : Metrics := ⟨0, 0, [], now, []⟩

variable (m : Metrics)

/-- The locked part of `record_request`. -/
def logLatency (latencyMs : ℚ) (now : TimePoint) : Metrics :=
  let latencies := m.latencies ++ [latencyMs]
  { m with
    latencies := if latencies.length > maxLatencies then latencies.tail else latencies
    requestTimestamps :=
      (m.requestTimestamps ++ [now]).dropWhile fun t => decide (t < now - seconds 60) }

/-- An atomic step. -/
def step : Machine Metrics MetricsOp Unit
  | m, .countRequest => ((), { m with totalRequests := m.totalRequests + 1 })
  | m, .logLatency latencyMs now => ((), m.logLatency latencyMs now)
  | m, .countError => ((), { m with totalErrors := m.totalErrors + 1 })

/-- What `get_stats` returns. -/
structure Stats where
  totalRequests : UInt64
  totalErrors : UInt64
  errorRate : ℚ
  currentQps : ℚ
  avgLatencyMs : ℚ
  p50LatencyMs : ℚ
  p95LatencyMs : ℚ
  p99LatencyMs : ℚ
  uptimeSeconds : UInt64

/-- `calculate_percentile`. -/
def calculatePercentile (percentile : ℚ) : ℚ :=
  if m.latencies.isEmpty then 0
  else
    let sortedLatencies := m.latencies.mergeSort
    sortedLatencies.getD ⌊percentile * (sortedLatencies.length - 1 : ℕ)⌋₊ 0

/-- `calculate_qps`. -/
def calculateQps : ℚ :=
  match m.requestTimestamps.head?, m.requestTimestamps.getLast? with
  | some front, some back =>
    let duration := (back - front).tdiv 1000000
    if m.requestTimestamps.length < 2 ∨ duration = 0 then 0
    else ((m.requestTimestamps.length - 1 : ℕ) : ℚ) / duration * 1000
  | _, _ => 0

/-- `get_stats`, with the steady clock at `now` at its end. The counters are loaded in the states
    `m₁` and `m₂`, the latencies are read in `m₃` and the times of the requests in `m₄`. -/
def getStats (m₁ m₂ m₃ m₄ : Metrics) (now : TimePoint) : Stats where
  totalRequests := m₁.totalRequests
  totalErrors := m₂.totalErrors
  errorRate :=
    if m₁.totalRequests > 0 then
      (m₂.totalErrors.toNat : ℚ) / (m₁.totalRequests.toNat : ℚ) * 100
    else 0
  currentQps := m₄.calculateQps
  avgLatencyMs := if m₃.latencies.isEmpty then 0 else m₃.latencies.sum / m₃.latencies.length
  p50LatencyMs := m₃.calculatePercentile (50 / 100)
  p95LatencyMs := m₃.calculatePercentile (95 / 100)
  p99LatencyMs := m₃.calculatePercentile (99 / 100)
  uptimeSeconds := UInt64.ofInt ((now - m₄.startTime).tdiv 1000000000)

variable {m : Metrics}

/-- The counters count. -/
theorem totalRequests_run (ops : List MetricsOp) : (step.run m ops).totalRequests =
    m.totalRequests + UInt64.ofNat (ops.countP MetricsOp.isRequest) := by
  induction ops generalizing m with
  | nil => simp
  | cons op ops ih =>
    rw [Machine.run_cons, ih, List.countP_cons]
    cases op with
    | countRequest =>
      simp only [step, MetricsOp.isRequest, if_true, UInt64.ofNat_add]
      rw [UInt64.add_assoc, UInt64.add_comm 1]
      rfl
    | logLatency latencyMs now => rfl
    | countError => rfl

theorem totalErrors_run (ops : List MetricsOp) : (step.run m ops).totalErrors =
    m.totalErrors + UInt64.ofNat (ops.countP MetricsOp.isError) := by
  induction ops generalizing m with
  | nil => simp
  | cons op ops ih =>
    rw [Machine.run_cons, ih, List.countP_cons]
    cases op with
    | countError =>
      simp only [step, MetricsOp.isError, if_true, UInt64.ofNat_add]
      rw [UInt64.add_assoc, UInt64.add_comm 1]
      rfl
    | logLatency latencyMs now => rfl
    | countRequest => rfl

/-- Statistics that make sense, where `failed` says that an error has been recorded. -/
structure Stats.Sound (stats : Stats) (failed : Prop) : Prop where
  errors_le : stats.totalErrors ≤ stats.totalRequests
  rate_nonneg : 0 ≤ stats.errorRate
  rate_le : stats.errorRate ≤ 100
  rate_pos : failed → 0 < stats.errorRate

/-- Statistics make sense if there are no more errors than requests. -/
theorem sound_getStats {m₁ m₂ m₃ m₄ : Metrics} {now : TimePoint} {failed : Prop}
    (hle : m₂.totalErrors ≤ m₁.totalRequests) (hpos : failed → 0 < m₂.totalErrors) :
    (getStats m₁ m₂ m₃ m₄ now).Sound failed := by
  rw [UInt64.le_iff_toNat_le] at hle
  by_cases hrequests : m₁.totalRequests > 0
  · have hrate : (getStats m₁ m₂ m₃ m₄ now).errorRate =
        (m₂.totalErrors.toNat : ℚ) / (m₁.totalRequests.toNat : ℚ) * 100 := if_pos hrequests
    have hpos₁ : (0 : ℚ) < m₁.totalRequests.toNat :=
      Nat.cast_pos.2 (UInt64.lt_iff_toNat_lt.1 hrequests)
    have hratio : (m₂.totalErrors.toNat : ℚ) / (m₁.totalRequests.toNat : ℚ) ≤ 1 :=
      (div_le_one hpos₁).2 (Nat.cast_le.2 hle)
    refine ⟨UInt64.le_iff_toNat_le.2 hle, ?_, ?_, fun hfailed => ?_⟩
    · rw [hrate]
      positivity
    · rw [hrate]
      linarith
    · have hpos₂ : (0 : ℚ) < m₂.totalErrors.toNat :=
        Nat.cast_pos.2 (UInt64.lt_iff_toNat_lt.1 (hpos hfailed))
      rw [hrate]
      positivity
  · -- without requests there are no errors either
    have hrate : (getStats m₁ m₂ m₃ m₄ now).errorRate = 0 := if_neg hrequests
    have hzero : m₁.totalRequests.toNat = 0 := by
      rw [gt_iff_lt, UInt64.lt_iff_toNat_lt] at hrequests
      exact Nat.eq_zero_of_not_pos hrequests
    refine ⟨UInt64.le_iff_toNat_le.2 hle, hrate.ge, hrate.trans_le (by norm_num), fun hfailed => ?_⟩
    have hpos₂ := UInt64.lt_iff_toNat_lt.1 (hpos hfailed)
    rw [hzero] at hle
    exact absurd hpos₂ (not_lt.2 hle)

end Metrics

end IpServer
