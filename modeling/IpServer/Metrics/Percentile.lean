import IpServer.Library.OrderStatistic
import IpServer.Metrics.Recent
import Mathlib.Data.List.DropRight

/-!
# Percentiles of the latencies

`record_request` keeps the latencies of the last requests, at most `MAX_LATENCIES` of them, and
`get_stats` reports three of them, read from the sorted latencies at the index
`floor(p * (size - 1))`.

* `latencies_afterCalls`: the window holds the last latencies that have been recorded.
* `isPercentile_calculatePercentile`: the index is in range, and what is read there has as many
  latencies on either side as the index says.
* `calculatePercentile_mono`: percentiles are in order.
* `reportsPercentiles_afterCalls`: so the reported percentiles are, once a request has been
  recorded. Before that, they are `0`.
-/

namespace IpServer

/-- The latency that a call records, if it does. -/
def MetricsCall.latency? : MetricsCall → Option ℚ
  | .recordRequest latencyMs _ => some latencyMs
  | .recordError => none

namespace Metrics

/-- The latencies that are recorded. -/
def recorded (calls : List MetricsCall) : List ℚ := calls.filterMap MetricsCall.latency?

/-- The index of a percentile among `n` sorted values. -/
def percentileIndex (p : ℚ) (n : ℕ) : ℕ := ⌊p * (n - 1 : ℕ)⌋₊

/-- The windows hold the last latencies, at most `MAX_LATENCIES` of them, and the times of the
    minute before the last request. -/
structure Windowed (m : Metrics) (calls : List MetricsCall) : Prop where
  latencies : m.latencies = (recorded calls).rtake (min (recorded calls).length maxLatencies)
  requestTimestamps : m.requestTimestamps = lastMinute (readings calls)

/-- `x` is the value at the index of the percentile `p` in the sorted window, if there is a value
    to read, and has its rank. -/
structure IsPercentile (p : ℚ) (window : List ℚ) (x : ℚ) : Prop where
  indexed : window ≠ [] → orderStatistic? window (percentileIndex p window.length) = some x
  mem : x ∈ window
  not_greater : percentileIndex p window.length + 1 ≤ window.countP (· ≤ x)
  not_smaller : window.length - percentileIndex p window.length ≤ window.countP (x ≤ ·)

/-- The percentiles of a window, in order. -/
structure Stats.Percentiles (stats : Stats) (window : List ℚ) : Prop where
  p50 : IsPercentile (50 / 100) window stats.p50LatencyMs
  p95 : IsPercentile (95 / 100) window stats.p95LatencyMs
  p99 : IsPercentile (99 / 100) window stats.p99LatencyMs
  p50_le_p95 : stats.p50LatencyMs ≤ stats.p95LatencyMs
  p95_le_p99 : stats.p95LatencyMs ≤ stats.p99LatencyMs

variable {m : Metrics} {start now : TimePoint} {calls : List MetricsCall} {p q : ℚ} {n : ℕ}

/-! ### The window of latencies -/

theorem latencies_logLatency (h : m.latencies.length ≤ maxLatencies) (latencyMs : ℚ)
    (now : TimePoint) : (m.logLatency latencyMs now).latencies =
      (m.latencies ++ [latencyMs]).rtake maxLatencies := by
  have hlen : (m.latencies ++ [latencyMs]).length = m.latencies.length + 1 := List.length_append
  simp only [logLatency, List.rtake, hlen]
  split
  · next hgt =>
    have hone : m.latencies.length + 1 - maxLatencies = 1 := by omega
    rw [hone, List.drop_one]
  · next hle => rw [Nat.sub_eq_zero_of_le (not_lt.1 hle), List.drop_zero]

/-- Taking the last values once more, with new ones behind them. -/
theorem rtake_append_rtake (xs : List ℚ) (x : ℚ) :
    (xs.rtake (n + 1) ++ [x]).rtake (n + 1) = (xs ++ [x]).rtake (n + 1) := by
  rw [List.rtake_concat_succ, List.rtake_concat_succ, List.rtake, List.rtake, List.rtake,
    List.drop_drop, List.length_drop]
  congr 2
  omega

/-- What is kept are the last latencies. -/
theorem latencies_afterCalls (start : TimePoint) (calls : List MetricsCall) :
    (afterCalls start calls).latencies = (recorded calls).rtake maxLatencies := by
  induction calls using List.reverseRecOn with
  | nil => rfl
  | append_singleton calls call ih =>
    rw [afterCalls_concat, recorded, List.filterMap_append]
    rcases call with ⟨latencyMs, now⟩ | _
    · have hlen : (afterCalls start calls).latencies.length ≤ maxLatencies := by
        rw [ih, List.rtake, List.length_drop]
        omega
      have hstep := latencies_logLatency hlen latencyMs now
      rw [ih] at hstep
      exact hstep.trans (rtake_append_rtake (recorded calls) latencyMs)
    · rw [List.filterMap_cons_none rfl, List.filterMap_nil, List.append_nil]
      exact ih

/-- Nothing is kept only if nothing has been recorded. -/
theorem latencies_afterCalls_eq_nil (start : TimePoint) (calls : List MetricsCall) :
    (afterCalls start calls).latencies = [] ↔ recorded calls = [] := by
  rw [latencies_afterCalls, List.rtake, List.drop_eq_nil_iff, ← List.length_eq_zero_iff]
  have hpos : 0 < maxLatencies := Nat.succ_pos 999
  omega

theorem windowed_afterCalls (h : (readings calls).Pairwise (· ≤ ·)) :
    (afterCalls start calls).Windowed calls := by
  refine ⟨?_, requestTimestamps_afterCalls h⟩
  have hdrop : (recorded calls).length - maxLatencies =
      (recorded calls).length - min (recorded calls).length maxLatencies := by omega
  rw [latencies_afterCalls, List.rtake, List.rtake, ← hdrop]

/-! ### The percentiles of a window -/

/-- The index of a percentile is in range. -/
theorem percentileIndex_lt (hp : p ≤ 1) (hn : 0 < n) : percentileIndex p n < n := by
  have hle : p * (n - 1 : ℕ) ≤ (n - 1 : ℕ) := mul_le_of_le_one_left (Nat.cast_nonneg _) hp
  exact (Nat.floor_le_of_le hle).trans_lt (Nat.sub_lt hn Nat.one_pos)

theorem percentileIndex_mono (h : p ≤ q) (n : ℕ) : percentileIndex p n ≤ percentileIndex q n :=
  Nat.floor_mono (mul_le_mul_of_nonneg_right h (Nat.cast_nonneg _))

/-- A percentile is read at its index. -/
theorem orderStatistic?_calculatePercentile (hp : p ≤ 1) (h : m.latencies ≠ []) :
    orderStatistic? m.latencies (percentileIndex p m.latencies.length) =
      some (m.calculatePercentile p) := by
  have hlt := percentileIndex_lt hp (List.length_pos_iff.2 h)
  obtain ⟨x, hx⟩ := exists_orderStatistic? hlt
  have hread : m.calculatePercentile p = x := by
    rw [calculatePercentile, if_neg (by simpa only [List.isEmpty_iff] using h)]
    dsimp only
    rw [List.length_mergeSort, List.getD_eq_getElem?_getD]
    exact congrArg (Option.getD · 0) hx
  rw [hx, hread]

theorem isPercentile_calculatePercentile (hp : p ≤ 1) (h : m.latencies ≠ []) :
    IsPercentile p m.latencies (m.calculatePercentile p) := by
  have hindex := orderStatistic?_calculatePercentile hp h
  exact ⟨fun _ => hindex, mem_of_orderStatistic? hindex, lt_countP_le_of_orderStatistic? hindex,
    length_sub_le_countP_of_orderStatistic? hindex⟩

/-- Percentiles are in order. -/
theorem calculatePercentile_mono (hpq : p ≤ q) (hq : q ≤ 1) :
    m.calculatePercentile p ≤ m.calculatePercentile q := by
  by_cases h : m.latencies = []
  · rw [calculatePercentile, calculatePercentile, h]
    exact le_refl _
  · exact orderStatistic?_mono (percentileIndex_mono hpq _)
      (orderStatistic?_calculatePercentile (hpq.trans hq) h)
      (orderStatistic?_calculatePercentile hq h)

/-- Statistics report the percentiles of the latencies they have read. -/
theorem percentiles_getStats (h : m.latencies ≠ []) (m₁ m₂ m₄ : Metrics) (now : TimePoint) :
    (getStats m₁ m₂ m m₄ now).Percentiles m.latencies := by
  have h₁ : (50 / 100 : ℚ) ≤ 95 / 100 := by norm_num
  have h₂ : (95 / 100 : ℚ) ≤ 99 / 100 := by norm_num
  have h₃ : (99 / 100 : ℚ) ≤ 1 := by norm_num
  exact {
    p50 := isPercentile_calculatePercentile (h₁.trans (h₂.trans h₃)) h
    p95 := isPercentile_calculatePercentile (h₂.trans h₃) h
    p99 := isPercentile_calculatePercentile h₃ h
    p50_le_p95 := calculatePercentile_mono h₁ (h₂.trans h₃)
    p95_le_p99 := calculatePercentile_mono h₂ h₃ }

/-- Without latencies there is nothing to read. -/
theorem calculatePercentile_of_eq_nil (h : m.latencies = []) (p : ℚ) :
    m.calculatePercentile p = 0 := by
  rw [calculatePercentile, h]
  rfl

/-! ### The percentiles that are reported -/

/-- The windows hold what has been recorded last, and the statistics report the percentiles of the
    latencies once there is one, whatever else is recorded while they read the rest. -/
theorem reportsPercentiles_afterCalls (start now : TimePoint) (calls : List MetricsCall)
    (h : (readings calls).Pairwise (· ≤ ·)) (m₁ m₂ m₄ : Metrics) :
    let m := afterCalls start calls
    let stats := getStats m₁ m₂ m m₄ now
    m.Windowed calls ∧ (recorded calls ≠ [] → stats.Percentiles m.latencies) ∧
      (recorded calls = [] →
        stats.p50LatencyMs = 0 ∧ stats.p95LatencyMs = 0 ∧ stats.p99LatencyMs = 0) := by
  refine ⟨windowed_afterCalls h, fun hne => ?_, fun hnil => ?_⟩
  · exact percentiles_getStats (mt (latencies_afterCalls_eq_nil start calls).1 hne) m₁ m₂ m₄ now
  · have hzero := calculatePercentile_of_eq_nil ((latencies_afterCalls_eq_nil start calls).2 hnil)
    exact ⟨hzero _, hzero _, hzero _⟩

/-- After two requests there are percentiles. -/
theorem percentiles_twoCalls :
    let m := afterCalls 0 twoCalls
    m.Windowed twoCalls ∧ (getStats m m m m (seconds 2)).Percentiles m.latencies := by
  obtain ⟨hwindowed, hpercentiles, -⟩ :=
    reportsPercentiles_afterCalls 0 (seconds 2) twoCalls (by decide) _ _ _
  exact ⟨hwindowed, hpercentiles (List.cons_ne_nil 5 [7])⟩

/-- Before the first request, what is reported is no latency of the window. -/
theorem not_percentiles_of_no_call :
    ¬∀ (start now : TimePoint) (calls : List MetricsCall), (readings calls).Pairwise (· ≤ ·) →
      let m := afterCalls start calls
      m.Windowed calls ∧ (getStats m m m m now).Percentiles m.latencies := by
  intro h
  obtain ⟨-, hpercentiles⟩ := h 0 0 [] List.Pairwise.nil
  exact List.not_mem_nil hpercentiles.p50.mem

end Metrics

end IpServer
