import IpServer.Cache.Snapshot
import IpServer.Http.Endpoints
import IpServer.Metrics.Percentile

/-!
# The health report

`handle_health` reads the metrics and the statistics of both caches while requests are handled. What
it reports can always be serialised, and makes sense however its readings interleave with the
requests.

* `rounded_mono`, `rounded_natCast`: rounding keeps the order, and integers.
* `run_handleHealth`: the report is sent.
* `report_while_serving`: what it says.
-/

namespace IpServer

/-! ### Rounding -/

theorem roundAway_mono {x y : ℚ} (h : x ≤ y) : roundAway x ≤ roundAway y := by
  rw [roundAway, roundAway]
  split
  · next hx =>
    rw [if_pos (hx.trans h)]
    exact Int.floor_mono (add_le_add_left h _)
  · next hx =>
    split
    · next hy =>
      -- a negative number and one that is not
      have hle : ⌈x - 1 / 2⌉ ≤ 0 := Int.ceil_le.2 (by push_cast; linarith [not_le.1 hx])
      exact hle.trans (Int.floor_nonneg.2 (by linarith))
    · exact Int.ceil_mono (sub_le_sub_right h _)

theorem rounded_mono (scale : ℕ) {x y : ℚ} (h : x ≤ y) : rounded scale x ≤ rounded scale y := by
  refine div_le_div_of_nonneg_right ?_ (Nat.cast_nonneg scale)
  exact Int.cast_le.2 (roundAway_mono (mul_le_mul_of_nonneg_right h (Nat.cast_nonneg scale)))

theorem roundAway_natCast (n : ℕ) : roundAway n = n := by
  rw [roundAway, if_pos (Nat.cast_nonneg n), Int.floor_natCast_add]
  norm_num

theorem rounded_natCast {scale : ℕ} (h : 0 < scale) (n : ℕ) : rounded scale n = n := by
  have hcast : (n : ℚ) * scale = (n * scale : ℕ) := (Nat.cast_mul n scale).symm
  rw [rounded, hcast, roundAway_natCast]
  push_cast
  exact mul_div_cancel_right₀ _ (Nat.cast_ne_zero.2 h.ne')

namespace CacheStats

/-- The hit rate of counters that are balanced is a percentage. -/
theorem Balanced.hitRate_mem {s : CacheStats} (h : s.Balanced) :
    0 ≤ s.hitRate ∧ s.hitRate ≤ 100 := by
  rw [hitRate]
  split
  · next hpos =>
    have hpos : (0 : ℚ) < s.totalLookups := Nat.cast_pos.2 hpos
    have hle : s.hits ≤ s.totalLookups := h.hits_add_misses ▸ Nat.le_add_right _ _
    have hratio : (s.hits : ℚ) / s.totalLookups ≤ 1 := (div_le_one hpos).2 (Nat.cast_le.2 hle)
    exact ⟨by positivity, by linarith⟩
  · exact ⟨le_rfl, by norm_num⟩

end CacheStats

namespace IPGeoHTTPServer

open Handling

variable (lib : Libraries)

/-- What can be serialised keeps to be so with more members that can. -/
theorem isUtf8Text_ofMembers {members : List (String × Json)}
    (h : ∀ m ∈ members, Json.validUtf8 m.1 = true ∧ m.2.isUtf8Text = true) :
    (Json.ofMembers members).isUtf8Text = true := by
  have hfold : ∀ j : Json, j.isUtf8Text = true →
      (members.foldl (fun j m => j.set m.1 m.2) j).isUtf8Text = true := by
    induction members with
    | nil => exact fun j hj => hj
    | cons m members ih =>
      intro j hj
      obtain ⟨hkey, hvalue⟩ := h m List.mem_cons_self
      exact ih (fun m hm => h m (List.mem_cons_of_mem _ hm)) _ (Json.isUtf8Text_set hj hkey hvalue)
  exact hfold .null rfl

theorem isUtf8Text_metricsJson (stats : Metrics.Stats) :
    (metricsJson lib stats).isUtf8Text = true := by
  refine isUtf8Text_ofMembers ?_
  simp only [List.forall_mem_cons, List.not_mem_nil, false_imp_iff, implies_true, and_true]
  refine ⟨?_, ?_, ?_, ?_, ?_, ?_⟩
  all_goals exact ⟨Json.validUtf8_of_ascii (by decide), rfl⟩

theorem isUtf8Text_cacheJson (cache : CacheStats) : (cacheJson lib cache).isUtf8Text = true := by
  refine isUtf8Text_ofMembers ?_
  simp only [List.forall_mem_cons, List.not_mem_nil, false_imp_iff, implies_true, and_true]
  refine ⟨?_, ?_, ?_, ?_, ?_, ?_⟩
  all_goals exact ⟨Json.validUtf8_of_ascii (by decide), rfl⟩

theorem isUtf8Text_healthJson (readings : Readings) :
    (healthJson lib readings).isUtf8Text = true := by
  have hstart : (((Json.null.set "status" (.string "ok")).set "timestamp"
      (.integer readings.timestamp)).set "metrics"
        (metricsJson lib readings.stats)).isUtf8Text = true := by
    refine Json.isUtf8Text_set (Json.isUtf8Text_set (Json.isUtf8Text_set rfl ?_ ?_) ?_ rfl) ?_
      (isUtf8Text_metricsJson lib _)
    all_goals exact Json.validUtf8_of_ascii (by decide)
  rw [healthJson]
  refine Json.isUtf8Text_set (Json.isUtf8Text_set ?_ (Json.validUtf8_of_ascii (by decide)) ?_)
    (Json.validUtf8_of_ascii (by decide)) ?_
  · split
    · exact hstart
    · exact Json.isUtf8Text_set hstart (Json.validUtf8_of_ascii (by decide))
        (isUtf8Text_cacheJson lib _)
  · refine isUtf8Text_ofMembers ?_
    simp only [List.forall_mem_cons, List.not_mem_nil, false_imp_iff, implies_true, and_true]
    exact ⟨⟨Json.validUtf8_of_ascii (by decide), rfl⟩, Json.validUtf8_of_ascii (by decide), rfl⟩
  · refine isUtf8Text_ofMembers ?_
    simp only [List.forall_mem_cons, List.not_mem_nil, false_imp_iff, implies_true, and_true]
    exact ⟨Json.validUtf8_of_ascii (by decide), rfl⟩

/-- The report is sent, whatever is in it. -/
theorem run_handleHealth (readings : Readings) (w : World) : ∃ body,
    lib.json.dump (healthJson lib readings) = .ok body ∧ (handleHealth lib readings).run w =
      .ok () { w with res := { w.res with body, contentType := "application/json" } } := by
  obtain ⟨body, hbody⟩ := (JsonLibrary.dump_eq_ok _).2 (isUtf8Text_healthJson lib readings)
  refine ⟨body, hbody, ?_⟩
  rw [handleHealth, EStateM.run_bind, hbody]
  rfl

/-! ### What the report says -/

/-- A cache, and the calls that are made while its statistics are read. -/
structure CacheInUse (n : ℕ) where
  maxMemoryBytes : ℕ
  ops : List CacheOp
  during : List CacheOp
  /-- how many of the calls have been made when the statistics, or the bytes, of a shard are read -/
  localAt : Fin n → ℕ
  memoryAt : Fin n → ℕ

namespace CacheInUse

variable {n : ℕ} [NeZero n] (hash : String → ℕ) (json : JsonLibrary) (c : CacheInUse n)

/-- The cache after some calls. -/
def after (ops : List CacheOp) : IPCache n :=
  (IPCache.step hash json).run (.new n c.maxMemoryBytes) ops

/-- What `get_stats` finds. -/
def stats : CacheStats :=
  IPCache.readStats (fun i => c.after hash json (c.ops ++ c.during.take (c.localAt i)))
    fun i => c.after hash json (c.ops ++ c.during.take (c.memoryAt i))

/-- The statistics before and after the calls. -/
def before : CacheStats := IPCache.getStats (c.after hash json c.ops)
def afterwards : CacheStats := IPCache.getStats (c.after hash json (c.ops ++ c.during))

end CacheInUse

/-- The health report is sent however its readings interleave with what else is done: its counters
    lie between those at its start and at its end, every look-up counted is a hit or a miss, the
    hit rate is a percentage, and the percentiles are in order. -/
theorem report_while_serving {n : ℕ} [NeZero n] (lib : Libraries) (hash : String → ℕ)
    (geo mac : CacheInUse n) (timestamp : Int64) (m₁ m₂ m₃ m₄ : Metrics) (now : TimePoint)
    (limiter : RateLimiter) :
    let cache := geo.stats hash lib.json + mac.stats hash lib.json
    let stats := Metrics.getStats m₁ m₂ m₃ m₄ now
    (∃ body, lib.json.dump (healthJson lib ⟨timestamp, stats, some cache⟩) = .ok body ∧
      (handleHealth lib ⟨timestamp, stats, some cache⟩).run ⟨corsResponse, limiter, []⟩ =
        .ok () ⟨corsResponse.withJson 200 body, limiter, []⟩) ∧
    (geo.before hash lib.json + mac.before hash lib.json).Before cache ∧
    cache.Before (geo.afterwards hash lib.json + mac.afterwards hash lib.json) ∧
    cache.hits + cache.misses = cache.totalLookups ∧ cache.expiredEntries ≤ cache.misses ∧
    0 ≤ rounded 100 cache.hitRate ∧ rounded 100 cache.hitRate ≤ 100 ∧
    rounded 1000 stats.p50LatencyMs ≤ rounded 1000 stats.p95LatencyMs ∧
    rounded 1000 stats.p95LatencyMs ≤ rounded 1000 stats.p99LatencyMs := by
  intro cache stats
  obtain ⟨hlo, hhi, hbalanced⟩ := IPCache.readStats_run hash lib.json geo.maxMemoryBytes geo.ops
    geo.during geo.localAt geo.memoryAt
  obtain ⟨hlo', hhi', hbalanced'⟩ := IPCache.readStats_run hash lib.json mac.maxMemoryBytes mac.ops
    mac.during mac.localAt mac.memoryAt
  have hcache : cache.Balanced := hbalanced.add hbalanced'
  obtain ⟨hnonneg, hle⟩ := hcache.hitRate_mem
  obtain ⟨body, hbody, hrun⟩ :=
    run_handleHealth lib ⟨timestamp, stats, some cache⟩ ⟨corsResponse, limiter, []⟩
  have hzero := @rounded_natCast 100 (by norm_num) 0
  have hhundred := @rounded_natCast 100 (by norm_num) 100
  refine ⟨⟨body, hbody, hrun⟩, hlo.add hlo', hhi.add hhi', hcache.hits_add_misses,
    hcache.expiredEntries_le, ?_, ?_, ?_, ?_⟩
  · exact hzero.symm.trans_le (rounded_mono 100 hnonneg)
  · exact (rounded_mono 100 hle).trans_eq hhundred
  · exact rounded_mono 1000 (Metrics.calculatePercentile_mono (by norm_num) (by norm_num))
  · exact rounded_mono 1000 (Metrics.calculatePercentile_mono (by norm_num) (by norm_num))

/-- A cache that is asked for an address twice while its statistics are read: the first shard is
    read before that, and the second one after it. -/
def askedMeanwhile : CacheInUse 2 where
  maxMemoryBytes := 1000
  ops := [.get "10.0.0.1" 0]
  during := [.get "10.0.0.1" 1, .get "10.0.0.2" 1]
  localAt i := 2 * i
  memoryAt i := 2 * i

theorem report_while_serving_askedMeanwhile :
    let cache := askedMeanwhile.stats String.length JsonLibrary.sample
    let before := askedMeanwhile.before String.length JsonLibrary.sample
    (before + before).Before (cache + cache) ∧
      (cache + cache).hits + (cache + cache).misses = (cache + cache).totalLookups := by
  obtain ⟨-, hlo, -, hbalanced, -⟩ := report_while_serving .sample String.length askedMeanwhile
    askedMeanwhile 0 ⟨0, 0, [], 0, []⟩ ⟨0, 0, [], 0, []⟩ ⟨0, 0, [], 0, []⟩ ⟨0, 0, [], 0, []⟩ 0
    (newLimiter {})
  exact ⟨hlo, hbalanced⟩

end IPGeoHTTPServer

end IpServer
