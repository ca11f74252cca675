import IpServer.Cache.IPCache

/-!
# The cache as one timed map

What the cache is for, without shards, lists and budgets: a map from keys to
values, each with the time it was stored and its type, which answers a look-up
with the value unless it has outlived its type (`TimedMap`).

Every operation on a cache does to its own key what the timed map does, and
gives its answer; other keys keep what is stored under them, or lose it to an
eviction (`step_answer`, `stored_step_self`, `stored_step_of_ne`). A cache that
does not evict is the timed map (`toTimedMap_step`): whatever the number of
shards, it gives the same answers and the same statistics
(`sharding_transparent`). With evictions, operations on different shards still
commute.
-/

namespace IpServer

/-- What an entry holds, apart from the place of its key in a list. -/
structure Stored where
  result : Json
  timestamp : TimePoint
  sizeBytes : ℕ
  dataType : CacheDataType

/-- One map, and its statistics. -/
structure TimedMap where
  stored : String → Option Stored
  stats : CacheStats

namespace TimedMap

variable (lib : JsonLibrary)

/-- What an operation answers and leaves under its key, given what is stored there. -/
def effect : Option Stored → CacheOp → CacheAnswer × Option Stored
  | none, .get _ _ => (.got none, none)
  | some e, .get _ now =>
    if now - e.timestamp > CacheShard.ttlForType e.dataType then (.got none, none)
    else (.got (some e.result), some e)
  | e?, .put key result dataType now =>
    match CacheShard.estimateEntrySize lib key result with
    | .error x => (.threw x, e?)
    | .ok size => (.stored, some ⟨result, now, size, dataType⟩)

/-- What an operation adds to the counters, given what is stored under its key. -/
def counts : Option Stored → CacheOp → CacheStats
  | none, .get _ _ => { totalLookups := 1, misses := 1 }
  | some e, .get _ now =>
    if now - e.timestamp > CacheShard.ttlForType e.dataType then
      { totalLookups := 1, misses := 1, expiredEntries := 1 }
    else { totalLookups := 1, hits := 1 }
  | _, .put _ _ _ _ => 0

/-- The bytes of what is stored under a key. -/
def bytes (e? : Option Stored) : ℕ := (e?.map Stored.sizeBytes).getD 0

/-- The statistics after an operation, given what is stored under its key. -/
def statsAfter (e? : Option Stored) (op : CacheOp) (stats : CacheStats) : CacheStats :=
  { stats + counts e? op with
    memoryUsageBytes := stats.memoryUsageBytes - bytes e? + bytes (effect lib e? op).2 }

/-- The timed map as a machine. -/
def step : Machine TimedMap CacheOp CacheAnswer := fun t op =>
  ((effect lib (t.stored op.key) op).1,
    { stored := Function.update t.stored op.key (effect lib (t.stored op.key) op).2
      stats := statsAfter lib (t.stored op.key) op t.stats })

variable {lib}

/-- Statistics that do not depend on the operation can be added before or after it. -/
theorem statsAfter_add {e? : Option Stored} {stats : CacheStats} (op : CacheOp)
    (hle : bytes e? ≤ stats.memoryUsageBytes) (rest : CacheStats) :
    statsAfter lib e? op (stats + rest) = statsAfter lib e? op stats + rest := by
  apply CacheStats.ext' <;> simp only [statsAfter, CacheStats.add_totalLookups, CacheStats.add_hits,
    CacheStats.add_misses, CacheStats.add_evictions, CacheStats.add_expiredEntries,
    CacheStats.add_memoryUsageBytes] <;> omega

end TimedMap

/-- What an entry of a shard holds. -/
def CacheEntry.stored (e : CacheEntry) : Stored :=
  ⟨e.result, e.timestamp, e.sizeBytes, e.dataType⟩

namespace CacheShard

open TimedMap (effect counts bytes statsAfter)

/-- What a shard holds under a key. -/
def stored (s : CacheShard) (key : String) : Option Stored :=
  (s.cacheMap.lookup key).map CacheEntry.stored

variable {lib : JsonLibrary} {s : CacheShard}

theorem stored_eq_none {key : String} (he : s.cacheMap.lookup key = none) :
    s.stored key = none := by
  rw [stored, he]
  rfl

theorem stored_eq_some {key : String} {e : CacheEntry} (he : s.cacheMap.lookup key = some e) :
    s.stored key = some e.stored := by
  rw [stored, he]
  rfl

/-- The counter of a shard covers what is stored under a key. -/
theorem bytes_stored_le (h : s.Inv lib) (key : String) :
    bytes (s.stored key) ≤ s.memoryUsageBytes := by
  cases he : s.cacheMap.lookup key with
  | none =>
    rw [stored_eq_none he]
    exact Nat.zero_le _
  | some e =>
    rw [stored_eq_some he, h.usage_of_lookup he]
    exact Nat.le_add_right _ _

/-- An operation answers what the timed map answers, and does the same under its key. -/
theorem step_self (op : CacheOp) :
    ((step lib s op).1, (step lib s op).2.stored op.key) = effect lib (s.stored op.key) op := by
  cases op with
  | get key now =>
    cases he : s.cacheMap.lookup key with
    | none =>
      simp only [step, CacheOp.key, get_of_none he, stored_eq_none he, effect]
      simp only [stored, he, Option.map_none]
    | some e =>
      by_cases hnow : now - e.timestamp > ttlForType e.dataType
      · simp only [step, CacheOp.key, get_of_expired he hnow, stored_eq_some he, effect,
          CacheEntry.stored, if_pos hnow]
        simp only [stored, AList.lookup_erase, Option.map_none]
      · simp only [step, CacheOp.key, get_of_live he hnow, stored_eq_some he, effect,
          CacheEntry.stored, if_neg hnow]
        simp only [stored, he, Option.map_some, CacheEntry.stored]
  | put key result dataType now =>
    cases hsize : estimateEntrySize lib key result with
    | error x => simp only [step, CacheOp.key, put_of_error hsize, effect, hsize]
    | ok size =>
      cases he : s.cacheMap.lookup key with
      | some e =>
        simp only [step, CacheOp.key, put_of_some hsize he, effect, hsize]
        simp only [stored, AList.lookup_insert, Option.map_some, CacheEntry.stored]
      | none =>
        simp only [step, CacheOp.key, put_of_none hsize he, effect, hsize]
        simp only [stored, AList.lookup_insert, Option.map_some, CacheEntry.stored]

/-- What is stored under another key stays, or is evicted. -/
theorem stored_step_of_ne (h : s.Inv lib) {op : CacheOp} {key : String} (hne : key ≠ op.key) :
    (step lib s op).2.stored key = s.stored key ∨ (step lib s op).2.stored key = none := by
  cases op with
  | get key' now =>
    left
    have hne : key ≠ key' := hne
    cases he : s.cacheMap.lookup key' with
    | none => simp only [step, get_of_none he, stored]
    | some e =>
      by_cases hnow : now - e.timestamp > ttlForType e.dataType
      · simp only [step, get_of_expired he hnow, stored, AList.lookup_erase_ne hne]
      · simp only [step, get_of_live he hnow, stored]
  | put key' result dataType now =>
    have hne : key ≠ key' := hne
    cases hsize : estimateEntrySize lib key' result with
    | error x => exact .inl (by simp only [step, put_of_error hsize])
    | ok size =>
      cases he : s.cacheMap.lookup key' with
      | some e =>
        exact .inl (by simp only [step, put_of_some hsize he, stored, AList.lookup_insert_ne hne])
      | none =>
        -- what the eviction keeps, it keeps as it was
        obtain ⟨-, n, hev, -⟩ := evictIfNeeded_spec size h
        simp only [step, put_of_none hsize he, stored, AList.lookup_insert_ne hne]
        cases hk : (s.evictIfNeeded size).cacheMap.lookup key with
        | none => exact .inr rfl
        | some e => exact .inl (by rw [hev.lookup key e hk])

/-- The evictions of a shard never decrease. -/
theorem evictions_le_step (h : s.Inv lib) (op : CacheOp) :
    s.stats.evictions ≤ (step lib s op).2.stats.evictions := by
  cases op with
  | get key now =>
    simp only [step, get]
    split
    · exact le_rfl
    · split <;> exact le_rfl
  | put key result dataType now =>
    cases hsize : estimateEntrySize lib key result with
    | error x => simp only [step, put_of_error hsize, le_rfl]
    | ok size =>
      cases he : s.cacheMap.lookup key with
      | some e => simp only [step, put_of_some hsize he, le_rfl]
      | none =>
        obtain ⟨-, n, hev, -⟩ := evictIfNeeded_spec size h
        simp only [step, put_of_none hsize he, hev.stats]
        exact Nat.le_add_right _ _

/-- A `put` that counts no eviction evicts nothing. -/
theorem evictIfNeeded_eq_self (h : s.Inv lib) {size : ℕ}
    (hev : (s.evictIfNeeded size).stats.evictions = s.stats.evictions) :
    s.evictIfNeeded size = s := by
  obtain ⟨-, n, hto, hzero⟩ := evictIfNeeded_spec size h
  refine hzero ?_
  rw [hto.stats] at hev
  exact Nat.add_eq_left.1 hev

/-- Without evictions, what is stored under other keys stays, and the report of the
    shard changes as the statistics of the timed map. -/
theorem step_of_no_eviction (h : s.Inv lib) {op : CacheOp}
    (hev : (step lib s op).2.stats.evictions = s.stats.evictions) :
    (∀ key, key ≠ op.key → (step lib s op).2.stored key = s.stored key) ∧
      (step lib s op).2.report = statsAfter lib (s.stored op.key) op s.report := by
  cases op with
  | get key now =>
    cases he : s.cacheMap.lookup key with
    | none =>
      refine ⟨fun k (hk : k ≠ key) => by simp only [step, get_of_none he, stored], ?_⟩
      simp only [step, CacheOp.key, get_of_none he, stored_eq_none he]
      rfl
    | some e =>
      have hcover := h.usage_of_lookup he
      by_cases hnow : now - e.timestamp > ttlForType e.dataType
      · refine ⟨fun k (hk : k ≠ key) => by
          simp only [step, get_of_expired he hnow, stored, AList.lookup_erase_ne hk], ?_⟩
        simp only [step, CacheOp.key, get_of_expired he hnow, stored_eq_some he]
        apply CacheStats.ext' <;> simp [report, statsAfter, counts, effect, bytes,
          CacheEntry.stored, hnow]
        omega
      · refine ⟨fun k (hk : k ≠ key) => by simp only [step, get_of_live he hnow, stored], ?_⟩
        simp only [step, CacheOp.key, get_of_live he hnow, stored_eq_some he]
        apply CacheStats.ext' <;> simp [report, statsAfter, counts, effect, bytes,
          CacheEntry.stored, hnow]
        omega
  | put key result dataType now =>
    cases hsize : estimateEntrySize lib key result with
    | error x =>
      refine ⟨fun k (hk : k ≠ key) => by simp only [step, put_of_error hsize], ?_⟩
      have hcover := bytes_stored_le h key
      simp only [step, CacheOp.key, put_of_error hsize]
      apply CacheStats.ext' <;> simp [report, statsAfter, counts, effect, hsize]
      omega
    | ok size =>
      cases he : s.cacheMap.lookup key with
      | some e =>
        have hcover := h.usage_of_lookup he
        refine ⟨fun k (hk : k ≠ key) => by
          simp only [step, put_of_some hsize he, stored, AList.lookup_insert_ne hk], ?_⟩
        simp only [step, CacheOp.key, put_of_some hsize he, stored_eq_some he]
        apply CacheStats.ext' <;> simp [report, statsAfter, counts, effect, hsize, bytes,
          CacheEntry.stored]
        omega
      | none =>
        -- nothing is evicted, so there was room
        have hself : s.evictIfNeeded size = s := by
          refine evictIfNeeded_eq_self h ?_
          simpa only [step, put_of_none hsize he] using hev
        refine ⟨fun k (hk : k ≠ key) => by
          simp only [step, put_of_none hsize he, stored, AList.lookup_insert_ne hk, hself], ?_⟩
        simp only [step, CacheOp.key, put_of_none hsize he, stored_eq_none he, hself]
        apply CacheStats.ext' <;> simp [report, statsAfter, counts, effect, hsize, bytes]
        omega

end CacheShard

namespace IPCache

open TimedMap (effect statsAfter bytes)

variable {n : ℕ} [NeZero n] (hash : String → ℕ)

/-- What a cache holds under a key: what the shard of the key holds. -/
def stored (c : IPCache n) (key : String) : Option Stored :=
  (c (getShardIndex hash key)).stored key

/-- The timed map that a cache is, as long as it does not evict. -/
def toTimedMap (c : IPCache n) : TimedMap := ⟨stored hash c, getStats c⟩

variable (lib : JsonLibrary) {c : IPCache n}

/-- An operation answers what the timed map answers. -/
theorem step_answer (c : IPCache n) (op : CacheOp) :
    (step hash lib c op).1 = (effect lib (stored hash c op.key) op).1 :=
  congrArg Prod.fst (CacheShard.step_self op)

/-- An operation leaves under its key what the timed map leaves there. -/
theorem stored_step_self (c : IPCache n) (op : CacheOp) :
    stored hash (step hash lib c op).2 op.key = (effect lib (stored hash c op.key) op).2 := by
  rw [stored, step_shard_self]
  exact congrArg Prod.snd (CacheShard.step_self op)

/-- What is stored under another key stays, or is evicted. -/
theorem stored_step_of_ne (h : ∀ i, (c i).Inv lib) {op : CacheOp} {key : String}
    (hne : key ≠ op.key) :
    stored hash (step hash lib c op).2 key = stored hash c key ∨
      stored hash (step hash lib c op).2 key = none := by
  by_cases hi : (getShardIndex hash key : Fin n) = getShardIndex hash op.key
  · simp only [stored, hi, step_shard_self]
    exact CacheShard.stored_step_of_ne (h _) hne
  · left
    simp only [stored, step_shard_of_ne hash lib c hi]

/-- An operation changes the report of one shard. -/
theorem getStats_step (c : IPCache n) (op : CacheOp) :
    ∃ rest, getStats c = (c (getShardIndex hash op.key)).report + rest ∧
      getStats (step hash lib c op).2 =
        (CacheShard.step lib (c (getShardIndex hash op.key)) op).2.report + rest := by
  refine ⟨_, getStats_eq_add c (getShardIndex hash op.key), ?_⟩
  rw [getStats_eq_add _ (getShardIndex hash op.key), step_shard_self]
  refine congrArg (_ + ·) (Finset.sum_congr rfl fun j hj => ?_)
  rw [step_shard_of_ne hash lib c (Finset.ne_of_mem_erase hj)]

variable {lib}

theorem inv_step (h : ∀ i, (c i).Inv lib) (op : CacheOp) (i : Fin n) :
    ((step hash lib c op).2 i).Inv lib :=
  Machine.sharded_invariant (I := CacheShard.Inv lib)
    (fun _ op h => CacheShard.inv_step h op) op h i

/-- The evictions of a cache never decrease. -/
theorem evictions_le_step (h : ∀ i, (c i).Inv lib) (op : CacheOp) :
    (getStats c).evictions ≤ (getStats (step hash lib c op).2).evictions := by
  obtain ⟨rest, hbefore, hafter⟩ := getStats_step hash lib c op
  rw [hbefore, hafter]
  exact Nat.add_le_add_right (CacheShard.evictions_le_step (h _) op) _

theorem evictions_le_run (h : ∀ i, (c i).Inv lib) (ops : List CacheOp) :
    (getStats c).evictions ≤ (getStats ((step hash lib).run c ops)).evictions := by
  induction ops generalizing c with
  | nil => exact le_rfl
  | cons op ops ih => exact (evictions_le_step hash h op).trans (ih (inv_step hash h op))

/-- A step without evictions is the step of the timed map. -/
theorem toTimedMap_step (h : ∀ i, (c i).Inv lib) {op : CacheOp}
    (hev : (getStats (step hash lib c op).2).evictions = (getStats c).evictions) :
    (step hash lib c op).1 = (TimedMap.step lib (toTimedMap hash c) op).1 ∧
      toTimedMap hash (step hash lib c op).2 = (TimedMap.step lib (toTimedMap hash c) op).2 := by
  obtain ⟨rest, hbefore, hafter⟩ := getStats_step hash lib c op
  have hshard : (CacheShard.step lib (c (getShardIndex hash op.key)) op).2.stats.evictions =
      (c (getShardIndex hash op.key)).stats.evictions := by
    rw [hbefore, hafter] at hev
    exact Nat.add_right_cancel hev
  obtain ⟨hother, hreport⟩ := CacheShard.step_of_no_eviction (h _) hshard
  refine ⟨step_answer hash lib c op, ?_⟩
  have hstored : stored hash (step hash lib c op).2 = Function.update (stored hash c) op.key
      (effect lib (stored hash c op.key) op).2 := by
    funext key
    by_cases hkey : key = op.key
    · subst hkey
      rw [Function.update_self, stored_step_self]
    · -- another key of the same shard stays, and other shards are not touched
      rw [Function.update_of_ne hkey]
      by_cases hi : (getShardIndex hash key : Fin n) = getShardIndex hash op.key
      · simp only [stored, hi, step_shard_self]
        exact hother key hkey
      · simp only [stored, step_shard_of_ne hash lib c hi]
  have hstats : getStats (step hash lib c op).2 =
      statsAfter lib (stored hash c op.key) op (getStats c) := by
    have hcover : bytes ((c (getShardIndex hash op.key)).stored op.key) ≤
        (c (getShardIndex hash op.key)).report.memoryUsageBytes :=
      (CacheShard.bytes_stored_le (h _) op.key).trans (Nat.le_add_left _ _)
    rw [hafter, hreport, hbefore, stored, TimedMap.statsAfter_add op hcover]
  simp only [toTimedMap, TimedMap.step, hstored, hstats]

/-- A run without evictions is the run of the timed map. -/
theorem toTimedMap_run (h : ∀ i, (c i).Inv lib) {ops : List CacheOp}
    (hev : (getStats ((step hash lib).run c ops)).evictions = (getStats c).evictions) :
    (step hash lib).answers c ops = (TimedMap.step lib).answers (toTimedMap hash c) ops ∧
      toTimedMap hash ((step hash lib).run c ops) =
        (TimedMap.step lib).run (toTimedMap hash c) ops := by
  induction ops generalizing c with
  | nil => exact ⟨rfl, rfl⟩
  | cons op ops ih =>
    have hle := evictions_le_step hash h op
    have hle' := evictions_le_run hash (inv_step hash h op) ops
    rw [Machine.run_cons] at hev
    have hone : (getStats (step hash lib c op).2).evictions = (getStats c).evictions := by omega
    obtain ⟨hans, hmap⟩ := toTimedMap_step hash h hone
    obtain ⟨hans', hmap'⟩ := ih (inv_step hash h op) (by omega)
    rw [Machine.answers_cons, Machine.answers_cons, Machine.run_cons, Machine.run_cons, hans,
      hans', hmap', hmap]
    exact ⟨rfl, rfl⟩

/-- A new cache is the empty map, whatever the number of shards and the budget. -/
theorem toTimedMap_new (maxMemoryBytes : ℕ) :
    toTimedMap hash (new n maxMemoryBytes) = ⟨fun _ => none, 0⟩ := by
  have hstats : getStats (new n maxMemoryBytes) = 0 := by
    rw [getStats_eq_sum]
    exact Finset.sum_eq_zero fun i _ => rfl
  rw [toTimedMap, hstats]
  rfl

/-- A new cache whose run does not evict gives the answers and has the statistics of the
    empty map, after every part of the run. -/
theorem timedMap_of_no_eviction (maxMemoryBytes : ℕ) {ops ops₁ : List CacheOp} (hpre : ops₁ <+: ops)
    (hev : (getStats ((step hash lib).run (new n maxMemoryBytes) ops)).evictions = 0) :
    (step hash lib).answers (new n maxMemoryBytes) ops₁ =
        (TimedMap.step lib).answers ⟨fun _ => none, 0⟩ ops₁ ∧
      getStats ((step hash lib).run (new n maxMemoryBytes) ops₁) =
        ((TimedMap.step lib).run ⟨fun _ => none, 0⟩ ops₁).stats := by
  obtain ⟨ops₂, rfl⟩ := hpre
  have hinv : ∀ i, (new n maxMemoryBytes i).Inv lib := fun _ => CacheShard.inv_new _
  have hinv₁ : ∀ i : Fin n, ((step hash lib).run (new n maxMemoryBytes) ops₁ i).Inv lib :=
    inv_run hash lib maxMemoryBytes ops₁
  have hle := evictions_le_run hash hinv₁ ops₂
  rw [← Machine.run_append, hev] at hle
  have hstart : (getStats (new n maxMemoryBytes)).evictions = 0 :=
    congrArg (fun t : TimedMap => t.stats.evictions) (toTimedMap_new (n := n) hash maxMemoryBytes)
  have hsame : (getStats ((step hash lib).run (new n maxMemoryBytes) ops₁)).evictions =
      (getStats (new n maxMemoryBytes)).evictions := by omega
  obtain ⟨hans, hrun⟩ := toTimedMap_run hash hinv hsame
  rw [toTimedMap_new] at hans hrun
  exact ⟨hans, congrArg TimedMap.stats hrun⟩

end IPCache

/-- Two caches with different numbers of shards, neither of which evicts, give the same
    answers and have the same statistics all along. And in any cache, two operations on
    keys in different shards commute: in either order, each gives the same answer, and
    what comes after, answers and statistics, is the same. -/
theorem IPCache.sharding_transparent (lib : JsonLibrary) (hash : String → ℕ) :
    (∀ (n m : ℕ) [NeZero n] [NeZero m] (maxMemoryBytes maxMemoryBytes' : ℕ) (ops : List CacheOp),
      (getStats ((step hash lib).run (new n maxMemoryBytes) ops)).evictions = 0 →
      (getStats ((step hash lib).run (new m maxMemoryBytes') ops)).evictions = 0 →
        (step hash lib).answers (new n maxMemoryBytes) ops =
          (step hash lib).answers (new m maxMemoryBytes') ops ∧
        ∀ ops₁, ops₁ <+: ops →
          getStats ((step hash lib).run (new n maxMemoryBytes) ops₁) =
            getStats ((step hash lib).run (new m maxMemoryBytes') ops₁)) ∧
    ∀ (n : ℕ) [NeZero n] (c : IPCache n) (a b : CacheOp),
      (getShardIndex hash a.key : Fin n) ≠ getShardIndex hash b.key →
        (step hash lib c a).1 = (step hash lib (step hash lib c b).2 a).1 ∧
        (step hash lib c b).1 = (step hash lib (step hash lib c a).2 b).1 ∧
        ∀ ops, (step hash lib).answers ((step hash lib).run c [a, b]) ops =
            (step hash lib).answers ((step hash lib).run c [b, a]) ops ∧
          getStats ((step hash lib).run c (a :: b :: ops)) =
            getStats ((step hash lib).run c (b :: a :: ops)) := by
  refine ⟨fun n m _ _ M M' ops hn hm => ⟨?_, fun ops₁ hpre => ?_⟩, fun n _ c a b hab => ?_⟩
  · rw [(timedMap_of_no_eviction hash M List.prefix_rfl hn).1,
      (timedMap_of_no_eviction hash M' List.prefix_rfl hm).1]
  · rw [(timedMap_of_no_eviction hash M hpre hn).2, (timedMap_of_no_eviction hash M' hpre hm).2]
  · obtain ⟨ha, hrun⟩ := step_comm hash lib c hab
    obtain ⟨hb, -⟩ := step_comm hash lib c hab.symm
    refine ⟨ha.symm, hb.symm, fun ops => ?_⟩
    simp only [Machine.run_cons, Machine.run_nil, hrun, and_self]

/-- A key that is found and expires, and one that is not found. -/
def IPCache.expiringRun : List CacheOp :=
  [.put "1.1.1.1" (.string "x") .ipGeolocation 0, .get "1.1.1.1" (seconds 3600), .get "::1" 0,
    .get "1.1.1.1" (seconds 3601)]

theorem IPCache.sharding_transparent_expiringRun :
    (step String.length .sample).answers (new 1 1000) expiringRun =
        (step String.length .sample).answers (new 3 1000) expiringRun ∧
      (step String.length .sample (new 3 1000) (.get "1.1.1.1" 0)).1 =
        (step String.length .sample (step String.length .sample (new 3 1000)
          (.put "::" (.string "x") .negative 0)).2 (.get "1.1.1.1" 0)).1 :=
  ⟨((sharding_transparent .sample String.length).1 1 3 1000 1000 expiringRun (by decide +kernel)
      (by decide +kernel)).1,
    ((sharding_transparent .sample String.length).2 3 (new 3 1000) (.get "1.1.1.1" 0)
      (.put "::" (.string "x") .negative 0) (by decide +kernel)).1⟩

end IpServer
