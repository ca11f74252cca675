import Mathlib.Algebra.BigOperators.Fin
import IpServer.Cache.Shard
import IpServer.Library.Sharding

/-!
# The sharded cache

`IPCache n` is `n` shards, an operation being given to the shard that the hash of
its key selects. The hash is `std::hash<std::string>`, of which nothing is
assumed. The statistics are those of the shards, added up.
-/

namespace IpServer

namespace CacheStats

instance : Add CacheStats := ⟨add⟩

instance : Zero CacheStats := ⟨{}⟩

theorem ext' {s o : CacheStats} (h₁ : s.totalLookups = o.totalLookups) (h₂ : s.hits = o.hits)
    (h₃ : s.misses = o.misses) (h₄ : s.evictions = o.evictions)
    (h₅ : s.expiredEntries = o.expiredEntries) (h₆ : s.memoryUsageBytes = o.memoryUsageBytes) :
    s = o := by
  cases s
  cases o
  simp_all

@[simp] theorem add_totalLookups (s o : CacheStats) :
    (s + o).totalLookups = s.totalLookups + o.totalLookups := rfl
@[simp] theorem add_hits (s o : CacheStats) : (s + o).hits = s.hits + o.hits := rfl
@[simp] theorem add_misses (s o : CacheStats) : (s + o).misses = s.misses + o.misses := rfl
@[simp] theorem add_evictions (s o : CacheStats) :
    (s + o).evictions = s.evictions + o.evictions := rfl
@[simp] theorem add_expiredEntries (s o : CacheStats) :
    (s + o).expiredEntries = s.expiredEntries + o.expiredEntries := rfl
@[simp] theorem add_memoryUsageBytes (s o : CacheStats) :
    (s + o).memoryUsageBytes = s.memoryUsageBytes + o.memoryUsageBytes := rfl
@[simp] theorem zero_totalLookups : (0 : CacheStats).totalLookups = 0 := rfl
@[simp] theorem zero_hits : (0 : CacheStats).hits = 0 := rfl
@[simp] theorem zero_misses : (0 : CacheStats).misses = 0 := rfl
@[simp] theorem zero_evictions : (0 : CacheStats).evictions = 0 := rfl
@[simp] theorem zero_expiredEntries : (0 : CacheStats).expiredEntries = 0 := rfl
@[simp] theorem zero_memoryUsageBytes : (0 : CacheStats).memoryUsageBytes = 0 := rfl

/-- Statistics are added up field by field. -/
instance : AddCommMonoid CacheStats where
  add_assoc a b c := by apply ext' <;> simp [Nat.add_assoc]
  zero_add a := by apply ext' <;> simp
  add_zero a := by apply ext' <;> simp
  add_comm a b := by apply ext' <;> simp [Nat.add_comm]
  nsmul := nsmulRec

end CacheStats

/-- What `get_stats` adds up for a shard: its statistics, and its byte counter. -/
def CacheShard.report (s : CacheShard) : CacheStats :=
  { s.stats with memoryUsageBytes := s.stats.memoryUsageBytes + s.memoryUsageBytes }

/-- The cache: its shards. -/
abbrev IPCache (n : ℕ) := Fin n → CacheShard

namespace IPCache

/-- The budget of each shard, computed in `size_t`. -/
def shardMemory (maxMemoryBytes shardCount : ℕ) : ℕ :=
  (maxMemoryBytes + shardCount - 1) % 2 ^ 64 / shardCount

/-- A new cache with the budget `maxMemoryBytes`. -/
def new (n maxMemoryBytes : ℕ) : IPCache n := fun _ =>
  CacheShard.new (shardMemory maxMemoryBytes n)

/-- `IPCache::get_stats`. -/
def getStats {n : ℕ} (c : IPCache n) : CacheStats :=
  (List.ofFn c).foldl (fun combined shard =>
    { combined.add shard.stats with
      memoryUsageBytes := (combined.add shard.stats).memoryUsageBytes + shard.memoryUsageBytes }) {}

section

variable {n : ℕ} [NeZero n] (hash : String → ℕ) (lib : JsonLibrary)

/-- `IPCache::get_shard_index`. -/
def getShardIndex (key : String) : Fin n := Fin.ofNat n (hash key)

/-- `IPCache::get` and `IPCache::put`: the operation is given to the shard of its key. -/
def step : Machine (IPCache n) CacheOp CacheAnswer :=
  (CacheShard.step lib).sharded fun op => getShardIndex hash op.key

end

variable {n : ℕ}

theorem step_shard_self [NeZero n] (hash : String → ℕ) (lib : JsonLibrary) (c : IPCache n)
    (op : CacheOp) : (step hash lib c op).2 (getShardIndex hash op.key) =
      (CacheShard.step lib (c (getShardIndex hash op.key)) op).2 :=
  Machine.sharded_snd_self c op

theorem step_shard_of_ne [NeZero n] (hash : String → ℕ) (lib : JsonLibrary) (c : IPCache n)
    {op : CacheOp} {i : Fin n} (hi : i ≠ getShardIndex hash op.key) :
    (step hash lib c op).2 i = c i :=
  Machine.sharded_snd_of_ne c hi

/-- Two operations on keys in different shards commute: their answers, and the state. -/
theorem step_comm [NeZero n] (hash : String → ℕ) (lib : JsonLibrary) (c : IPCache n)
    {a b : CacheOp} (h : (getShardIndex hash a.key : Fin n) ≠ getShardIndex hash b.key) :
    (step hash lib (step hash lib c b).2 a).1 = (step hash lib c a).1 ∧
      (step hash lib (step hash lib c a).2 b).2 = (step hash lib (step hash lib c b).2 a).2 :=
  ⟨Machine.sharded_fst_comm (m := CacheShard.step lib) c h,
    Machine.sharded_snd_comm (m := CacheShard.step lib) c h⟩

/-! ## Statistics -/

/-- The statistics are the sum of the reports of the shards. -/
theorem getStats_eq_sum (c : IPCache n) : getStats c = ∑ i, (c i).report := by
  have hfold : ∀ (l : List CacheShard) (acc : CacheStats),
      l.foldl (fun combined shard =>
        { combined.add shard.stats with
          memoryUsageBytes :=
            (combined.add shard.stats).memoryUsageBytes + shard.memoryUsageBytes }) acc =
        acc + (l.map CacheShard.report).sum := by
    intro l
    induction l with
    | nil => simp
    | cons s l ih =>
      intro acc
      rw [List.foldl_cons, ih, List.map_cons, List.sum_cons, ← add_assoc]
      congr 1
      apply CacheStats.ext' <;> simp [CacheShard.report, CacheStats.add, Nat.add_assoc]
  rw [getStats, hfold, List.map_ofFn, List.sum_ofFn]
  exact zero_add _

/-- The statistics, with the report of one shard set apart. -/
theorem getStats_eq_add (c : IPCache n) (i : Fin n) :
    getStats c = (c i).report + ∑ j ∈ Finset.univ.erase i, (c j).report := by
  rw [getStats_eq_sum, Finset.add_sum_erase _ (fun j => (c j).report) (Finset.mem_univ i)]

/-! ## Runs -/

/-- What every operation preserves on a shard holds on every shard of every reachable cache. -/
theorem run_invariant [NeZero n] {hash : String → ℕ} {lib : JsonLibrary} {I : CacheShard → Prop}
    (hstep : ∀ s op, I s → I (CacheShard.step lib s op).2) {c : IPCache n} (hc : ∀ i, I (c i))
    (ops : List CacheOp) (i : Fin n) : I ((step hash lib).run c ops i) := by
  rw [step, Machine.run_sharded]
  exact Machine.run_invariant hstep _ (hc i)

/-- The representation invariant holds on every shard of every reachable cache. -/
theorem inv_run [NeZero n] (hash : String → ℕ) (lib : JsonLibrary) (maxMemoryBytes : ℕ)
    (ops : List CacheOp) (i : Fin n) :
    ((step hash lib).run (new n maxMemoryBytes) ops i).Inv lib :=
  run_invariant (I := CacheShard.Inv lib) (fun _ op h => CacheShard.inv_step h op)
    (fun _ => CacheShard.inv_new _) ops i

/-- `get_stats` counts the bytes of each shard, once. -/
theorem getStats_memoryUsageBytes [NeZero n] (hash : String → ℕ) (lib : JsonLibrary)
    (maxMemoryBytes : ℕ) (ops : List CacheOp) :
    (getStats ((step hash lib).run (new n maxMemoryBytes) ops)).memoryUsageBytes =
      ∑ i, ((step hash lib).run (new n maxMemoryBytes) ops i).memoryUsageBytes := by
  have hzero : ∀ i, ((step hash lib).run (new n maxMemoryBytes) ops i).stats.memoryUsageBytes = 0 :=
    fun i => (run_invariant
      (I := fun s => s.Inv lib ∧ s.stats.memoryUsageBytes = 0)
      (fun s op h => ⟨CacheShard.inv_step h.1 op,
        (CacheShard.stats_memoryUsageBytes_step h.1 op).trans h.2⟩)
      (fun _ => ⟨CacheShard.inv_new _, rfl⟩) ops i).2
  rw [getStats_eq_sum]
  have hmap : ∀ (f : Fin n → CacheStats) (t : Finset (Fin n)),
      (∑ i ∈ t, f i).memoryUsageBytes = ∑ i ∈ t, (f i).memoryUsageBytes := fun f t => by
    induction t using Finset.cons_induction with
    | empty => rfl
    | cons i t hi ih => rw [Finset.sum_cons, Finset.sum_cons, CacheStats.add_memoryUsageBytes, ih]
  rw [hmap]
  exact Finset.sum_congr rfl fun i _ => by rw [CacheShard.report, hzero, Nat.zero_add]

end IPCache

end IpServer
