import IpServer.Json
import IpServer.Library.LinkedMap
import IpServer.Library.Machine

/-!
# A shard of the cache

`CacheShard` is a map of entries with a list of its keys in the order of their
last use, bounded by a memory budget. Both `get` and `put` run under the lock of
the shard and read the clock there, so that a shard is a machine whose inputs
carry the readings (`CacheShard.step`).

* `get` finds the entry of a key; an entry older than the time to live of its
  type is erased, any other is moved to the front of the list.
* `put` overwrites the entry of a key in place, or else makes room, evicting
  entries from the back of the list, and inserts a new entry at the front.
* The size of an entry is estimated by serialising its value; a value that cannot
  be serialised makes `put` throw before anything has changed.

`CacheShard.Inv` is the representation invariant: map and list are linked, every
entry has its estimated size, and the byte counter is the sum of the sizes. Every
operation preserves it (`inv_step`), so it holds in every state a run reaches
(`inv_run`).
-/

namespace IpServer

/-- What an entry holds, which decides how long it lives. -/
inductive CacheDataType
  | ipGeolocation
  | macOui
  | negative
  deriving Repr, DecidableEq

/-- The counters of a shard, or of a whole cache. -/
structure CacheStats where
  totalLookups : ℕ := 0
  hits : ℕ := 0
  misses : ℕ := 0
  evictions : ℕ := 0
  expiredEntries : ℕ := 0
  memoryUsageBytes : ℕ := 0
  deriving Repr, DecidableEq

/-- `CacheStats::operator+=`. -/
def CacheStats.add (s o : CacheStats) : CacheStats where
  totalLookups := s.totalLookups + o.totalLookups
  hits := s.hits + o.hits
  misses := s.misses + o.misses
  evictions := s.evictions + o.evictions
  expiredEntries := s.expiredEntries + o.expiredEntries
  memoryUsageBytes := s.memoryUsageBytes + o.memoryUsageBytes

/-- An entry of the cache; `listIt` is the handle of the node of its key. -/
structure CacheEntry where
  result : Json
  timestamp : TimePoint
  listIt : ℕ
  sizeBytes : ℕ
  dataType : CacheDataType

/-- A shard of the cache. -/
structure CacheShard where
  cacheMap : Dict String CacheEntry
  cacheList : NodeList String
  maxMemoryBytes : ℕ
  memoryUsageBytes : ℕ
  stats : CacheStats

/-- An operation on the cache, with the clock reading it takes. -/
inductive CacheOp
  | get (key : String) (now : TimePoint)
  | put (key : String) (result : Json) (dataType : CacheDataType) (now : TimePoint)

/-- What an operation answers: `get` a value or nothing, `put` nothing, unless it throws. -/
inductive CacheAnswer
  | got (result : Option Json)
  | stored
  | threw (e : Exn)

/-- The key an operation is about. -/
def CacheOp.key : CacheOp → String
  | .get key _ => key
  | .put key _ _ _ => key

namespace CacheShard

/-- A new shard with the budget `maxMemoryBytes`. -/
def new (maxMemoryBytes : ℕ) : CacheShard where
  cacheMap := ∅
  cacheList := .empty
  maxMemoryBytes := maxMemoryBytes
  memoryUsageBytes := 0
  stats := {}

/-- The fixed time to live of each type of entry. -/
def ttlForType : CacheDataType → ℤ
  | .ipGeolocation => seconds 3600
  | .macOui => seconds (7 * 24 * 3600)
  | .negative => seconds 300

/-- `CacheShard::get`. -/
def get (s : CacheShard) (key : String) (now : TimePoint) : Option Json × CacheShard :=
  let stats := { s.stats with totalLookups := s.stats.totalLookups + 1 }
  match s.cacheMap.lookup key with
  | none => (none, { s with stats := { stats with misses := stats.misses + 1 } })
  | some e =>
    if now - e.timestamp > ttlForType e.dataType then
      (none, { s with
        cacheList := s.cacheList.erase e.listIt
        memoryUsageBytes := s.memoryUsageBytes - e.sizeBytes
        cacheMap := s.cacheMap.erase key
        stats := { stats with
          expiredEntries := stats.expiredEntries + 1
          misses := stats.misses + 1 } })
    else
      (some e.result, { s with
        cacheList := s.cacheList.spliceFront e.listIt
        stats := { stats with hits := stats.hits + 1 } })

/-- One turn of the loop of `evict_if_needed`: the entry of the key at the back of
    the list is removed. There is nothing to remove when the list is empty, or when
    the key has no entry (which would make the source dereference `end()`). -/
def evictBack (s : CacheShard) : Option CacheShard :=
  match s.cacheList.back? with
  | none => none
  | some key =>
    match s.cacheMap.lookup key with
    | none => none
    | some e =>
      some { s with
        memoryUsageBytes := s.memoryUsageBytes - e.sizeBytes
        cacheList := s.cacheList.erase e.listIt
        cacheMap := s.cacheMap.erase key
        stats := { s.stats with evictions := s.stats.evictions + 1 } }

/-- The loop of `evict_if_needed`, for at most `fuel` turns. -/
def evictLoop (newEntrySize : ℕ) : ℕ → CacheShard → CacheShard
  | 0, s => s
  | fuel + 1, s =>
    if s.memoryUsageBytes + newEntrySize > s.maxMemoryBytes then
      match s.evictBack with
      | none => s
      | some s' => evictLoop newEntrySize fuel s'
    else s

/-- `CacheShard::evict_if_needed`. Every turn removes a node of the list, so as many
    turns as there are nodes are enough (`evictIfNeeded_done`). -/
def evictIfNeeded (s : CacheShard) (newEntrySize : ℕ) : CacheShard :=
  evictLoop newEntrySize s.cacheList.nodes.length s

variable (lib : JsonLibrary)

/-- `CacheShard::estimate_entry_size`. -/
def estimateEntrySize (key : String) (result : Json) : Except Exn ℕ :=
  (lib.dump result).map fun text => key.length * 2 + text.length

/-- `CacheShard::put`. -/
def put (s : CacheShard) (key : String) (result : Json) (dataType : CacheDataType)
    (now : TimePoint) : Except Exn Unit × CacheShard :=
  match estimateEntrySize lib key result with
  | .error e => (.error e, s)
  | .ok entrySize =>
    match s.cacheMap.lookup key with
    | some e =>
      (.ok (), { s with
        memoryUsageBytes := s.memoryUsageBytes - e.sizeBytes + entrySize
        cacheMap := s.cacheMap.insert key ⟨result, now, e.listIt, entrySize, dataType⟩
        cacheList := s.cacheList.spliceFront e.listIt })
    | none =>
      let s := s.evictIfNeeded entrySize
      (.ok (), { s with
        cacheList := s.cacheList.pushFront key
        cacheMap := s.cacheMap.insert key ⟨result, now, s.cacheList.next, entrySize, dataType⟩
        memoryUsageBytes := s.memoryUsageBytes + entrySize })

/-- A shard as a machine. -/
def step : Machine CacheShard CacheOp CacheAnswer
  | s, .get key now => (.got (s.get key now).1, (s.get key now).2)
  | s, .put key result dataType now =>
    (match (s.put lib key result dataType now).1 with
      | .ok () => .stored
      | .error e => .threw e, (s.put lib key result dataType now).2)

/-! ## The representation invariant -/

/-- The representation invariant of a shard. -/
structure Inv (s : CacheShard) : Prop where
  linked : Linked CacheEntry.listIt s.cacheMap s.cacheList
  size : ∀ key e, s.cacheMap.lookup key = some e →
    estimateEntrySize lib key e.result = .ok e.sizeBytes
  usage : s.memoryUsageBytes = Dict.total CacheEntry.sizeBytes s.cacheMap

variable {lib} {s : CacheShard}

theorem inv_new (maxMemoryBytes : ℕ) : (new maxMemoryBytes).Inv lib where
  linked := .empty
  size _ _ h := by simp [new] at h
  usage := rfl

/-- The counter covers the size of every entry: taking it off does not wrap. -/
theorem Inv.usage_of_lookup (h : s.Inv lib) {key : String} {e : CacheEntry}
    (he : s.cacheMap.lookup key = some e) :
    s.memoryUsageBytes = e.sizeBytes + Dict.total CacheEntry.sizeBytes (s.cacheMap.erase key) := by
  rw [h.usage, Dict.total_of_lookup _ he]

/-- Erasing an entry with its node preserves the invariant. -/
theorem Inv.erase (h : s.Inv lib) {key : String} {e : CacheEntry}
    (he : s.cacheMap.lookup key = some e) (stats : CacheStats) :
    Inv lib { s with
      cacheList := s.cacheList.erase e.listIt
      memoryUsageBytes := s.memoryUsageBytes - e.sizeBytes
      cacheMap := s.cacheMap.erase key
      stats := stats } where
  linked := h.linked.erase he
  size k e' he' := by
    have hne : k ≠ key := fun heq => by rw [heq, AList.lookup_erase] at he'; cases he'
    exact h.size k e' (by rwa [AList.lookup_erase_ne hne] at he')
  usage := by
    rw [h.usage_of_lookup he]
    exact Nat.add_sub_cancel_left _ _

/-! ## Eviction -/

/-- The shard `s'` is `s` after `n` evictions: some entries are gone, the rest is as it was. -/
structure EvictsTo (s s' : CacheShard) (n : ℕ) : Prop where
  lookup : ∀ key e, s'.cacheMap.lookup key = some e → s.cacheMap.lookup key = some e
  budget : s'.maxMemoryBytes = s.maxMemoryBytes
  next : s'.cacheList.next = s.cacheList.next
  usage : s'.memoryUsageBytes ≤ s.memoryUsageBytes
  stats : s'.stats = { s.stats with evictions := s.stats.evictions + n }

theorem EvictsTo.refl (s : CacheShard) : s.EvictsTo s 0 :=
  ⟨fun _ _ h => h, rfl, rfl, le_rfl, rfl⟩

theorem EvictsTo.trans {s s' s'' : CacheShard} {n n' : ℕ} (h : s.EvictsTo s' n)
    (h' : s'.EvictsTo s'' n') : s.EvictsTo s'' (n + n') where
  lookup key e he := h.lookup key e (h'.lookup key e he)
  budget := h'.budget.trans h.budget
  next := h'.next.trans h.next
  usage := h'.usage.trans h.usage
  stats := by rw [h'.stats, h.stats, Nat.add_assoc]

/-- What one turn of the eviction loop does. -/
theorem evictBack_some (h : s.Inv lib) {s' : CacheShard} (hs' : s.evictBack = some s') :
    s'.Inv lib ∧ s.EvictsTo s' 1 ∧ s'.cacheList.nodes.length < s.cacheList.nodes.length := by
  unfold evictBack at hs'
  split at hs'
  · cases hs'
  rename_i key hkey
  split at hs'
  · cases hs'
  rename_i e he
  cases hs'
  refine ⟨h.erase he _, ⟨fun k e' he' => ?_, rfl, rfl, Nat.sub_le _ _, rfl⟩, ?_⟩
  · have hne : k ≠ key := fun heq => by rw [heq, AList.lookup_erase] at he'; cases he'
    rwa [AList.lookup_erase_ne hne] at he'
  · refine List.length_filter_lt_length_iff_exists.2 ⟨_, h.linked.node key e he, ?_⟩
    simp

/-- There is nothing left to evict only when the list is empty. -/
theorem evictBack_none (h : s.Inv lib) (hs : s.evictBack = none) : s.cacheMap = ∅ := by
  unfold evictBack at hs
  split at hs
  · exact h.linked.eq_empty ‹_›
  rename_i key hkey
  obtain ⟨e, he, -⟩ := h.linked.lookup_back hkey
  rw [he] at hs
  cases hs

theorem evictLoop_spec (newEntrySize fuel : ℕ) (h : s.Inv lib) :
    (evictLoop newEntrySize fuel s).Inv lib ∧
      ∃ n, s.EvictsTo (evictLoop newEntrySize fuel s) n ∧
        (n = 0 → evictLoop newEntrySize fuel s = s) := by
  induction fuel generalizing s with
  | zero => exact ⟨h, 0, .refl s, fun _ => rfl⟩
  | succ fuel ih =>
    unfold evictLoop
    split
    · split
      · exact ⟨h, 0, .refl s, fun _ => rfl⟩
      · rename_i s' hs'
        obtain ⟨hinv, hev, -⟩ := evictBack_some h hs'
        obtain ⟨hinv', n, hev', -⟩ := ih hinv
        exact ⟨hinv', 1 + n, hev.trans hev', fun h0 => absurd h0 (by omega)⟩
    · exact ⟨h, 0, .refl s, fun _ => rfl⟩

/-- With a turn for every node, the loop ends when the new entry fits, or when no
    entry is left. -/
theorem evictLoop_done (newEntrySize fuel : ℕ) (h : s.Inv lib)
    (hfuel : s.cacheList.nodes.length ≤ fuel) :
    (evictLoop newEntrySize fuel s).memoryUsageBytes + newEntrySize ≤ s.maxMemoryBytes ∨
      (evictLoop newEntrySize fuel s).cacheMap = ∅ := by
  induction fuel generalizing s with
  | zero =>
    right
    have hnodes : s.cacheList.nodes = [] := List.length_eq_zero_iff.1 (Nat.le_zero.1 hfuel)
    exact h.linked.eq_empty (by rw [NodeList.back?, hnodes]; rfl)
  | succ fuel ih =>
    unfold evictLoop
    split
    · split
      · exact .inr (evictBack_none h ‹_›)
      · rename_i s' hs'
        obtain ⟨hinv, hev, hlen⟩ := evictBack_some h hs'
        rw [← hev.budget]
        exact ih hinv (by omega)
    · exact .inl (by omega)

/-- `evict_if_needed` preserves the invariant and only evicts. -/
theorem evictIfNeeded_spec (newEntrySize : ℕ) (h : s.Inv lib) :
    (s.evictIfNeeded newEntrySize).Inv lib ∧
      ∃ n, s.EvictsTo (s.evictIfNeeded newEntrySize) n ∧
        (n = 0 → s.evictIfNeeded newEntrySize = s) :=
  evictLoop_spec _ _ h

/-- After `evict_if_needed`, the new entry fits, or no entry is left. -/
theorem evictIfNeeded_done (newEntrySize : ℕ) (h : s.Inv lib) :
    (s.evictIfNeeded newEntrySize).memoryUsageBytes + newEntrySize ≤ s.maxMemoryBytes ∨
      (s.evictIfNeeded newEntrySize).cacheMap = ∅ :=
  evictLoop_done _ _ h le_rfl

/-! ## Operations -/

theorem get_of_none {key : String} (he : s.cacheMap.lookup key = none) (now : TimePoint) :
    s.get key now = (none, { s with stats := { s.stats with
      totalLookups := s.stats.totalLookups + 1
      misses := s.stats.misses + 1 } }) := by
  simp only [get, he]

theorem get_of_expired {key : String} {e : CacheEntry} {now : TimePoint}
    (he : s.cacheMap.lookup key = some e) (hnow : now - e.timestamp > ttlForType e.dataType) :
    s.get key now = (none, { s with
      cacheList := s.cacheList.erase e.listIt
      memoryUsageBytes := s.memoryUsageBytes - e.sizeBytes
      cacheMap := s.cacheMap.erase key
      stats := { s.stats with
        totalLookups := s.stats.totalLookups + 1
        expiredEntries := s.stats.expiredEntries + 1
        misses := s.stats.misses + 1 } }) := by
  simp only [get, he, if_pos hnow]

theorem get_of_live {key : String} {e : CacheEntry} {now : TimePoint}
    (he : s.cacheMap.lookup key = some e) (hnow : ¬now - e.timestamp > ttlForType e.dataType) :
    s.get key now = (some e.result, { s with
      cacheList := s.cacheList.spliceFront e.listIt
      stats := { s.stats with
        totalLookups := s.stats.totalLookups + 1
        hits := s.stats.hits + 1 } }) := by
  simp only [get, he, if_neg hnow]

theorem inv_get (h : s.Inv lib) (key : String) (now : TimePoint) : (s.get key now).2.Inv lib := by
  cases he : s.cacheMap.lookup key with
  | none =>
    rw [get_of_none he]
    exact ⟨h.linked, h.size, h.usage⟩
  | some e =>
    by_cases hnow : now - e.timestamp > ttlForType e.dataType
    · rw [get_of_expired he hnow]
      exact h.erase he _
    · rw [get_of_live he hnow]
      exact ⟨h.linked.spliceFront _, h.size, h.usage⟩

section Put

variable {key : String} {result : Json} {dataType : CacheDataType} {now : TimePoint}
  {entrySize : ℕ}

theorem put_of_error {x : Exn} (hsize : estimateEntrySize lib key result = .error x) :
    s.put lib key result dataType now = (.error x, s) := by
  simp only [put, hsize]

theorem put_of_some {e : CacheEntry} (hsize : estimateEntrySize lib key result = .ok entrySize)
    (he : s.cacheMap.lookup key = some e) :
    s.put lib key result dataType now = (.ok (), { s with
      memoryUsageBytes := s.memoryUsageBytes - e.sizeBytes + entrySize
      cacheMap := s.cacheMap.insert key ⟨result, now, e.listIt, entrySize, dataType⟩
      cacheList := s.cacheList.spliceFront e.listIt }) := by
  simp only [put, hsize, he]

theorem put_of_none (hsize : estimateEntrySize lib key result = .ok entrySize)
    (he : s.cacheMap.lookup key = none) :
    s.put lib key result dataType now = (.ok (), { s.evictIfNeeded entrySize with
      cacheList := (s.evictIfNeeded entrySize).cacheList.pushFront key
      cacheMap := (s.evictIfNeeded entrySize).cacheMap.insert key
        ⟨result, now, (s.evictIfNeeded entrySize).cacheList.next, entrySize, dataType⟩
      memoryUsageBytes := (s.evictIfNeeded entrySize).memoryUsageBytes + entrySize }) := by
  simp only [put, hsize, he]

/-- The map after an entry of the right size is inserted or overwritten still holds
    entries of the right sizes only. -/
theorem Inv.size_insert (h : s.Inv lib) {n : ℕ}
    (hsize : estimateEntrySize lib key result = .ok entrySize) :
    ∀ k e, (s.cacheMap.insert key ⟨result, now, n, entrySize, dataType⟩).lookup k = some e →
      estimateEntrySize lib k e.result = .ok e.sizeBytes := by
  intro k e he
  by_cases hk : k = key
  · subst hk
    rw [AList.lookup_insert, Option.some_inj] at he
    rw [← he]
    exact hsize
  · rw [AList.lookup_insert_ne hk] at he
    exact h.size k e he

/-- A key without an entry stays without one when others are evicted. -/
theorem lookup_evictIfNeeded (h : s.Inv lib) (entrySize : ℕ)
    (he : s.cacheMap.lookup key = none) :
    (s.evictIfNeeded entrySize).cacheMap.lookup key = none := by
  obtain ⟨-, n, hev, -⟩ := evictIfNeeded_spec entrySize h
  refine Option.eq_none_iff_forall_ne_some.2 fun e hsome => ?_
  rw [hev.lookup key e hsome] at he
  cases he

theorem inv_put (h : s.Inv lib) : (s.put lib key result dataType now).2.Inv lib := by
  cases hsize : estimateEntrySize lib key result with
  | error x =>
    rw [put_of_error hsize]
    exact h
  | ok entrySize =>
    cases he : s.cacheMap.lookup key with
    | some e =>
      rw [put_of_some hsize he]
      refine ⟨.spliceFront (h.linked.insert_same he ?_) _, h.size_insert hsize, ?_⟩
      · rfl
      · rw [Dict.total_insert, h.usage_of_lookup he]
        dsimp only
        omega
    | none =>
      rw [put_of_none hsize he]
      have hnone := lookup_evictIfNeeded h entrySize he
      obtain ⟨hinv, -⟩ := evictIfNeeded_spec entrySize h
      refine ⟨hinv.linked.insert_pushFront hnone rfl, hinv.size_insert hsize, ?_⟩
      rw [Dict.total_insert, Dict.erase_of_lookup_none hnone, ← hinv.usage]
      exact Nat.add_comm _ _

end Put

/-- Every operation preserves the invariant. -/
theorem inv_step (h : s.Inv lib) (op : CacheOp) : (step lib s op).2.Inv lib := by
  cases op with
  | get key now => exact inv_get h key now
  | put key result dataType now => exact inv_put h

/-- The invariant holds in every state a run reaches. -/
theorem inv_run (h : s.Inv lib) (ops : List CacheOp) : ((step lib).run s ops).Inv lib :=
  Machine.run_invariant (I := Inv lib) (fun _ op hs => inv_step hs op) ops h

/-- The budget of a shard never changes. -/
@[simp] theorem maxMemoryBytes_step (h : s.Inv lib) (op : CacheOp) :
    (step lib s op).2.maxMemoryBytes = s.maxMemoryBytes := by
  cases op with
  | get key now =>
    simp only [step, get]
    split
    · rfl
    · split <;> rfl
  | put key result dataType now =>
    cases hsize : estimateEntrySize lib key result with
    | error x => simp only [step, put_of_error hsize]
    | ok entrySize =>
      cases he : s.cacheMap.lookup key with
      | some e => simp only [step, put_of_some hsize he]
      | none =>
        simp only [step, put_of_none hsize he]
        obtain ⟨-, n, hev, -⟩ := evictIfNeeded_spec entrySize h
        exact hev.budget

theorem maxMemoryBytes_run (h : s.Inv lib) (ops : List CacheOp) :
    ((step lib).run s ops).maxMemoryBytes = s.maxMemoryBytes := by
  induction ops generalizing s with
  | nil => rfl
  | cons op ops ih => exact (ih (inv_step h op)).trans (maxMemoryBytes_step h op)

/-- A shard never writes the byte counter of its statistics. -/
theorem stats_memoryUsageBytes_step (h : s.Inv lib) (op : CacheOp) :
    (step lib s op).2.stats.memoryUsageBytes = s.stats.memoryUsageBytes := by
  cases op with
  | get key now =>
    simp only [step, get]
    split
    · rfl
    · split <;> rfl
  | put key result dataType now =>
    cases hsize : estimateEntrySize lib key result with
    | error x => simp only [step, put_of_error hsize]
    | ok entrySize =>
      cases he : s.cacheMap.lookup key with
      | some e => simp only [step, put_of_some hsize he]
      | none =>
        simp only [step, put_of_none hsize he]
        obtain ⟨-, n, hev, -⟩ := evictIfNeeded_spec entrySize h
        rw [hev.stats]

end CacheShard

end IpServer
