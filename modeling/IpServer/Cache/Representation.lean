import IpServer.Cache.Shard

/-!
# The representation of a shard

What the invariant of a shard means for its code: list and map hold the same keys,
every iterator designates the node of its own key, every entry has the size it was
given, and the byte counter is the sum of these sizes. So nothing that is taken off
the counter makes it wrap, the key at the back of the list always has an entry, also
between two turns of the eviction loop, and this loop ends
(`representation_invariant`).
-/

namespace IpServer.CacheShard

variable {lib : JsonLibrary} {s : CacheShard}

/-- A sequence of turns of the eviction loop may be cut anywhere. -/
theorem evictLoop_add (newEntrySize turns more : ℕ) : evictLoop newEntrySize (turns + more) s =
    evictLoop newEntrySize more (evictLoop newEntrySize turns s) := by
  induction turns generalizing s with
  | zero => rw [Nat.zero_add, evictLoop]
  | succ turns ih =>
    rw [Nat.add_right_comm, evictLoop, evictLoop]
    split
    · next hfull =>
      split
      · next hback =>
        -- nothing is left: another turn changes nothing
        cases more with
        | zero => rw [evictLoop]
        | succ more => rw [evictLoop, if_pos hfull, hback]
      · exact ih
    · next hfits =>
      cases more with
      | zero => rw [evictLoop]
      | succ more => rw [evictLoop, if_neg hfits]

/-- When the eviction loop is done, its condition no longer holds. -/
theorem evictIfNeeded_exit (h : s.Inv lib) (newEntrySize : ℕ) :
    (s.evictIfNeeded newEntrySize).cacheList.back? = none ∨
      (s.evictIfNeeded newEntrySize).memoryUsageBytes + newEntrySize ≤
        (s.evictIfNeeded newEntrySize).maxMemoryBytes := by
  obtain ⟨hinv, n, hto, -⟩ := evictIfNeeded_spec newEntrySize h
  rw [hto.budget]
  rcases evictIfNeeded_done newEntrySize h with hle | hempty
  · exact .inr hle
  · refine .inl (Option.eq_none_iff_forall_ne_some.2 fun key hkey => ?_)
    obtain ⟨e, he, -⟩ := hinv.linked.lookup_back hkey
    rw [hempty] at he
    cases he

/-- More turns than there are nodes change nothing. -/
theorem evictLoop_of_le (h : s.Inv lib) {newEntrySize turns : ℕ}
    (hturns : s.cacheList.nodes.length ≤ turns) :
    evictLoop newEntrySize turns s = s.evictIfNeeded newEntrySize := by
  obtain ⟨more, rfl⟩ := Nat.exists_eq_add_of_le hturns
  rw [evictLoop_add, ← evictIfNeeded]
  cases more with
  | zero => rw [evictLoop]
  | succ more =>
    rw [evictLoop]
    rcases evictIfNeeded_exit h newEntrySize with hback | hle
    · split
      · have hnone : (s.evictIfNeeded newEntrySize).evictBack = none := by
          rw [evictBack, hback]
        rw [hnone]
      · rfl
    · rw [if_neg (not_lt.2 hle)]

/-- The key at the back has an entry, whose size the counter covers. -/
theorem Inv.lookup_back (h : s.Inv lib) {key : String} (hkey : s.cacheList.back? = some key) :
    ∃ e, s.cacheMap.lookup key = some e ∧ e.sizeBytes ≤ s.memoryUsageBytes := by
  obtain ⟨e, he, -⟩ := h.linked.lookup_back hkey
  refine ⟨e, he, ?_⟩
  rw [h.usage_of_lookup he]
  exact Nat.le_add_right _ _

/-- The handle of an entry designates the node of its key, and no other. -/
theorem Inv.handle (h : s.Inv lib) {key : String} {e : CacheEntry}
    (he : s.cacheMap.lookup key = some e) {key' : String} :
    (e.listIt, key') ∈ s.cacheList.nodes ↔ key' = key := by
  constructor
  · intro hmem
    obtain ⟨e', he', hit⟩ := h.linked.record _ hmem
    exact h.linked.key_eq_of_handle he' he hit
  · rintro rfl
    exact h.linked.node _ e he

/-- An entry has the size of its key, twice, and of its value. -/
theorem Inv.sizeBytes_eq (h : s.Inv lib) {key : String} {e : CacheEntry}
    (he : s.cacheMap.lookup key = some e) :
    ∃ text, lib.dump e.result = .ok text ∧ e.sizeBytes = 2 * key.length + text.length := by
  obtain ⟨text, htext, hsize⟩ := map_eq_ok.1 (h.size key e he)
  refine ⟨text, htext, ?_⟩
  rw [← hsize, Nat.mul_comm]

/-- In every state a run reaches: the list holds the keys of the map, once each; the iterator of
    an entry designates the node of its key; every entry has its size, and the counter is the sum
    of the sizes. Hence, in such a state and after any number of turns of the eviction loop, the
    key at the back has an entry, and no size is larger than the counter; and the loop ends,
    after as many turns as the list has nodes. A `put` that cannot serialise its value changes
    nothing. -/
theorem representation_invariant (lib : JsonLibrary) (maxMemoryBytes : ℕ) (ops : List CacheOp) :
    let s := (step lib).run (new maxMemoryBytes) ops
    s.cacheList.values.Nodup ∧
    (∀ key, key ∈ s.cacheList.values ↔ key ∈ s.cacheMap) ∧
    (∀ key e, s.cacheMap.lookup key = some e →
      (∀ key', (e.listIt, key') ∈ s.cacheList.nodes ↔ key' = key) ∧
      (∃ text, lib.dump e.result = .ok text ∧ e.sizeBytes = 2 * key.length + text.length) ∧
      e.sizeBytes ≤ s.memoryUsageBytes) ∧
    s.memoryUsageBytes = (s.cacheMap.entries.map fun entry => entry.2.sizeBytes).sum ∧
    (∀ newEntrySize turns key, (evictLoop newEntrySize turns s).cacheList.back? = some key →
      ∃ e, (evictLoop newEntrySize turns s).cacheMap.lookup key = some e ∧
        e.sizeBytes ≤ (evictLoop newEntrySize turns s).memoryUsageBytes) ∧
    (∀ newEntrySize,
      (∀ turns, s.cacheList.nodes.length ≤ turns →
        evictLoop newEntrySize turns s = s.evictIfNeeded newEntrySize) ∧
      ((s.evictIfNeeded newEntrySize).cacheList.back? = none ∨
        (s.evictIfNeeded newEntrySize).memoryUsageBytes + newEntrySize ≤
          (s.evictIfNeeded newEntrySize).maxMemoryBytes)) ∧
    ∀ key result dataType now e, lib.dump result = .error e →
      s.put lib key result dataType now = (.error e, s) := by
  intro s
  have hinv : s.Inv lib := inv_run (inv_new maxMemoryBytes) ops
  refine ⟨hinv.linked.nodup_values, fun key => ?_, fun key e he => ⟨fun key' => hinv.handle he,
    hinv.sizeBytes_eq he, ?_⟩, hinv.usage, fun newEntrySize turns key hkey => ?_,
    fun newEntrySize => ⟨fun turns hturns => evictLoop_of_le hinv hturns,
      evictIfNeeded_exit hinv newEntrySize⟩, fun key result dataType now e hdump => ?_⟩
  · rw [hinv.linked.mem_values, ← Option.isSome_iff_exists, AList.lookup_isSome]
  · rw [hinv.usage_of_lookup he]
    exact Nat.le_add_right _ _
  · exact (evictLoop_spec newEntrySize turns hinv).1.lookup_back hkey
  · refine put_of_error ?_
    rw [estimateEntrySize, hdump]
    rfl

end IpServer.CacheShard
