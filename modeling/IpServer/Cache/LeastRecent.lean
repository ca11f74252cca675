import IpServer.Cache.TimedMap
import IpServer.Library.Recency

/-!
# Eviction from the least recently used end

The list of a shard holds its keys in the order of their last touch, a touch being a
`get` that hits or a `put` (`inOrder_run`). Room is made from the far end of this
order: what is evicted is the shortest suffix whose removal lets the new entry fit,
or everything (`evictLoop_suffix`, `eviction_minimal`).
-/

namespace IpServer.CacheShard

variable (lib : JsonLibrary) (s : CacheShard)

/-- The key that an operation touches: that of a `get` that hits, or of a `put` that stores. -/
def touched : CacheOp → List String
  | .get key now => if (s.get key now).1.isSome then [key] else []
  | .put key result _ _ => if (estimateEntrySize lib key result).toOption.isSome then [key] else []

/-- The size of the entry of a key. -/
def sizeOf (key : String) : ℕ := ((s.cacheMap.lookup key).map CacheEntry.sizeBytes).getD 0

variable {lib s} {touches : List String}

/-! ## The order of the list -/

theorem evictBack_eq_some {s' : CacheShard} (hs' : s.evictBack = some s') :
    ∃ key e, s.cacheList.back? = some key ∧ s.cacheMap.lookup key = some e ∧ s' = { s with
      memoryUsageBytes := s.memoryUsageBytes - e.sizeBytes
      cacheList := s.cacheList.erase e.listIt
      cacheMap := s.cacheMap.erase key
      stats := { s.stats with evictions := s.stats.evictions + 1 } } := by
  unfold evictBack at hs'
  split at hs'
  · cases hs'
  · next key hkey =>
    split at hs'
    · cases hs'
    · next e he => exact ⟨key, e, hkey, he, (Option.some_inj.1 hs').symm⟩

/-- One turn of the loop takes the key at the back off the list, with its size. -/
theorem values_evictBack (h : s.Inv lib) {s' : CacheShard} (hs' : s.evictBack = some s') :
    ∃ key, s.cacheList.values = s'.cacheList.values ++ [key] ∧
      s'.stats.evictions = s.stats.evictions + 1 ∧
      ∀ k ∈ s'.cacheList.values, s'.cacheMap.lookup k = s.cacheMap.lookup k := by
  obtain ⟨key, e, hback, he, rfl⟩ := evictBack_eq_some hs'
  obtain ⟨e', he', ns, hnodes⟩ := h.linked.lookup_back hback
  have hvalues : s.cacheList.values = ns.map Prod.snd ++ [key] := by
    rw [NodeList.values, hnodes, List.map_append]
    rfl
  have hnodup := h.linked.nodup_values
  rw [hvalues, List.nodup_append] at hnodup
  have hne : ∀ k ∈ ns.map Prod.snd, k ≠ key := fun k hk =>
    hnodup.2.2 k hk key (List.mem_singleton_self key)
  have herase : (s.cacheList.erase e.listIt).values = ns.map Prod.snd := by
    rw [h.linked.values_erase he, hvalues, List.filter_append,
      List.filter_eq_self.2 fun k hk => decide_eq_true (hne k hk)]
    simp
  refine ⟨key, by rw [herase, hvalues], rfl, fun k hk => ?_⟩
  rw [herase] at hk
  exact AList.lookup_erase_ne (hne k hk)

/-- What the loop evicts is a suffix of the list, and no shorter one would do. -/
theorem evictLoop_suffix (newEntrySize fuel : ℕ) (h : s.Inv lib) :
    ∃ evicted, s.cacheList.values = (evictLoop newEntrySize fuel s).cacheList.values ++ evicted ∧
      (evictLoop newEntrySize fuel s).stats.evictions = s.stats.evictions + evicted.length ∧
      (∀ k ∈ (evictLoop newEntrySize fuel s).cacheList.values,
        (evictLoop newEntrySize fuel s).cacheMap.lookup k = s.cacheMap.lookup k) ∧
      ∀ kept evicted', s.cacheList.values = kept ++ evicted' →
        (kept.map s.sizeOf).sum + newEntrySize ≤ s.maxMemoryBytes →
          evicted.length ≤ evicted'.length := by
  induction fuel generalizing s with
  | zero => exact ⟨[], (List.append_nil _).symm, rfl, fun _ _ => rfl, fun _ _ _ _ => Nat.zero_le _⟩
  | succ fuel ih =>
    unfold evictLoop
    split
    · next hfull =>
      split
      · exact ⟨[], (List.append_nil _).symm, rfl, fun _ _ => rfl, fun _ _ _ _ => Nat.zero_le _⟩
      · next s' hs' =>
        obtain ⟨hinv', hto, -⟩ := evictBack_some h hs'
        obtain ⟨key, hvalues, hcount, hsame⟩ := values_evictBack h hs'
        obtain ⟨evicted, hsplit, hcount', hsame', hshortest⟩ := ih hinv'
        refine ⟨evicted ++ [key], ?_, ?_, fun k hk => ?_, fun kept evicted' heq hfits => ?_⟩
        · rw [hvalues, hsplit, List.append_assoc]
        · rw [hcount', hcount, List.length_append, List.length_singleton]
          omega
        · have hk' : k ∈ s'.cacheList.values := by
            rw [hsplit]
            exact List.mem_append_left _ hk
          rw [hsame' k hk, hsame k hk']
        · rcases List.eq_nil_or_concat evicted' with rfl | ⟨shorter, key', rfl⟩
          · -- with nothing evicted, the new entry does not fit
            rw [List.append_nil] at heq
            rw [h.usage, h.linked.total_eq_sum, heq] at hfull
            exact absurd hfits (not_le.2 hfull)
          · rw [hvalues, List.concat_eq_append, ← List.append_assoc] at heq
            obtain ⟨hvalues', -⟩ := List.append_inj' heq rfl
            have hsizes : kept.map s'.sizeOf = kept.map s.sizeOf := by
              refine List.map_congr_left fun k hk => ?_
              rw [sizeOf, sizeOf, hsame k (hvalues' ▸ List.mem_append_left _ hk)]
            have hle := hshortest kept shorter hvalues' (by rwa [hsizes, hto.budget])
            rw [List.length_append, List.length_concat]
            exact Nat.add_le_add_right hle 1
    · exact ⟨[], (List.append_nil _).symm, rfl, fun _ _ => rfl, fun _ _ _ _ => Nat.zero_le _⟩

/-- An operation moves the key it touches to the front of the list, and keeps the order. -/
theorem inOrder_step (hinv : s.Inv lib) (h : InOrder touches s.cacheMap s.cacheList)
    (op : CacheOp) : InOrder (touches ++ touched lib s op) (step lib s op).2.cacheMap
      (step lib s op).2.cacheList := by
  cases op with
  | get key now =>
    rw [touched, step]
    cases he : s.cacheMap.lookup key with
    | none =>
      rw [get_of_none he]
      exact (List.append_nil touches).symm ▸ h
    | some e =>
      by_cases hnow : now - e.timestamp > ttlForType e.dataType
      · have hinv' := hinv.linked.erase he
        rw [get_of_expired he hnow]
        exact (List.append_nil touches).symm ▸
          h.of_sublist hinv.linked hinv' (NodeList.sublist_values_erase _)
      · rw [get_of_live he hnow]
        exact h.spliceFront hinv.linked he
  | put key result dataType now =>
    rw [touched, step]
    cases hsize : estimateEntrySize lib key result with
    | error x =>
      rw [put_of_error hsize]
      exact (List.append_nil touches).symm ▸ h
    | ok size =>
      cases he : s.cacheMap.lookup key with
      | some e =>
        rw [put_of_some hsize he]
        exact (h.spliceFront hinv.linked he).insert_same he _
      | none =>
        rw [put_of_none hsize he]
        obtain ⟨hinv', -⟩ := evictIfNeeded_spec size hinv
        obtain ⟨evicted, hsplit, -⟩ := evictLoop_suffix size s.cacheList.nodes.length hinv
        -- what is kept is the front of the list, in the same order
        have hkept : InOrder touches (s.evictIfNeeded size).cacheMap
            (s.evictIfNeeded size).cacheList :=
          h.of_sublist hinv.linked hinv'.linked (hsplit ▸ List.sublist_append_left _ _)
        exact hkept.pushFront (lookup_evictIfNeeded hinv size he) _

/-- The list holds the keys in the order of their last touch. -/
theorem inOrder_run (hinv : s.Inv lib) (h : InOrder touches s.cacheMap s.cacheList)
    (ops : List CacheOp) : InOrder (touches ++ (step lib).emitted (touched lib) s ops)
      ((step lib).run s ops).cacheMap ((step lib).run s ops).cacheList := by
  induction ops generalizing s touches with
  | nil => rwa [Machine.emitted_nil, List.append_nil]
  | cons op ops ih =>
    rw [Machine.emitted_cons, ← List.append_assoc]
    exact ih (inv_step hinv op) (inOrder_step hinv h op)

/-! ## What an insertion evicts -/

/-- The insertion of a new key evicts the shortest suffix of the list that makes room for it, or
    everything, and puts the key first. -/
theorem put_evicts_suffix (h : s.Inv lib) {key : String} {result : Json}
    {dataType : CacheDataType} {now : TimePoint} {entrySize : ℕ}
    (hsize : estimateEntrySize lib key result = .ok entrySize)
    (hnone : s.cacheMap.lookup key = none) :
    let s' := (s.put lib key result dataType now).2
    ∃ kept evicted, s.cacheList.values = kept ++ evicted ∧ s'.cacheList.values = key :: kept ∧
      ((kept.map s.sizeOf).sum + entrySize ≤ s.maxMemoryBytes ∨ kept = []) ∧
      (∀ kept' evicted', s.cacheList.values = kept' ++ evicted' →
        (kept'.map s.sizeOf).sum + entrySize ≤ s.maxMemoryBytes →
          evicted.length ≤ evicted'.length) ∧
      (∀ k ∈ kept, s'.stored k = s.stored k) ∧ (∀ k ∈ evicted, s'.stored k = none) ∧
      s'.stored key = some ⟨result, now, entrySize, dataType⟩ ∧
      s'.stats = { s.stats with evictions := s.stats.evictions + evicted.length } ∧
      (s'.memoryUsageBytes ≤ s.maxMemoryBytes ∨ s'.cacheList.values = [key]) := by
  intro s'
  have hs' : s' = _ := congrArg Prod.snd (put_of_none hsize hnone)
  obtain ⟨hinv', n, hto, -⟩ := evictIfNeeded_spec entrySize h
  obtain ⟨evicted, hsplit, hcount, hsame, hshortest⟩ :=
    evictLoop_suffix entrySize s.cacheList.nodes.length h
  have hdone := evictIfNeeded_done entrySize h
  rw [← evictIfNeeded] at hsplit hcount hsame
  set room := s.evictIfNeeded entrySize with hroom
  have hkept : ∀ k ∈ room.cacheList.values, k ≠ key := fun k hk heq => by
    obtain ⟨e, he⟩ := hinv'.linked.mem_values.1 hk
    rw [heq, lookup_evictIfNeeded h entrySize hnone] at he
    cases he
  -- the bytes used after the eviction are those of the keys kept
  have hsizes : (room.cacheList.values.map s.sizeOf).sum = room.memoryUsageBytes := by
    rw [hinv'.usage, hinv'.linked.total_eq_sum]
    refine congrArg _ (List.map_congr_left fun k hk => ?_)
    rw [sizeOf, hsame k hk]
  have hempty : room.cacheMap = ∅ → room.cacheList.values = [] := fun hmap => by
    refine List.eq_nil_iff_forall_not_mem.2 fun k hk => ?_
    obtain ⟨e, he⟩ := hinv'.linked.mem_values.1 hk
    rw [hmap] at he
    cases he
  refine ⟨room.cacheList.values, evicted, hsplit, by rw [hs']; rfl, ?_, hshortest,
    fun k hk => ?_, fun k hk => ?_, ?_, ?_, ?_⟩
  · rw [hsizes]
    exact hdone.imp_right hempty
  · rw [hs', stored, AList.lookup_insert_ne (hkept k hk), hsame k hk, stored]
  · have hne : k ≠ key := fun heq => by
      obtain ⟨e, he⟩ := h.linked.mem_values.1 (hsplit ▸ List.mem_append_right _ hk)
      rw [heq, hnone] at he
      cases he
    -- no key is listed twice, so an evicted one is not among those kept
    have hgone : room.cacheMap.lookup k = none := by
      refine Option.eq_none_iff_forall_ne_some.2 fun e he => ?_
      have hnodup := h.linked.nodup_values
      rw [hsplit] at hnodup
      exact (List.nodup_append.1 hnodup).2.2 k (hinv'.linked.mem_values.2 ⟨e, he⟩) k hk rfl
    rw [hs', stored, AList.lookup_insert_ne hne, hgone]
    rfl
  · rw [hs', stored, AList.lookup_insert]
    rfl
  · have hn : n = evicted.length := by
      rw [hto.stats] at hcount
      exact Nat.add_left_cancel hcount
    rw [hs', ← hn]
    exact hto.stats
  · rw [hs']
    rcases hdone with hle | hmap
    · exact .inl hle
    · exact .inr (congrArg _ (hempty hmap))

/-- In every state a run reaches, the list is in the order of the last touches, and an insertion
    evicts the shortest suffix of it that makes room for the new entry, or else everything. -/
theorem eviction_minimal (lib : JsonLibrary) (maxMemoryBytes : ℕ) (ops : List CacheOp) :
    let s := (step lib).run (new maxMemoryBytes) ops
    s.cacheList.values =
      (recency ((step lib).emitted (touched lib) (new maxMemoryBytes) ops)).filter
        (fun key => (s.cacheMap.lookup key).isSome) ∧
    ∀ key result dataType now entrySize, s.cacheMap.lookup key = none →
      estimateEntrySize lib key result = .ok entrySize →
      let s' := (s.put lib key result dataType now).2
      ∃ kept evicted, s.cacheList.values = kept ++ evicted ∧ s'.cacheList.values = key :: kept ∧
        ((kept.map s.sizeOf).sum + entrySize ≤ maxMemoryBytes ∨ kept = []) ∧
        (∀ kept' evicted', s.cacheList.values = kept' ++ evicted' →
          (kept'.map s.sizeOf).sum + entrySize ≤ maxMemoryBytes →
            evicted.length ≤ evicted'.length) ∧
        (∀ k ∈ kept, s'.stored k = s.stored k) ∧ (∀ k ∈ evicted, s'.stored k = none) ∧
        s'.stored key = some ⟨result, now, entrySize, dataType⟩ ∧
        s'.stats = { s.stats with evictions := s.stats.evictions + evicted.length } ∧
        (s'.memoryUsageBytes ≤ maxMemoryBytes ∨ s'.cacheList.values = [key]) := by
  intro s
  have hinv : s.Inv lib := inv_run (inv_new maxMemoryBytes) ops
  refine ⟨inOrder_run (inv_new maxMemoryBytes) (InOrder.empty []) ops, ?_⟩
  intro key result dataType now entrySize hnone hsize
  have hbudget : s.maxMemoryBytes = maxMemoryBytes :=
    maxMemoryBytes_run (inv_new maxMemoryBytes) ops
  have hput := @put_evicts_suffix lib s hinv key result dataType now entrySize hsize hnone
  rw [hbudget] at hput
  exact hput

/-- Two entries that fill a budget of ten bytes, the older one of which is used again. -/
def fullShard : List CacheOp :=
  [.put "a" (.string "x") .negative 0, .put "b" (.string "x") .negative 0, .get "a" 0]

theorem eviction_minimal_fullShard :
    let s := (step .sample).run (new 10) fullShard
    let s' := (s.put .sample "c" (.string "x") .negative 0).2
    ∃ kept evicted, s.cacheList.values = kept ++ evicted ∧ s'.cacheList.values = "c" :: kept := by
  obtain ⟨kept, evicted, hvalues, hvalues', -⟩ := (eviction_minimal .sample 10 fullShard).2 "c"
    (.string "x") .negative 0 5 (by decide +kernel) (by rfl)
  exact ⟨kept, evicted, hvalues, hvalues'⟩

end IpServer.CacheShard
