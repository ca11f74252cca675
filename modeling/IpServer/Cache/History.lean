import IpServer.Cache.TimedMap

/-!
# What a shard remembers

A shard holds under a key what the last `put` of it stored, with the time and the
type of that `put`, or nothing. A `put` of the key replaces it; any other
operation leaves it alone, or takes it away: a `get` of the key that finds it
expired, or a `put` of another key that evicts it.

* `Stores`, `FindsExpired`, `EvictsKey`: the operations that change what is held
  under a key, and `stored_step_of_keeps`: no others do.
* `exists_last_put`: what is held comes from the last `put` of the key.
* `refines_timed_map`: which values a `get` returns, and when.
-/

namespace IpServer.CacheShard

variable (lib : JsonLibrary) (s : CacheShard) (key : String)

/-- The operation is a `put` of `key` whose value can be serialised. -/
def Stores : CacheOp → Prop
  | .get _ _ => False
  | .put key' result _ _ => key' = key ∧ (estimateEntrySize lib key' result).toOption.isSome

/-- The operation is a `get` that finds the entry of `key` expired. -/
def FindsExpired : CacheOp → Prop
  | .get key' now =>
    key' = key ∧ ∃ e ∈ s.cacheMap.lookup key, now - e.timestamp > ttlForType e.dataType
  | .put _ _ _ _ => False

/-- The operation is a `put` of a key without an entry, for which the entry of `key` is evicted. -/
def EvictsKey : CacheOp → Prop
  | .get _ _ => False
  | .put key' result _ _ => s.cacheMap.lookup key' = none ∧
    ∃ size ∈ (estimateEntrySize lib key' result).toOption,
      (s.cacheMap.lookup key).isSome ∧ (s.evictIfNeeded size).cacheMap.lookup key = none

instance : ∀ op, Decidable (Stores lib key op)
  | .get _ _ => inferInstanceAs (Decidable False)
  | .put _ _ _ _ => inferInstanceAs (Decidable (_ ∧ _))

variable {lib s key}

/-- A `put` that stores its value stores it with its time and its type. -/
theorem stored_step_of_stores {result : Json} {dataType : CacheDataType} {now : TimePoint}
    (h : Stores lib key (.put key result dataType now)) : ∃ size,
      (step lib s (.put key result dataType now)).2.stored key =
        some ⟨result, now, size, dataType⟩ := by
  obtain ⟨size, hsize⟩ := Option.isSome_iff_exists.1 h.2
  rw [toOption_eq_some] at hsize
  refine ⟨size, ?_⟩
  have heffect := congrArg Prod.snd (@step_self lib s (.put key result dataType now))
  simpa only [CacheOp.key, TimedMap.effect, hsize] using heffect

/-- An operation that does not store under a key leaves what is held there, or takes it away. -/
theorem stored_step_of_not_stores (h : s.Inv lib) {op : CacheOp} (hop : ¬Stores lib key op) :
    (step lib s op).2.stored key = s.stored key ∨ (step lib s op).2.stored key = none := by
  by_cases hkey : key = op.key
  · subst hkey
    have heffect : (step lib s op).2.stored op.key = (TimedMap.effect lib (s.stored op.key) op).2 :=
      congrArg Prod.snd (@step_self lib s op)
    rw [heffect]
    cases op with
    | get key now =>
      cases hheld : s.stored key with
      | none => exact .inr (by rw [CacheOp.key, hheld]; rfl)
      | some e =>
        simp only [CacheOp.key, hheld, TimedMap.effect]
        split
        · exact .inr rfl
        · exact .inl rfl
    | put key result dataType now =>
      cases hsize : estimateEntrySize lib key result with
      | error x => exact .inl (by simp only [CacheOp.key, TimedMap.effect, hsize])
      | ok size => exact absurd ⟨rfl, by simp only [hsize]; rfl⟩ hop
  · exact stored_step_of_ne h hkey

/-- An operation that neither stores, expires nor evicts leaves what is held under a key. -/
theorem stored_step_of_keeps (h : s.Inv lib) {op : CacheOp} (hstores : ¬Stores lib key op)
    (hevicts : ¬EvictsKey lib s key op) (hexpired : ¬FindsExpired s key op) :
    (step lib s op).2.stored key = s.stored key := by
  cases op with
  | get key' now =>
    cases he : s.cacheMap.lookup key' with
    | none => simp only [step, get_of_none he, stored]
    | some e =>
      by_cases hnow : now - e.timestamp > ttlForType e.dataType
      · have hne : key ≠ key' := fun heq => hexpired ⟨heq.symm, e, heq ▸ he, hnow⟩
        simp only [step, get_of_expired he hnow, stored, AList.lookup_erase_ne hne]
      · simp only [step, get_of_live he hnow, stored]
  | put key' result dataType now =>
    cases hsize : estimateEntrySize lib key' result with
    | error x => simp only [step, put_of_error hsize]
    | ok size =>
      have hne : key ≠ key' := fun heq => hstores ⟨heq.symm, by rw [hsize]; rfl⟩
      cases he : s.cacheMap.lookup key' with
      | some e => simp only [step, put_of_some hsize he, stored, AList.lookup_insert_ne hne]
      | none =>
        obtain ⟨-, n, hev, -⟩ := evictIfNeeded_spec size h
        simp only [step, put_of_none hsize he, stored, AList.lookup_insert_ne hne]
        -- the key is still held once there is room, for it was not evicted
        cases hk : (s.evictIfNeeded size).cacheMap.lookup key with
        | some e => rw [hev.lookup key e hk]
        | none =>
          cases hheld : s.cacheMap.lookup key with
          | none => rfl
          | some e =>
            refine absurd ⟨he, size, ?_, by rw [hheld]; rfl, hk⟩ hevicts
            rw [hsize]
            rfl

/-- What is held under a key comes from the last `put` that stored under it. -/
theorem exists_last_put (maxMemoryBytes : ℕ) {ops : List CacheOp} {e : Stored}
    (h : ((step lib).run (new maxMemoryBytes) ops).stored key = some e) :
    ∃ pre post, ops = pre ++ .put key e.result e.dataType e.timestamp :: post ∧
      Stores lib key (.put key e.result e.dataType e.timestamp) ∧
      ∀ op ∈ post, ¬Stores lib key op := by
  induction ops using List.reverseRecOn with
  | nil => cases h
  | append_singleton ops op ih =>
    rw [Machine.run_concat] at h
    have hinv : Inv lib _ := inv_run (inv_new maxMemoryBytes) ops
    -- the last operation is the one sought, or it leaves what is held
    by_cases hop : Stores lib key op
    · match op, hop with
      | .put key' result dataType now, hop =>
        obtain rfl : key' = key := hop.1
        obtain ⟨size, hstored⟩ := stored_step_of_stores
          (s := (step lib).run (new maxMemoryBytes) ops) hop
        obtain rfl : (⟨result, now, size, dataType⟩ : Stored) = e :=
          Option.some_inj.1 (hstored.symm.trans h)
        exact ⟨ops, [], rfl, hop, fun _ hmem => absurd hmem List.not_mem_nil⟩
    · rcases stored_step_of_not_stores hinv hop with heq | hnone
      · rw [heq] at h
        obtain ⟨pre, post, rfl, hstores, hpost⟩ := ih h
        refine ⟨pre, post ++ [op], by simp, hstores, fun op' hop' => ?_⟩
        rcases List.mem_append.1 hop' with hop' | hop'
        · exact hpost op' hop'
        · rwa [List.mem_singleton.1 hop']
      · rw [hnone] at h
        cases h

/-- What is held under a key is held until an operation stores, expires or evicts. -/
theorem stored_run_of_keeps (h : s.Inv lib) {ops : List CacheOp}
    (hstores : ∀ op ∈ ops, ¬Stores lib key op)
    (hkept : (step lib).Along (fun s op => ¬EvictsKey lib s key op ∧ ¬FindsExpired s key op) s
      ops) :
    ((step lib).run s ops).stored key = s.stored key := by
  induction ops generalizing s with
  | nil => rfl
  | cons op ops ih =>
    rw [Machine.run_cons, ih (inv_step h op) (fun op' hop' => hstores op' (.tail _ hop')) hkept.2]
    exact stored_step_of_keeps h (hstores op List.mem_cons_self) hkept.1.1 hkept.1.2

/-- A key without an entry stays without one until an operation stores. -/
theorem stored_run_of_none (h : s.Inv lib) {ops : List CacheOp}
    (hstores : ∀ op ∈ ops, ¬Stores lib key op) (hnone : s.stored key = none) :
    ((step lib).run s ops).stored key = none := by
  induction ops generalizing s with
  | nil => exact hnone
  | cons op ops ih =>
    refine ih (inv_step h op) (fun op' hop' => hstores op' (.tail _ hop')) ?_
    rcases stored_step_of_not_stores h (hstores op List.mem_cons_self) with heq | hgone
    · exact heq.trans hnone
    · exact hgone

/-- A `get` returns the value that is held, if it has not outlived its type. -/
theorem get_eq_some_iff {now : TimePoint} {value : Json} : (s.get key now).1 = some value ↔
    ∃ e, s.stored key = some e ∧ e.result = value ∧ now - e.timestamp ≤ ttlForType e.dataType := by
  rcases he : s.cacheMap.lookup key with _ | e
  · rw [get_of_none he, stored_eq_none he]
    exact ⟨fun h => (nomatch h), fun ⟨_, h, _⟩ => (nomatch h)⟩
  rw [stored_eq_some he]
  by_cases hnow : now - e.timestamp > ttlForType e.dataType
  · rw [get_of_expired he hnow]
    refine ⟨fun h => (nomatch h), ?_⟩
    rintro ⟨_, ⟨⟩, -, hlives⟩
    exact absurd hlives (not_le.2 hnow)
  · rw [get_of_live he hnow]
    refine ⟨?_, ?_⟩
    · rintro ⟨⟩
      exact ⟨_, rfl, rfl, not_lt.1 hnow⟩
    · rintro ⟨_, ⟨⟩, rfl, -⟩
      rfl

/-- What `get` returns depends on what is held under its key. -/
theorem get_fst_congr {s' : CacheShard} (h : s'.stored key = s.stored key) (now : TimePoint) :
    (s'.get key now).1 = (s.get key now).1 := by
  ext value
  rw [get_eq_some_iff, get_eq_some_iff, h]

theorem get_fst_of_none (h : s.stored key = none) (now : TimePoint) : (s.get key now).1 = none := by
  refine Option.eq_none_iff_forall_ne_some.2 fun value hvalue => ?_
  obtain ⟨e, he, -⟩ := get_eq_some_iff.1 hvalue
  rw [h] at he
  cases he

/-- A shard is a map that remembers when its values were stored. In any run: a value that `get`
    returns is the one that the last `put` of the key stored, not longer ago than its type
    lives; the value of the last `put` is returned as long as it lives, unless it was evicted
    or found expired since; a hit leaves what later calls of `get` answer; and a key that was
    found expired is found again only after another `put`. -/
theorem refines_timed_map (lib : JsonLibrary) (maxMemoryBytes : ℕ) (ops : List CacheOp)
    (key : String) (now : TimePoint) :
    let s := (step lib).run (new maxMemoryBytes) ops
    (∀ value, (s.get key now).1 = some value →
      ∃ pre dataType time post, ops = pre ++ .put key value dataType time :: post ∧
        Stores lib key (.put key value dataType time) ∧ (∀ op ∈ post, ¬Stores lib key op) ∧
        now - time ≤ ttlForType dataType) ∧
    (∀ pre value dataType time post, ops = pre ++ .put key value dataType time :: post →
      Stores lib key (.put key value dataType time) → (∀ op ∈ post, ¬Stores lib key op) →
      (step lib).Along (fun s op => ¬EvictsKey lib s key op ∧ ¬FindsExpired s key op)
        ((step lib).run (new maxMemoryBytes) (pre ++ [.put key value dataType time])) post →
      now - time ≤ ttlForType dataType → (s.get key now).1 = some value) ∧
    ((s.get key now).1.isSome →
      ∀ later, ((s.get key now).2.get key later).1 = (s.get key later).1) ∧
    (FindsExpired s key (.get key now) → ∀ later post, (∀ op ∈ post, ¬Stores lib key op) →
      (s.get key now).1 = none ∧
        (((step lib).run (s.get key now).2 post).get key later).1 = none) := by
  intro s
  have hinv : s.Inv lib := inv_run (inv_new maxMemoryBytes) ops
  refine ⟨fun value hget => ?_, ?_, fun hget later => ?_, ?_⟩
  · obtain ⟨e, hstored, rfl, hlives⟩ := get_eq_some_iff.1 hget
    obtain ⟨pre, post, hops, hstores, hpost⟩ := exists_last_put maxMemoryBytes hstored
    exact ⟨pre, e.dataType, e.timestamp, post, hops, hstores, hpost, hlives⟩
  · intro pre value dataType time post hops hstores hpost hkept hlives
    have hinv' : ((step lib).run (new maxMemoryBytes) (pre ++ [.put key value dataType time])).Inv
        lib := inv_run (inv_new maxMemoryBytes) _
    have hrun := stored_run_of_keeps hinv' hpost hkept
    rw [← Machine.run_append, List.append_assoc, List.singleton_append, ← hops,
      Machine.run_concat] at hrun
    obtain ⟨size, hstored⟩ := stored_step_of_stores
      (s := (step lib).run (new maxMemoryBytes) pre) hstores
    exact get_eq_some_iff.2 ⟨_, hrun.trans hstored, rfl, hlives⟩
  · -- a hit removes nothing
    have hlives : ¬FindsExpired s key (.get key now) := fun ⟨_, e, he, hnow⟩ => by
      rw [get_of_expired he hnow] at hget
      cases hget
    refine get_fst_congr ?_ later
    exact @stored_step_of_keeps lib s key hinv (.get key now) id id hlives
  · rintro ⟨-, e, he, hnow⟩ later post hpost
    have hinv' : (s.get key now).2.Inv lib := inv_get hinv key now
    have hgone : (s.get key now).2.stored key = none := by
      rw [get_of_expired he hnow, stored, AList.lookup_erase]
      rfl
    refine ⟨by rw [get_of_expired he hnow], ?_⟩
    exact get_fst_of_none (stored_run_of_none hinv' hpost hgone) later

/-- A key is found not to exist, then it is found: the later `put` counts. -/
def foundLater : List CacheOp :=
  [.put "10.0.0.1" (.string "x") .negative 0, .put "10.0.0.1" (.string "y") .ipGeolocation (-5)]

theorem refines_timed_map_foundLater :
    (((step .sample).run (.new 1000) foundLater).get "10.0.0.1" (seconds 301)).1 =
      some (.string "y") :=
  (refines_timed_map .sample 1000 foundLater "10.0.0.1" (seconds 301)).2.1
    [.put "10.0.0.1" (.string "x") .negative 0] (.string "y") .ipGeolocation (-5) [] rfl
    (by decide +kernel) (fun _ h => absurd h List.not_mem_nil) trivial (by decide +kernel)

end IpServer.CacheShard

namespace IpServer.IPCache

variable {n : ℕ} [NeZero n] {hash : String → ℕ} {lib : JsonLibrary} {key : String}

/-- What the sharded cache holds under a key comes from the last `put` that stored under it. -/
theorem exists_last_put (maxMemoryBytes : ℕ) {ops : List CacheOp} {e : Stored}
    (h : stored hash ((step hash lib).run (new n maxMemoryBytes) ops) key = some e) :
    ∃ pre post, ops = pre ++ .put key e.result e.dataType e.timestamp :: post ∧
      CacheShard.Stores lib key (.put key e.result e.dataType e.timestamp) ∧
      ∀ op ∈ post, ¬CacheShard.Stores lib key op := by
  rw [stored, step, Machine.run_sharded] at h
  obtain ⟨pre, post, hops, hstores, hpost⟩ := CacheShard.exists_last_put _ h
  obtain ⟨pre', rest, rfl, -, hrest⟩ := List.filter_eq_append_iff.1 hops
  obtain ⟨pre'', post', rfl, -, -, hpost'⟩ := List.filter_eq_cons_iff.1 hrest
  refine ⟨pre' ++ pre'', post', by rw [List.append_assoc], hstores, fun op hop hstored => ?_⟩
  -- a `put` of the key goes to the shard of the key
  have hkey : op.key = key := by
    cases op with
    | get key' now => exact absurd hstored id
    | put key' result dataType now => exact hstored.1
  refine hpost op ?_ hstored
  rw [← hpost', List.mem_filter, hkey]
  exact ⟨hop, decide_eq_true rfl⟩

end IpServer.IPCache
