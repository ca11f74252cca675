import IpServer.Library.ErasePass
import IpServer.RateLimiter.Protection
import IpServer.RateLimiter.Remaining

/-!
# The representation of the rate limiter

What the linked map and list of the limiter, and the times in the records, look like in every
state that a run reaches while the clock does not go back (`Represents`): the list holds the
tracked clients, once each and in the order of their last calls, every record has the iterator
of its node, there are not more records than allowed, and the times of a record are in order and
not more than the limit.

* `sorted_run`: the times of a client are in order, and none is later than the last reading.
* `length_ipRecords_run`: a record is only added where there is room for it.
* `evictsOne`: so `evict_lru` takes one client off both map and list.
* `cleansUp`: so the loop of `cleanup`, which erases records while it iterates over them, visits
  each of them once, and removes those of which no time is left.
-/

namespace IpServer

open SlidingWindow

namespace RateLimiter

open LimiterOp

/-- What the limiter looks like after `is_allowed` has been called for the clients `calls`. -/
structure Represents (l : RateLimiter) (calls : List String) : Prop where
  nodup : l.lruList.values.Nodup
  keys : ∀ ip, ip ∈ l.lruList.values ↔ ip ∈ l.ipRecords
  /-- the node that the iterator of a record designates is the one of its key -/
  node : ∀ ip record, l.ipRecords.lookup ip = some record →
    l.lruList.nodes.filter (·.1 = record.lruIt) = [(record.lruIt, ip)]
  order : l.lruList.values = (recency calls).filter fun ip => (l.ipRecords.lookup ip).isSome
  bounded : l.ipRecords.entries.length ≤ max 1 l.maxIpRecords
  sorted : ∀ ip record, l.ipRecords.lookup ip = some record → record.timestamps.Pairwise (· ≤ ·)
  limited : ∀ ip record, l.ipRecords.lookup ip = some record →
    (record.timestamps.length : ℤ) ≤ l.maxRequests

variable (l : RateLimiter)

/-- `evict_lru` removes one record, and its node, which is the one at the back of the list. -/
def EvictsOne : Prop :=
  ∃ ip record, l.ipRecords.lookup ip = some record ∧
    l.evictLru.ipRecords = l.ipRecords.erase ip ∧
    l.lruList.nodes = l.evictLru.lruList.nodes ++ [(record.lruIt, ip)]

/-- The records as `cleanup` prunes them, with the clock at `now`. -/
def prunedRecords (now : String → TimePoint) : Dict String IPRecord :=
  Dict.mapVal (fun ip record => l.cleanupOldTimestamps record (now ip)) l.ipRecords

/-- The loop of `cleanup` after some turns, over the records it has pruned. -/
def cleanupLoop (now : String → TimePoint) (turns : ℕ) : ErasePass String IPRecord :=
  (ErasePass.turn IPRecord.lruIt fun record => record.timestamps.isEmpty)^[turns]
    (.start (l.prunedRecords now) l.lruList)

/-- The loop of `cleanup` is done after a turn for each record, and not before. It visits each
    record once, and leaves those of which some time was within the window when they were
    pruned. -/
structure CleansUp (now : String → TimePoint) : Prop where
  running : ∀ turns < l.ipRecords.entries.length, (l.cleanupLoop now turns).current? ≠ none
  done : (l.cleanupLoop now l.ipRecords.entries.length).current? = none
  visited : (l.cleanupLoop now l.ipRecords.entries.length).visited.Nodup ∧
    ∀ ip, ip ∈ (l.cleanupLoop now l.ipRecords.entries.length).visited ↔ ip ∈ l.ipRecords
  ipRecords : (l.cleanupLoop now l.ipRecords.entries.length).map = (l.cleanup now).ipRecords
  lruList : (l.cleanupLoop now l.ipRecords.entries.length).list = (l.cleanup now).lruList
  removed : ∀ ip record, l.ipRecords.lookup ip = some record →
    ((l.cleanup now).ipRecords.lookup ip = none ↔
      ¬∃ t ∈ record.timestamps, now ip - t ≤ seconds l.window)
  added : ∀ ip, l.ipRecords.lookup ip = none → (l.cleanup now).ipRecords.lookup ip = none

variable {l} {lo hi : TimePoint} {ip : String}

/-! ### The times are in order -/

/-- The times kept for each client are in order, and none is later than `now`. -/
def Sorted (l : RateLimiter) (now : TimePoint) : Prop :=
  ∀ ip, (l.timestampsOf ip).Pairwise (· ≤ ·) ∧ ∀ t ∈ l.timestampsOf ip, t ≤ now

/-- What is recorded is a reading of the operation. -/
theorem within_of_admission? {op : LimiterOp} {a : Admission TimePoint}
    (h : l.admission? ip op = some a) (hop : op.Within lo hi) :
    lo ≤ a.recorded ∧ a.recorded ≤ hi := by
  rcases op with ⟨ip', now, pruned⟩ | ⟨ip', now⟩ | now
  · rw [admission?] at h
    split at h
    · obtain rfl := Option.some.inj h
      exact ⟨hop.1, hop.2.1.trans hop.2.2⟩
    · cases h
  · cases h
  · cases h

theorem sorted_step (hinv : l.Inv) (h : l.Sorted lo) {op : LimiterOp} (hop : op.Within lo hi) :
    (step l op).2.Sorted hi := by
  intro ip
  obtain ⟨hsorted, hpast⟩ := h ip
  have hsub := sublist_timestampsOf_step hinv op ip
  rcases hadmission : l.admission? ip op with _ | a
  · rw [hadmission, Option.toList_none, List.map_nil, List.append_nil] at hsub
    exact ⟨hsorted.sublist hsub, fun t ht => (hpast t (hsub.subset ht)).trans hop.le⟩
  · -- a time is added that is later than the others
    obtain ⟨hlo, hhi⟩ := within_of_admission? hadmission hop
    rw [hadmission, Option.toList_some, List.map_singleton] at hsub
    refine ⟨List.Pairwise.sublist hsub ?_, fun t ht => ?_⟩
    · refine List.pairwise_append.2 ⟨hsorted, List.pairwise_singleton _ _, fun t ht t' ht' => ?_⟩
      obtain rfl := List.mem_singleton.1 ht'
      exact (hpast t ht).trans hlo
    · rcases List.mem_append.1 (hsub.subset ht) with ht | ht
      · exact (hpast t ht).trans hop.le
      · obtain rfl := List.mem_singleton.1 ht
        exact hhi

/-- While the clock does not go back, the times stay in order. -/
theorem sorted_run (hinv : l.Inv) (h : l.Sorted lo) {ops : List LimiterOp}
    (hclock : Clocked lo ops) : ∃ hi, (step.run l ops).Sorted hi := by
  induction ops generalizing l lo with
  | nil => exact ⟨lo, h⟩
  | cons op ops ih =>
    obtain ⟨hi, hop, hrest⟩ := hclock
    exact ih (inv_step hinv op) (sorted_step hinv h hop) hrest

/-! ### The number of records -/

/-- Where there was no room, there is now, unless there are no records at all. -/
theorem length_makeRoom (hinv : l.Inv) (h : l.ipRecords.entries.length ≤ max 1 l.maxIpRecords) :
    l.makeRoom.ipRecords.entries.length < max 1 l.maxIpRecords := by
  rw [makeRoom]
  split
  · next hfull =>
    rw [evictLru]
    split
    · next hback =>
      rw [hinv.eq_empty hback]
      exact lt_max_of_lt_left Nat.one_pos
    · next lruIp hback =>
      obtain ⟨record, hrecord, -⟩ := hinv.lookup_back hback
      have hlen : l.ipRecords.entries.length =
          (l.ipRecords.erase lruIp).entries.length + 1 := by
        rw [Dict.length_eq_total, Dict.total_of_lookup _ hrecord, ← Dict.length_eq_total,
          Nat.add_comm]
      dsimp only
      omega
  · next hroom => exact lt_max_of_lt_right (not_le.1 hroom)

theorem length_ipRecords_step (hinv : l.Inv)
    (h : l.ipRecords.entries.length ≤ max 1 l.maxIpRecords) (op : LimiterOp) :
    (step l op).2.ipRecords.entries.length ≤ max 1 l.maxIpRecords := by
  rcases op with ⟨ip, now, pruned⟩ | ⟨ip, now⟩ | now
  · rw [step]
    rcases le_or_gt l.maxRequests 0 with hmax | hmax
    · rwa [isAllowed_of_nonpos hmax]
    · rcases hip : l.ipRecords.lookup ip with _ | record
      · rw [isAllowed_of_none hmax hip]
        dsimp only
        rw [Dict.length_insert_of_none (lookup_makeRoom_of_none hip)]
        exact length_makeRoom hinv h
      · rw [isAllowed_of_some hmax hip]
        dsimp only
        rwa [Dict.length_insert_of_some hip]
  · rw [step]
    rcases hip : l.ipRecords.lookup ip with _ | record
    · rwa [getRemaining_of_none hip]
    · rw [getRemaining_of_some hip]
      dsimp only
      rwa [Dict.length_insert_of_some hip]
  · -- the pass only takes nodes off the list, and so records off the map
    have hsub : (step l (.cleanup now)).2.lruList.values.Sublist l.lruList.values :=
      Dict.sublist_values_sweep _ _ _ _
    rw [← (inv_step hinv (.cleanup now)).length_values]
    rw [← hinv.length_values] at h
    exact hsub.length_le.trans h

theorem length_ipRecords_run (hinv : l.Inv)
    (h : l.ipRecords.entries.length ≤ max 1 l.maxIpRecords) (ops : List LimiterOp) :
    (step.run l ops).ipRecords.entries.length ≤ max 1 (step.run l ops).maxIpRecords := by
  have hstep : ∀ (l : RateLimiter) op,
      (l.Inv ∧ l.ipRecords.entries.length ≤ max 1 l.maxIpRecords) →
      (step l op).2.Inv ∧
        (step l op).2.ipRecords.entries.length ≤ max 1 (step l op).2.maxIpRecords := by
    intro l op hl
    rw [(l.step_params op).2.2]
    exact ⟨inv_step hl.1 op, length_ipRecords_step hl.1 hl.2 op⟩
  exact (Machine.run_invariant hstep ops ⟨hinv, h⟩).2

/-! ### A limiter that allows nothing -/

/-- Without a limit above `0`, no client is ever tracked. -/
theorem untracked_run {maxRequests : ℤ} (hmax : maxRequests ≤ 0) (window : ℤ)
    (maxIpRecords : ℕ) (ops : List LimiterOp) :
    step.run (new maxRequests window maxIpRecords) ops = new maxRequests window maxIpRecords := by
  have hstep (op : LimiterOp) : (step (new maxRequests window maxIpRecords) op).2 =
      new maxRequests window maxIpRecords := by
    rcases op with ⟨ip, now, pruned⟩ | ⟨ip, now⟩ | now
    · rw [step, isAllowed_of_nonpos hmax]
    · rfl
    · rfl
  induction ops with
  | nil => rfl
  | cons op ops ih => rw [Machine.run_cons, hstep, ih]

/-! ### What the code relies on -/

theorem represents_run {ops : List LimiterOp} (hclock : Clocked lo ops)
    (maxRequests window : ℤ) (maxIpRecords : ℕ) :
    (step.run (new maxRequests window maxIpRecords) ops).Represents (ops.filterMap caller?) := by
  have hnew := inv_new maxRequests window maxIpRecords
  have hinv := inv_run hnew ops
  obtain ⟨hparam, -⟩ := run_params (new maxRequests window maxIpRecords) ops
  have hparam : (step.run (new maxRequests window maxIpRecords) ops).maxRequests = maxRequests :=
    hparam
  have hpast : (new maxRequests window maxIpRecords).Sorted lo :=
    fun _ => ⟨List.Pairwise.nil, List.forall_mem_nil _⟩
  obtain ⟨hi, hsorted⟩ := sorted_run hnew hpast hclock
  have hlength := length_timestampsOf_run hnew (fun _ => Nat.zero_le _) ops
  refine ⟨hinv.nodup_values, fun ip => ?_, fun ip record hip => ?_, ?_,
    length_ipRecords_run hnew (Nat.zero_le _) ops, fun ip record hip => ?_, fun ip record hip => ?_⟩
  · rw [hinv.mem_values, ← Option.isSome_iff_exists, AList.lookup_isSome]
  · exact hinv.wf.filter_eq (hinv.node ip record hip)
  · rcases le_or_gt maxRequests 0 with hmax | hmax
    · rw [untracked_run hmax]
      exact InOrder.empty _
    · exact inOrder_run hmax hnew (InOrder.empty []) ops
  · rw [← timestampsOf_of_some hip]
    exact (hsorted ip).1
  · rw [← timestampsOf_of_some hip]
    rcases le_or_gt maxRequests 0 with hmax | hmax
    · rw [untracked_run hmax] at hip
      cases hip
    · have hle := hlength ip
      omega

theorem evictsOne (hinv : l.Inv) (h : l.ipRecords ≠ ∅) : l.EvictsOne := by
  rcases hback : l.lruList.back? with _ | ip
  · exact absurd (hinv.eq_empty hback) h
  · obtain ⟨record, hrecord, ns, hnodes⟩ := hinv.lookup_back hback
    refine ⟨ip, record, hrecord, ?_, ?_⟩
    · rw [evictLru, hback]
    · rw [evictLru, hback, hnodes]
      simp only [NodeList.popBack, hnodes, List.dropLast_concat]

/-- A record goes if pruning leaves no time in it. -/
theorem lookup_cleanup_eq_none (hinv : l.Inv) (now : String → TimePoint) {record : IPRecord}
    (hip : l.ipRecords.lookup ip = some record) :
    (l.cleanup now).ipRecords.lookup ip = none ↔
      ¬∃ t ∈ record.timestamps, now ip - t ≤ seconds l.window := by
  have hnil : (prune (seconds l.window) (now ip) record.timestamps).isEmpty = true ↔
      ¬∃ t ∈ record.timestamps, now ip - t ≤ seconds l.window := by
    rw [List.isEmpty_iff, prune, List.dropWhile_eq_nil_iff]
    simp only [decide_eq_true_eq, not_exists, not_and, not_le]
  rw [lookup_cleanup hinv, hip, Option.map_some, ← hnil]
  simp [Option.filter, cleanupOldTimestamps]

theorem cleansUp (hinv : l.Inv) (now : String → TimePoint) : l.CleansUp now := by
  have hkeys : (l.prunedRecords now).keys = l.ipRecords.keys := Dict.keys_mapVal _ _
  have hlen : (l.prunedRecords now).entries.length = l.ipRecords.entries.length :=
    List.length_map _
  obtain ⟨hrunning, hdone, hvisited, hswept⟩ := ErasePass.exhausted IPRecord.lruIt
    (fun record => record.timestamps.isEmpty) (l.prunedRecords now) l.lruList
  rw [hlen] at hrunning hdone hvisited hswept
  rw [hkeys] at hvisited
  obtain ⟨hmap, hlist⟩ := Prod.ext_iff.1 hswept
  refine ⟨hrunning, hdone, ?_, hmap, hlist,
    fun ip record hip => lookup_cleanup_eq_none hinv now hip, fun ip hip => ?_⟩
  · rw [cleanupLoop, hvisited]
    exact ⟨l.ipRecords.keys_nodup, fun ip => AList.mem_keys.symm⟩
  · rw [lookup_cleanup hinv, hip]
    rfl

/-- In every state that a run reaches while the clock does not go back: the list holds the tracked
    clients, once each and in the order of their last calls; every record has the iterator of its
    node; the records are no more than allowed, and their times in order and no more than the
    limit. Hence `evict_lru` removes one record, the same one from map and list, and the loop of
    `cleanup` visits every record once and removes those without a time in the window. -/
theorem tracked_invariant {ops : List LimiterOp} (hclock : Clocked lo ops)
    (maxRequests window : ℤ) (maxIpRecords : ℕ) :
    let l := step.run (new maxRequests window maxIpRecords) ops
    l.Represents (ops.filterMap caller?) ∧ (l.ipRecords ≠ ∅ → l.EvictsOne) ∧
      ∀ now, l.CleansUp now := by
  intro l
  have hinv : l.Inv := inv_run (inv_new maxRequests window maxIpRecords) ops
  exact ⟨represents_run hclock maxRequests window maxIpRecords, evictsOne hinv, cleansUp hinv⟩

/-- Two clients are tracked, and evicted one by one. -/
theorem tracked_invariant_twoClients :
    let l := step.run (new 5 60 2) twoClients
    l.Represents ["a", "b"] ∧ l.EvictsOne ∧ ∀ now, l.CleansUp now := by
  intro l
  have hclock : Clocked 0 twoClients :=
    ⟨0, by simp [Within], 1, by simp [Within], trivial⟩
  obtain ⟨hrepresents, hevicts, hcleans⟩ := tracked_invariant hclock 5 60 2
  have hlen : l.ipRecords.entries.length ≠ 0 := by decide +kernel
  exact ⟨hrepresents, hevicts fun hnil => hlen (congrArg (·.entries.length) hnil), hcleans⟩

end RateLimiter

end IpServer
