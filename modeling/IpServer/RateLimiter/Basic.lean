import IpServer.Basic
import IpServer.Library.LinkedMap
import IpServer.Library.Machine
import IpServer.Library.SlidingWindow
import Mathlib.Algebra.Order.Ring.Int
import Mathlib.Data.Finset.Card

/-!
# The rate limiter

`RateLimiter` keeps, for each client that was admitted lately, the times of its
admissions, and a list of the clients in the order of their last call. Every
call runs under the lock of the limiter and reads the steady clock there, so
that the limiter is a machine whose inputs carry the readings
(`RateLimiter.step`): `is_allowed` takes one reading that it records and another
one at which it prunes, and `cleanup` one reading for each record.

* `RateLimiter.Inv`: map and list are linked; every operation preserves it
  (`inv_step`), so it holds in every state a run reaches (`inv_run`).
* `RateLimiter.Evicts`: when an operation drops the record of a client to make
  room for another one.
* `isAllowed_fst`, `timestampsOf_isAllowed`, `timestampsOf_getRemaining` and
  `timestampsOf_cleanup`: what is answered, and what happens to the times kept for a
  client, said of these times alone. A client without a record has no times.
-/

namespace IpServer

open SlidingWindow

/-- The record of a client: the times of its admissions, oldest first, and the handle of
    its node in the list of clients. -/
structure IPRecord where
  timestamps : List TimePoint
  lruIt : ℕ
  deriving DecidableEq

/-- The rate limiter; the window is in seconds. -/
structure RateLimiter where
  maxRequests : ℤ
  window : ℤ
  maxIpRecords : ℕ
  ipRecords : Dict String IPRecord
  lruList : NodeList String

/-- A call of the limiter, with the clock readings it takes. -/
inductive LimiterOp
  | isAllowed (ip : String) (now pruned : TimePoint)
  | getRemaining (ip : String) (now : TimePoint)
  | cleanup (now : String → TimePoint)

/-- The client that an operation calls `is_allowed` for. -/
def LimiterOp.caller? : LimiterOp → Option String
  | .isAllowed ip _ _ => some ip
  | _ => none

/-- What a call answers. -/
inductive LimiterAnswer
  | allowed (b : Bool)
  | remaining (n : ℤ)
  | done
  deriving DecidableEq

namespace RateLimiter

/-- The clients that `is_allowed` is called for. -/
def calledIps (ops : List LimiterOp) : Finset String := (ops.filterMap LimiterOp.caller?).toFinset

/-- The limiter as it is constructed. -/
def new (maxRequests window : ℤ) (maxIpRecords : ℕ) : RateLimiter :=
  ⟨maxRequests, window, maxIpRecords, ∅, .empty⟩

variable (l : RateLimiter)

/-- `cleanup_old_timestamps`, with the clock at `now`. -/
def cleanupOldTimestamps (record : IPRecord) (now : TimePoint) : IPRecord :=
  { record with timestamps := prune (seconds l.window) now record.timestamps }

/-- `evict_lru`: the client at the back of the list is forgotten. -/
def evictLru : RateLimiter :=
  match l.lruList.back? with
  | none => l
  | some lruIp =>
    { l with ipRecords := l.ipRecords.erase lruIp, lruList := l.lruList.popBack }

/-- The map holds fewer than `maxIpRecords` clients, or else one is evicted. -/
def makeRoom : RateLimiter :=
  if l.maxIpRecords ≤ l.ipRecords.entries.length then l.evictLru else l

/-- `is_allowed`, with the clock at `now` on entry and at `pruned` when it prunes. -/
def isAllowed (ip : String) (now pruned : TimePoint) : Bool × RateLimiter :=
  if l.maxRequests ≤ 0 then (false, l)
  else
    match l.ipRecords.lookup ip with
    | none =>
      let l := l.makeRoom
      (true, { l with
        lruList := l.lruList.pushFront ip
        ipRecords := l.ipRecords.insert ip ⟨[now], l.lruList.next⟩ })
    | some record =>
      let l := { l with lruList := l.lruList.spliceFront record.lruIt }
      let record := l.cleanupOldTimestamps record pruned
      if record.timestamps.length < l.maxRequests.toNat then
        let record := { record with timestamps := record.timestamps ++ [now] }
        (true, { l with ipRecords := l.ipRecords.insert ip record })
      else (false, { l with ipRecords := l.ipRecords.insert ip record })

/-- `static_cast<int>` of a size. -/
def toInt (n : ℕ) : ℤ := Int.bmod n (2 ^ 32)

/-- `get_remaining`, with the clock at `now`. -/
def getRemaining (ip : String) (now : TimePoint) : ℤ × RateLimiter :=
  match l.ipRecords.lookup ip with
  | none => (l.maxRequests, l)
  | some record =>
    let record := l.cleanupOldTimestamps record now
    (max 0 (l.maxRequests - toInt record.timestamps.length),
      { l with ipRecords := l.ipRecords.insert ip record })

/-- `cleanup`: every record is pruned, with the clock at `now ip` for the record of `ip`,
    then the records without times are erased. -/
def cleanup (now : String → TimePoint) : RateLimiter :=
  let ipRecords := Dict.mapVal (fun ip record => l.cleanupOldTimestamps record (now ip)) l.ipRecords
  let swept := Dict.sweep IPRecord.lruIt (fun record => record.timestamps.isEmpty)
    (ipRecords, l.lruList) ipRecords.entries
  { l with ipRecords := swept.1, lruList := swept.2 }

/-- The limiter as a machine. -/
def step : Machine RateLimiter LimiterOp LimiterAnswer
  | l, .isAllowed ip now pruned => ((l.isAllowed ip now pruned).1 |> .allowed,
      (l.isAllowed ip now pruned).2)
  | l, .getRemaining ip now => ((l.getRemaining ip now).1 |> .remaining, (l.getRemaining ip now).2)
  | l, .cleanup now => (.done, l.cleanup now)

/-- The representation invariant: every record has its node in the list. -/
def Inv : Prop := Linked IPRecord.lruIt l.ipRecords l.lruList

/-- The times kept for a client. -/
def timestampsOf (ip : String) : List TimePoint :=
  ((l.ipRecords.lookup ip).map IPRecord.timestamps).getD []

/-- The operation drops the record of `ip` to make room for the record of another client. -/
def Evicts (op : LimiterOp) (ip : String) : Prop :=
  match op with
  | .isAllowed ip' _ _ => 0 < l.maxRequests ∧ l.ipRecords.lookup ip' = none ∧
      l.maxIpRecords ≤ l.ipRecords.entries.length ∧ l.lruList.back? = some ip
  | _ => False

instance (op : LimiterOp) (ip : String) : Decidable (l.Evicts op ip) :=
  match op with
  | .isAllowed .. => inferInstanceAs (Decidable (_ ∧ _ ∧ _ ∧ _))
  | .getRemaining .. => inferInstanceAs (Decidable False)
  | .cleanup .. => inferInstanceAs (Decidable False)

variable {l}

/-! ### The outcomes of the operations -/

theorem isAllowed_of_nonpos (h : l.maxRequests ≤ 0) (ip : String) (now pruned : TimePoint) :
    l.isAllowed ip now pruned = (false, l) := if_pos h

theorem isAllowed_of_none {ip : String} (h : 0 < l.maxRequests)
    (hip : l.ipRecords.lookup ip = none) (now pruned : TimePoint) :
    l.isAllowed ip now pruned = (true, { l.makeRoom with
      lruList := l.makeRoom.lruList.pushFront ip
      ipRecords := l.makeRoom.ipRecords.insert ip ⟨[now], l.makeRoom.lruList.next⟩ }) := by
  rw [isAllowed, if_neg (not_le.2 h), hip]

theorem isAllowed_of_some {ip : String} {record : IPRecord} (h : 0 < l.maxRequests)
    (hip : l.ipRecords.lookup ip = some record) (now pruned : TimePoint) :
    l.isAllowed ip now pruned =
      let kept := prune (seconds l.window) pruned record.timestamps
      let admits := decide (kept.length < l.maxRequests.toNat)
      (admits, { l with
        lruList := l.lruList.spliceFront record.lruIt
        ipRecords := l.ipRecords.insert ip
          ⟨kept ++ if admits then [now] else [], record.lruIt⟩ }) := by
  rw [isAllowed, if_neg (not_le.2 h), hip]
  simp only [cleanupOldTimestamps, decide_eq_true_eq]
  split <;> next hlt => simp [hlt]

theorem getRemaining_of_none {ip : String} (hip : l.ipRecords.lookup ip = none)
    (now : TimePoint) : l.getRemaining ip now = (l.maxRequests, l) := by
  rw [getRemaining, hip]

theorem getRemaining_of_some {ip : String} {record : IPRecord}
    (hip : l.ipRecords.lookup ip = some record) (now : TimePoint) :
    l.getRemaining ip now =
      (max 0 (l.maxRequests - toInt (prune (seconds l.window) now record.timestamps).length),
        { l with ipRecords := l.ipRecords.insert ip (l.cleanupOldTimestamps record now) }) := by
  rw [getRemaining, hip]
  rfl

/-! ### The parameters never change -/

@[simp] theorem makeRoom_maxRequests : l.makeRoom.maxRequests = l.maxRequests := by
  unfold makeRoom evictLru; split <;> try split
  all_goals rfl

@[simp] theorem makeRoom_window : l.makeRoom.window = l.window := by
  unfold makeRoom evictLru; split <;> try split
  all_goals rfl

@[simp] theorem makeRoom_maxIpRecords : l.makeRoom.maxIpRecords = l.maxIpRecords := by
  unfold makeRoom evictLru; split <;> try split
  all_goals rfl

/-- An operation keeps the limit, the window and the number of clients. -/
theorem step_params (op : LimiterOp) : (step l op).2.maxRequests = l.maxRequests ∧
    (step l op).2.window = l.window ∧ (step l op).2.maxIpRecords = l.maxIpRecords := by
  cases op with
  | isAllowed ip now pruned =>
    rcases le_or_gt l.maxRequests 0 with hmax | hmax
    · simp only [step, isAllowed_of_nonpos hmax, and_self]
    · cases hip : l.ipRecords.lookup ip with
      | none => simp [step, isAllowed_of_none hmax hip]
      | some record => simp [step, isAllowed_of_some hmax hip]
  | getRemaining ip now =>
    cases hip : l.ipRecords.lookup ip with
    | none => simp [step, getRemaining_of_none hip]
    | some record => simp [step, getRemaining_of_some hip]
  | cleanup now => exact ⟨rfl, rfl, rfl⟩

theorem run_params (l : RateLimiter) (ops : List LimiterOp) :
    (step.run l ops).maxRequests = l.maxRequests ∧ (step.run l ops).window = l.window ∧
      (step.run l ops).maxIpRecords = l.maxIpRecords := by
  refine Machine.run_invariant
    (I := fun s : RateLimiter => s.maxRequests = l.maxRequests ∧ s.window = l.window ∧
      s.maxIpRecords = l.maxIpRecords) (fun s op hs => ?_) ops ⟨rfl, rfl, rfl⟩
  obtain ⟨hmax, hwindow, hrecords⟩ := s.step_params op
  exact ⟨hmax.trans hs.1, hwindow.trans hs.2.1, hrecords.trans hs.2.2⟩

/-! ### Map and list stay linked -/

theorem inv_new (maxRequests window : ℤ) (maxIpRecords : ℕ) :
    (new maxRequests window maxIpRecords).Inv := Linked.empty

/-- Eviction erases the record of the client at the back, if there is one. -/
theorem lookup_evictLru (ip : String) : l.evictLru.ipRecords.lookup ip =
    if l.lruList.back? = some ip then none else l.ipRecords.lookup ip := by
  rw [evictLru]
  split
  · next hback => simp [hback]
  · next lruIp hback =>
    by_cases hip : ip = lruIp
    · subst hip
      simp [hback]
    · simp [hback, AList.lookup_erase_ne hip, Ne.symm hip]

theorem inv_evictLru (h : l.Inv) : l.evictLru.Inv := by
  rw [evictLru]
  split
  · exact h
  · next lruIp hback =>
    obtain ⟨record, hrecord, ns, hnodes⟩ := h.lookup_back hback
    have hlinked := h.erase hrecord
    rwa [← h.wf.popBack_eq hnodes] at hlinked

theorem inv_makeRoom (h : l.Inv) : l.makeRoom.Inv := by
  unfold makeRoom
  split
  · exact inv_evictLru h
  · exact h

theorem lookup_makeRoom_of_none {ip : String} (hip : l.ipRecords.lookup ip = none) :
    l.makeRoom.ipRecords.lookup ip = none := by
  unfold makeRoom
  split
  · rw [lookup_evictLru, hip, ite_self]
  · exact hip

theorem inv_isAllowed (h : l.Inv) (ip : String) (now pruned : TimePoint) :
    (l.isAllowed ip now pruned).2.Inv := by
  rcases le_or_gt l.maxRequests 0 with hmax | hmax
  · rw [isAllowed_of_nonpos hmax]
    exact h
  · cases hip : l.ipRecords.lookup ip with
    | none =>
      rw [isAllowed_of_none hmax hip]
      exact (inv_makeRoom h).insert_pushFront (lookup_makeRoom_of_none hip) rfl
    | some record =>
      rw [isAllowed_of_some hmax hip]
      refine Linked.spliceFront (h.insert_same hip ?_) record.lruIt
      rfl

theorem inv_step (h : l.Inv) (op : LimiterOp) : (step l op).2.Inv := by
  cases op with
  | isAllowed ip now pruned => exact inv_isAllowed h ip now pruned
  | getRemaining ip now =>
    cases hip : l.ipRecords.lookup ip with
    | none => simpa only [step, getRemaining_of_none hip] using h
    | some record =>
      simp only [step, getRemaining_of_some hip]
      exact h.insert_same hip rfl
  | cleanup now =>
    have hlinked := h.mapVal (f := fun ip record => l.cleanupOldTimestamps record (now ip))
      fun _ _ => rfl
    exact hlinked.sweep _

/-- In every state a run reaches, map and list are linked. -/
theorem inv_run (h : l.Inv) (ops : List LimiterOp) : (step.run l ops).Inv :=
  Machine.run_invariant (I := Inv) (fun _ op hs => inv_step hs op) ops h

/-! ### The times kept for a client -/

theorem timestampsOf_of_none {ip : String} (hip : l.ipRecords.lookup ip = none) :
    l.timestampsOf ip = [] := by
  rw [timestampsOf, hip]
  rfl

theorem timestampsOf_of_some {ip : String} {record : IPRecord}
    (hip : l.ipRecords.lookup ip = some record) : l.timestampsOf ip = record.timestamps := by
  rw [timestampsOf, hip]
  rfl

/-- A call is admitted if fewer than `maxRequests` of the times kept are left by pruning. -/
theorem isAllowed_fst (ip : String) (now pruned : TimePoint) :
    (l.isAllowed ip now pruned).1 = decide
      ((prune (seconds l.window) pruned (l.timestampsOf ip)).length < l.maxRequests.toNat) := by
  rcases le_or_gt l.maxRequests 0 with hmax | hmax
  · simp [isAllowed_of_nonpos hmax, Int.toNat_of_nonpos hmax]
  · cases hip : l.ipRecords.lookup ip with
    | none => simp [isAllowed_of_none hmax hip, timestampsOf_of_none hip, prune, hmax]
    | some record => rw [isAllowed_of_some hmax hip, timestampsOf_of_some hip]

/-- A call of `ip` prunes the times kept for it, and keeps its own if it is admitted. -/
theorem timestampsOf_isAllowed (hmax : 0 < l.maxRequests) (ip : String) (now pruned : TimePoint) :
    (l.isAllowed ip now pruned).2.timestampsOf ip =
      prune (seconds l.window) pruned (l.timestampsOf ip) ++
        if (l.isAllowed ip now pruned).1 then [now] else [] := by
  cases hip : l.ipRecords.lookup ip with
  | none => simp [isAllowed_of_none hmax hip, timestampsOf, hip, prune]
  | some record => simp [isAllowed_of_some hmax hip, timestampsOf, hip]

/-- A call of another client that does not evict `ip` leaves the times kept for it. -/
theorem timestampsOf_isAllowed_of_ne {ip ip' : String} (hne : ip ≠ ip') {now pruned : TimePoint}
    (hev : ¬l.Evicts (.isAllowed ip' now pruned) ip) :
    (l.isAllowed ip' now pruned).2.timestampsOf ip = l.timestampsOf ip := by
  rcases le_or_gt l.maxRequests 0 with hmax | hmax
  · rw [isAllowed_of_nonpos hmax]
  · cases hip : l.ipRecords.lookup ip' with
    | none =>
      have hroom : l.makeRoom.ipRecords.lookup ip = l.ipRecords.lookup ip := by
        unfold makeRoom
        split
        · next hfull =>
          rw [lookup_evictLru, if_neg fun hback => hev ⟨hmax, hip, hfull, hback⟩]
        · rfl
      simp [isAllowed_of_none hmax hip, timestampsOf, AList.lookup_insert_ne hne, hroom]
    | some record =>
      simp [isAllowed_of_some hmax hip, timestampsOf, AList.lookup_insert_ne hne]

/-- `get_remaining` prunes the times kept for its client. -/
theorem timestampsOf_getRemaining (ip ip' : String) (now : TimePoint) :
    (l.getRemaining ip' now).2.timestampsOf ip =
      if ip = ip' then prune (seconds l.window) now (l.timestampsOf ip) else l.timestampsOf ip := by
  cases hip : l.ipRecords.lookup ip' with
  | none =>
    rw [getRemaining_of_none hip]
    split
    · next heq => simp [heq, timestampsOf_of_none hip, prune]
    · rfl
  | some record =>
    rw [getRemaining_of_some hip]
    split
    · next heq =>
      subst heq
      simp [timestampsOf, hip, cleanupOldTimestamps]
    · next hne => simp [timestampsOf, AList.lookup_insert_ne hne]

/-- `cleanup` prunes the records, and keeps those of which some time is left. -/
theorem lookup_cleanup (h : l.Inv) (now : String → TimePoint) (ip : String) :
    (l.cleanup now).ipRecords.lookup ip =
      ((l.ipRecords.lookup ip).map fun record => l.cleanupOldTimestamps record (now ip)).filter
        fun record => !record.timestamps.isEmpty := by
  have hlinked := h.mapVal (f := fun ip record => l.cleanupOldTimestamps record (now ip))
    fun _ _ => rfl
  simp only [cleanup, hlinked.lookup_sweep, Dict.lookup_mapVal]

theorem timestampsOf_cleanup (h : l.Inv) (now : String → TimePoint) (ip : String) :
    (l.cleanup now).timestampsOf ip = prune (seconds l.window) (now ip) (l.timestampsOf ip) := by
  rw [timestampsOf, lookup_cleanup h, timestampsOf]
  rcases l.ipRecords.lookup ip with _ | record
  · rfl
  · by_cases hempty : prune (seconds l.window) (now ip) record.timestamps = []
    · simp [Option.filter, cleanupOldTimestamps, hempty]
    · simp [Option.filter, cleanupOldTimestamps, hempty]

end RateLimiter

end IpServer
