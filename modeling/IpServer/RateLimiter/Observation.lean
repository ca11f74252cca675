import IpServer.RateLimiter.Protection
import IpServer.RateLimiter.SlidingLog

/-!
# Asking for what remains

`get_remaining` prunes the record of its client, and so changes the limiter. But what it drops no
longer counts, and the other calls prune before they look: while the clock does not go back, they
answer the same whether anybody asks for what remains or not, and the same clients are tracked, in
the same order, and evicted.

* `Alike`: two limiters that differ only in times that no longer count.
* `Alike.isAllowed`, `Alike.getRemaining`, `Alike.cleanup`: what the operations make of them.
* `unasked`: a run without the calls of `get_remaining` gives the same answers.
-/

namespace IpServer

open SlidingWindow

/-- The call asks for what remains. -/
def LimiterOp.asks : LimiterOp → Bool
  | .getRemaining .. => true
  | _ => false

namespace RateLimiter

/-- The calls that are made, of calls some of which are not. -/
def made (calls : List (LimiterOp × Bool)) : List LimiterOp :=
  (calls.filter Prod.snd).map Prod.fst

/-- Of the answers to all calls, those to the calls that are made. -/
def answersTo (calls : List (LimiterOp × Bool)) (answers : List LimiterAnswer) :
    List LimiterAnswer :=
  ((calls.zip answers).filter fun call => call.1.2).map Prod.snd

variable (l : RateLimiter)

/-- Two limiters that track the same clients in the same order, with the same times but for some
    that no longer count at `now`. -/
structure Alike (now : TimePoint) (l l' : RateLimiter) : Prop where
  inv : l.Inv
  inv' : l'.Inv
  maxRequests_eq : l.maxRequests = l'.maxRequests
  window_eq : l.window = l'.window
  maxIpRecords_eq : l.maxIpRecords = l'.maxIpRecords
  values_eq : l.lruList.values = l'.lruList.values
  prune_eq : ∀ later, now ≤ later → ∀ ip, prune (seconds l.window) later (l.timestampsOf ip) =
    prune (seconds l.window) later (l'.timestampsOf ip)

variable {l} {l' : RateLimiter} {lo hi now pruned : TimePoint} {ip : String}

/-! ### The clients that are tracked -/

theorem lookup_eq_none_iff (hinv : l.Inv) :
    l.ipRecords.lookup ip = none ↔ ip ∉ l.lruList.values := by
  rw [hinv.mem_values_iff, Bool.not_eq_true, Option.isSome_eq_false_iff,
    Option.isNone_iff_eq_none]

theorem values_evictLru : l.evictLru.lruList.values = l.lruList.values.dropLast := by
  rw [evictLru]
  split
  · next hback =>
    have hnil : l.lruList.nodes = [] := by simpa [NodeList.back?] using hback
    rw [NodeList.values, hnil]
    rfl
  · exact List.map_dropLast

/-- The clients after a call of one that is not tracked. -/
theorem values_isAllowed_of_none (hinv : l.Inv) (hmax : 0 < l.maxRequests)
    (hip : l.ipRecords.lookup ip = none) (now pruned : TimePoint) :
    (l.isAllowed ip now pruned).2.lruList.values = ip ::
      if l.maxIpRecords ≤ l.lruList.values.length then l.lruList.values.dropLast
      else l.lruList.values := by
  rw [isAllowed_of_none hmax hip, hinv.length_values, makeRoom]
  simp only [NodeList.values_pushFront]
  split
  · rw [values_evictLru]
  · rfl

/-- The clients after a call of one that is tracked. -/
theorem values_isAllowed_of_some (hinv : l.Inv) (hmax : 0 < l.maxRequests) {record : IPRecord}
    (hip : l.ipRecords.lookup ip = some record) (now pruned : TimePoint) :
    (l.isAllowed ip now pruned).2.lruList.values = ip :: l.lruList.values.filter (· ≠ ip) := by
  rw [isAllowed_of_some hmax hip]
  simp only [hinv.wf.values_spliceFront (hinv.node ip record hip), hinv.values_erase hip]

/-- The clients that `cleanup` leaves: those of which some time is within the window. -/
theorem values_cleanup (hinv : l.Inv) (now : String → TimePoint) :
    (l.cleanup now).lruList.values = l.lruList.values.filter fun ip =>
      !(prune (seconds l.window) (now ip) (l.timestampsOf ip)).isEmpty := by
  have hsub : (l.cleanup now).lruList.values.Sublist l.lruList.values :=
    Dict.sublist_values_sweep _ _ _ _
  have hinv' : (l.cleanup now).Inv := inv_step hinv (.cleanup now)
  rw [hinv.values_of_sublist hinv' hsub]
  refine List.filter_congr fun ip hip => ?_
  obtain ⟨record, hrecord⟩ := hinv.mem_values.1 hip
  rw [lookup_cleanup hinv, hrecord, timestampsOf_of_some hrecord]
  cases hempty : (prune (seconds l.window) (now ip) record.timestamps).isEmpty with
  | true => simp [Option.filter, cleanupOldTimestamps, hempty]
  | false => simp [Option.filter, cleanupOldTimestamps, hempty]

/-- `get_remaining` leaves the clients alone. -/
theorem values_getRemaining (ip : String) (now : TimePoint) :
    (l.getRemaining ip now).2.lruList.values = l.lruList.values := by
  cases hip : l.ipRecords.lookup ip with
  | none => rw [getRemaining_of_none hip]
  | some record => rw [getRemaining_of_some hip]

/-! ### Two limiters that are alike -/

/-- A client that is evicted has no times left. -/
theorem timestampsOf_of_evicts (hinv : l.Inv) {ip' : String}
    (hev : l.Evicts (.isAllowed ip' now pruned) ip) :
    (l.isAllowed ip' now pruned).2.timestampsOf ip = [] :=
  timestampsOf_of_none ((evicts_isAllowed_iff hinv).1 hev).2

namespace Alike

theorem refl (hinv : l.Inv) (now : TimePoint) : Alike now l l :=
  ⟨hinv, hinv, rfl, rfl, rfl, rfl, fun _ _ _ => rfl⟩

theorem symm (h : Alike now l l') : Alike now l' l where
  inv := h.inv'
  inv' := h.inv
  maxRequests_eq := h.maxRequests_eq.symm
  window_eq := h.window_eq.symm
  maxIpRecords_eq := h.maxIpRecords_eq.symm
  values_eq := h.values_eq.symm
  prune_eq later hle ip := by
    rw [← h.window_eq]
    exact (h.prune_eq later hle ip).symm

/-- Time passes. -/
theorem mono (h : Alike lo l l') (hle : lo ≤ hi) : Alike hi l l' :=
  { h with prune_eq := fun later hlater => h.prune_eq later (hle.trans hlater) }

theorem lookup_eq_none_iff (h : Alike now l l') :
    l.ipRecords.lookup ip = none ↔ l'.ipRecords.lookup ip = none := by
  rw [RateLimiter.lookup_eq_none_iff h.inv, RateLimiter.lookup_eq_none_iff h.inv', h.values_eq]

/-- The same clients are evicted. -/
theorem evicts_iff (h : Alike lo l l') (op : LimiterOp) : l.Evicts op ip ↔ l'.Evicts op ip := by
  have hback (l : RateLimiter) : l.lruList.back? = l.lruList.values.getLast? :=
    List.getLast?_map.symm
  cases op with
  | isAllowed ip' now pruned =>
    rw [Evicts, Evicts, h.maxRequests_eq, h.lookup_eq_none_iff, h.maxIpRecords_eq,
      ← h.inv.length_values, ← h.inv'.length_values, hback, hback, h.values_eq]
  | getRemaining | cleanup => exact Iff.rfl

/-- A call is admitted by both or by neither. -/
theorem isAllowed_fst_eq (h : Alike lo l l') (hle : lo ≤ pruned) (ip : String)
    (now : TimePoint) : (l.isAllowed ip now pruned).1 = (l'.isAllowed ip now pruned).1 := by
  rw [isAllowed_fst, isAllowed_fst, h.prune_eq pruned hle, h.window_eq, h.maxRequests_eq]

theorem isAllowed (h : Alike lo l l') (hle : lo ≤ pruned) (ip : String) (now : TimePoint) :
    Alike pruned (l.isAllowed ip now pruned).2 (l'.isAllowed ip now pruned).2 := by
  have hparams := l.step_params (.isAllowed ip now pruned)
  have hparams' := l'.step_params (.isAllowed ip now pruned)
  rcases le_or_gt l.maxRequests 0 with hmax | hmax
  · rw [isAllowed_of_nonpos hmax, isAllowed_of_nonpos (h.maxRequests_eq ▸ hmax)]
    exact h.mono hle
  have hmax' : 0 < l'.maxRequests := h.maxRequests_eq ▸ hmax
  refine {
    inv := inv_isAllowed h.inv ip now pruned
    inv' := inv_isAllowed h.inv' ip now pruned
    maxRequests_eq := hparams.1.trans (h.maxRequests_eq.trans hparams'.1.symm)
    window_eq := hparams.2.1.trans (h.window_eq.trans hparams'.2.1.symm)
    maxIpRecords_eq := hparams.2.2.trans (h.maxIpRecords_eq.trans hparams'.2.2.symm)
    values_eq := ?_
    prune_eq := fun later hlater ip' => ?_ }
  · cases hip : l.ipRecords.lookup ip with
    | none =>
      rw [values_isAllowed_of_none h.inv hmax hip,
        values_isAllowed_of_none h.inv' hmax' (h.lookup_eq_none_iff.1 hip), h.values_eq,
        h.maxIpRecords_eq]
    | some record =>
      obtain ⟨record', hip'⟩ := Option.ne_none_iff_exists'.1 <|
        mt h.lookup_eq_none_iff.2 (ne_of_eq_of_ne hip (Option.some_ne_none record))
      rw [values_isAllowed_of_some h.inv hmax hip, values_isAllowed_of_some h.inv' hmax' hip',
        h.values_eq]
  · have hwindow : (l.isAllowed ip now pruned).2.window = l.window := hparams.2.1
    rw [hwindow]
    by_cases hne : ip' = ip
    · -- what is kept of the caller's times was pruned now
      subst hne
      rw [timestampsOf_isAllowed hmax, timestampsOf_isAllowed hmax', h.isAllowed_fst_eq hle,
        h.prune_eq pruned hle, h.window_eq]
    · by_cases hev : l.Evicts (.isAllowed ip now pruned) ip'
      · rw [timestampsOf_of_evicts h.inv hev,
          timestampsOf_of_evicts h.inv' ((h.evicts_iff _).1 hev)]
      · rw [timestampsOf_isAllowed_of_ne hne hev,
          timestampsOf_isAllowed_of_ne hne (mt (h.evicts_iff _).2 hev)]
        exact h.prune_eq later (hle.trans hlater) ip'

/-- One of them is asked for what remains. -/
theorem getRemaining (h : Alike lo l l') (hle : lo ≤ now) (ip : String) :
    Alike now (l.getRemaining ip now).2 l' := by
  have hparams := l.step_params (.getRemaining ip now)
  refine {
    inv := inv_step h.inv (.getRemaining ip now)
    inv' := h.inv'
    maxRequests_eq := hparams.1.trans h.maxRequests_eq
    window_eq := hparams.2.1.trans h.window_eq
    maxIpRecords_eq := hparams.2.2.trans h.maxIpRecords_eq
    values_eq := (values_getRemaining ip now).trans h.values_eq
    prune_eq := fun later hlater ip' => ?_ }
  have hwindow : (l.getRemaining ip now).2.window = l.window := hparams.2.1
  rw [hwindow, timestampsOf_getRemaining, ← h.prune_eq later (hle.trans hlater)]
  split
  · exact prune_prune hlater _
  · rfl

/-- Both are asked for what remains. -/
theorem getRemaining_fst_eq (h : Alike lo l l') (hle : lo ≤ now) (ip : String) :
    (l.getRemaining ip now).1 = (l'.getRemaining ip now).1 := by
  cases hip : l.ipRecords.lookup ip with
  | none =>
    rw [getRemaining_of_none hip, getRemaining_of_none (h.lookup_eq_none_iff.1 hip)]
    exact h.maxRequests_eq
  | some record =>
    obtain ⟨record', hip'⟩ := Option.ne_none_iff_exists'.1 <|
      mt h.lookup_eq_none_iff.2 (ne_of_eq_of_ne hip (Option.some_ne_none record))
    rw [getRemaining_of_some hip, getRemaining_of_some hip', ← timestampsOf_of_some hip,
      ← timestampsOf_of_some hip', h.prune_eq now hle, h.window_eq, h.maxRequests_eq]

theorem cleanup (h : Alike lo l l') {now : String → TimePoint}
    (hnow : ∀ ip, lo ≤ now ip ∧ now ip ≤ hi) : Alike hi (l.cleanup now) (l'.cleanup now) where
  inv := inv_step h.inv (.cleanup now)
  inv' := inv_step h.inv' (.cleanup now)
  maxRequests_eq := h.maxRequests_eq
  window_eq := h.window_eq
  maxIpRecords_eq := h.maxIpRecords_eq
  values_eq := by
    rw [values_cleanup h.inv, values_cleanup h.inv', h.values_eq]
    refine List.filter_congr fun ip _ => ?_
    rw [h.prune_eq (now ip) (hnow ip).1, h.window_eq]
  prune_eq later hlater ip := by
    have hle := (hnow ip).2.trans hlater
    change prune (seconds l.window) later _ = prune (seconds l.window) later _
    rw [timestampsOf_cleanup h.inv, timestampsOf_cleanup h.inv', ← h.window_eq, prune_prune hle,
      prune_prune hle]
    exact h.prune_eq later ((hnow ip).1.trans hle) ip

/-- A call of both is answered the same, and leaves them alike. -/
theorem step (h : Alike lo l l') {op : LimiterOp} (hop : op.Within lo hi) :
    (RateLimiter.step l op).1 = (RateLimiter.step l' op).1 ∧
      Alike hi (RateLimiter.step l op).2 (RateLimiter.step l' op).2 := by
  cases op with
  | isAllowed ip now pruned =>
    have hle := hop.1.trans hop.2.1
    exact ⟨congrArg LimiterAnswer.allowed (h.isAllowed_fst_eq hle ip now),
      (h.isAllowed hle ip now).mono hop.2.2⟩
  | getRemaining ip now =>
    refine ⟨congrArg LimiterAnswer.remaining (h.getRemaining_fst_eq hop.1 ip), ?_⟩
    exact (((h.getRemaining hop.1 ip).symm.getRemaining le_rfl ip).symm).mono hop.2
  | cleanup now => exact ⟨rfl, h.cleanup hop⟩

end Alike

/-! ### Runs -/

/-- The clock goes on after some calls. -/
theorem Clocked.drop {ops rest : List LimiterOp} (h : Clocked lo (ops ++ rest)) :
    ∃ mid, lo ≤ mid ∧ Clocked mid rest := by
  induction ops generalizing lo with
  | nil => exact ⟨lo, le_rfl, h⟩
  | cons op ops ih =>
    obtain ⟨hi, hop, hrest⟩ := h
    obtain ⟨mid, hle, hmid⟩ := ih hrest
    exact ⟨mid, hop.le.trans hle, hmid⟩

/-- Calls that only ask for what remains are made of one of two limiters that are alike. -/
theorem Alike.run_of_asks {ops rest : List LimiterOp} (h : Alike lo l l')
    (hasks : ∀ op ∈ ops, op.asks = true) (hclock : Clocked lo (ops ++ rest)) :
    ∃ hi, Clocked hi rest ∧ Alike hi (RateLimiter.step.run l ops) l' := by
  induction ops generalizing l lo with
  | nil => exact ⟨lo, hclock, h⟩
  | cons op ops ih =>
    obtain ⟨mid, hop, hclock⟩ := hclock
    obtain ⟨hop', hrest⟩ := List.forall_mem_cons.1 hasks
    cases op with
    | getRemaining ip now => exact ih ((h.getRemaining hop.1 ip).mono hop.2) hrest hclock
    | isAllowed | cleanup => exact absurd hop' Bool.false_ne_true

/-- While the clock does not go back, two limiters that are alike answer the same calls the same,
    also if one of them is not made some of the calls that ask for what remains. -/
theorem alike_run {calls : List (LimiterOp × Bool)} (h : Alike lo l l')
    (hclock : Clocked lo (calls.map Prod.fst))
    (hmade : ∀ call ∈ calls, call.2 = false → call.1.asks = true) : ∃ hi,
    step.answers l' (made calls) = answersTo calls (step.answers l (calls.map Prod.fst)) ∧
      Alike hi (step.run l (calls.map Prod.fst)) (step.run l' (made calls)) := by
  induction calls generalizing l l' lo with
  | nil => exact ⟨lo, rfl, h⟩
  | cons call calls ih =>
    obtain ⟨op, isMade⟩ := call
    obtain ⟨mid, hop, hclock⟩ := hclock
    obtain ⟨hop', hrest⟩ := List.forall_mem_cons.1 hmade
    cases isMade with
    | true =>
      obtain ⟨hanswer, hafter⟩ := h.step hop
      obtain ⟨hi, hanswers, hend⟩ := ih hafter hclock hrest
      exact ⟨hi, congrArg₂ List.cons hanswer.symm hanswers, hend⟩
    | false =>
      cases op with
      | getRemaining ip now => exact ih ((h.getRemaining hop.1 ip).mono hop.2) hclock hrest
      | isAllowed | cleanup => exact absurd (hop' rfl) Bool.false_ne_true

/-- While the clock does not go back, nobody notices who asks for what remains: without some of
    these calls, the others are answered the same, and the same clients are tracked in the same
    order. -/
theorem unasked {calls : List (LimiterOp × Bool)} (hclock : Clocked lo (calls.map Prod.fst))
    (hmade : ∀ call ∈ calls, call.2 = false → call.1.asks = true) (maxRequests window : ℤ)
    (maxIpRecords : ℕ) :
    let start := new maxRequests window maxIpRecords
    let all := calls.map Prod.fst
    step.answers start (made calls) = answersTo calls (step.answers start all) ∧
      (step.run start (made calls)).lruList.values = (step.run start all).lruList.values := by
  intro start all
  obtain ⟨hi, hanswers, hend⟩ :=
    alike_run (Alike.refl (inv_new maxRequests window maxIpRecords) lo) hclock hmade
  exact ⟨hanswers, hend.values_eq.symm⟩

/-- A client calls twice, and in between asks for what remains, twice: one of the two calls is
    left out. -/
def askedInBetween : List (LimiterOp × Bool) :=
  [(.isAllowed "a" 0 0, true), (.getRemaining "a" 1, false), (.getRemaining "a" 2, true),
    (.isAllowed "a" 3 3, true)]

theorem unasked_askedInBetween : step.answers (new 1 60 2) (made askedInBetween) =
    answersTo askedInBetween (step.answers (new 1 60 2) (askedInBetween.map Prod.fst)) := by
  have hclock : Clocked 0 (askedInBetween.map Prod.fst) := by
    refine ⟨0, ?_, 1, ?_, 2, ?_, 3, ?_, trivial⟩
    all_goals simp [LimiterOp.Within]
  exact (unasked hclock (by decide) 1 60 2).1

end RateLimiter

end IpServer
