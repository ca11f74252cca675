import IpServer.RateLimiter.Basic
import Mathlib.Data.Finset.Card

/-!
# The limiter is an exact sliding-window log

What a client's record holds is only what is left of its admissions after some
pruning, and the record itself may be gone; still the limiter answers as if it
kept every admission of the client and counted those in the window.

* `Tracks`: the times kept for a client are its admissions so far, without some of
  the first ones, which no longer count.
* `tracks_step`, `tracks_run`: every operation that does not evict the client keeps
  it so, while the clock does not go back.
* `not_evicts_of_card_le`: no client is evicted while there is room for all the
  clients that call.
* `exact_sliding_window`: the answers are those of the log of admissions; hence only
  the admitted calls of a client matter to its later answers, and admissions of one
  client are spaced out.
-/

namespace IpServer

open SlidingWindow

/-- The readings of an operation lie between `lo` and `hi`, in the order they are taken. -/
def LimiterOp.Within (lo hi : TimePoint) : LimiterOp → Prop
  | .isAllowed _ now pruned => lo ≤ now ∧ now ≤ pruned ∧ pruned ≤ hi
  | .getRemaining _ now => lo ≤ now ∧ now ≤ hi
  | .cleanup now => ∀ ip, lo ≤ now ip ∧ now ip ≤ hi

theorem LimiterOp.Within.le {lo hi : TimePoint} {op : LimiterOp} (h : op.Within lo hi) :
    lo ≤ hi := by
  cases op with
  | isAllowed ip now pruned => exact h.1.trans (h.2.1.trans h.2.2)
  | getRemaining ip now => exact h.1.trans h.2
  | cleanup now => exact (h "").1.trans (h "").2

namespace RateLimiter

/-- The clock does not go back along the operations, from `lo` on. -/
def Clocked : TimePoint → List LimiterOp → Prop
  | _, [] => True
  | lo, op :: ops => ∃ hi, op.Within lo hi ∧ Clocked hi ops

/-- The clock may stand still. -/
theorem Clocked.of_still {lo : TimePoint} {ops : List LimiterOp}
    (h : ∀ op ∈ ops, op.Within lo lo) : Clocked lo ops := by
  induction ops with
  | nil => trivial
  | cons op ops ih =>
    obtain ⟨hop, hrest⟩ := List.forall_mem_cons.1 h
    exact ⟨lo, hop, ih hrest⟩

variable (l : RateLimiter)

/-- The reading at which a call prunes: the second one if the client has a record,
    otherwise there is only the first one. -/
def pruningReading (ip : String) (now pruned : TimePoint) : TimePoint :=
  if (l.ipRecords.lookup ip).isSome then pruned else now

/-- The admission that an operation is for `ip`, if it is one. -/
def admission? (ip : String) : LimiterOp → Option (Admission TimePoint)
  | .isAllowed ip' now pruned =>
    if ip' = ip ∧ (l.isAllowed ip' now pruned).1 then some ⟨now, l.pruningReading ip' now pruned⟩
    else none
  | _ => none

/-- The admissions of `ip` along a run. -/
def admissions (ip : String) (ops : List LimiterOp) : List (Admission TimePoint) :=
  step.emitted (fun l op => (l.admission? ip op).toList) l ops

/-- The answer of an operation, if it is a call of `is_allowed` for `ip`. -/
def verdict? (ip : String) : LimiterOp → Option Bool
  | .isAllowed ip' now pruned => if ip' = ip then some (l.isAllowed ip' now pruned).1 else none
  | _ => none

/-- The answers to the calls of `is_allowed` for `ip` along a run. -/
def verdicts (ip : String) (ops : List LimiterOp) : List Bool :=
  step.emitted (fun l op => (l.verdict? ip op).toList) l ops

/-- The times kept for `ip` are what is left of its admissions `as` at `now`. -/
structure Tracks (now : TimePoint) (ip : String) (as : List (Admission TimePoint)) : Prop where
  window : Window (seconds l.window) now (as.map (·.recorded)) (l.timestampsOf ip)
  sorted : (as.map (·.recorded)).Pairwise (· ≤ ·)
  past : ∀ t ∈ as.map (·.recorded), t ≤ now
  paced : Paced l.maxRequests.toNat (seconds l.window) as

variable {l} {lo hi now pruned : TimePoint} {ip : String} {as : List (Admission TimePoint)}
  {ips : Finset String}

theorem tracks_new (maxRequests window : ℤ) (maxIpRecords : ℕ) (now : TimePoint) (ip : String) :
    (new maxRequests window maxIpRecords).Tracks now ip [] where
  window := Window.nil _ _
  sorted := List.Pairwise.nil
  past _ h := absurd h List.not_mem_nil
  paced := Paced.nil

/-- Time passes. -/
theorem Tracks.mono (h : l.Tracks lo ip as) (hle : lo ≤ hi) : l.Tracks hi ip as where
  window := h.window.mono hle
  sorted := h.sorted
  past t ht := (h.past t ht).trans hle
  paced := h.paced

/-- The record of a client is pruned. -/
theorem Tracks.prune {l' : RateLimiter} (h : l.Tracks now ip as)
    (hmax : l'.maxRequests = l.maxRequests) (hwindow : l'.window = l.window)
    (hts : l'.timestampsOf ip = SlidingWindow.prune (seconds l.window) now (l.timestampsOf ip)) :
    l'.Tracks now ip as where
  window := by
    rw [hts, hwindow]
    exact h.window.prune
  sorted := h.sorted
  past := h.past
  paced := by
    rw [hmax, hwindow]
    exact h.paced

/-- The record of a client is left as it is. -/
theorem Tracks.frame {l' : RateLimiter} (h : l.Tracks now ip as)
    (hmax : l'.maxRequests = l.maxRequests) (hwindow : l'.window = l.window)
    (hts : l'.timestampsOf ip = l.timestampsOf ip) : l'.Tracks now ip as where
  window := by
    rw [hts, hwindow]
    exact h.window
  sorted := h.sorted
  past := h.past
  paced := by
    rw [hmax, hwindow]
    exact h.paced

/-- A call is admitted if fewer than `maxRequests` admissions are in the window at the
    time it prunes. -/
theorem Tracks.isAllowed_eq (h : l.Tracks lo ip as) (now : TimePoint) (hle : lo ≤ pruned) :
    (l.isAllowed ip now pruned).1 =
      decide ((live (seconds l.window) pruned (as.map (·.recorded))).length <
        l.maxRequests.toNat) := by
  rw [isAllowed_fst, (h.window.mono hle).prune_eq_live h.sorted]

/-- Where there is no record, nothing is in the window. -/
theorem Tracks.live_pruningReading (h : l.Tracks lo ip as) (hlo : lo ≤ now) (hle : now ≤ pruned) :
    live (seconds l.window) (l.pruningReading ip now pruned) (as.map (·.recorded)) =
      live (seconds l.window) pruned (as.map (·.recorded)) := by
  unfold pruningReading
  cases hip : l.ipRecords.lookup ip with
  | some record => rfl
  | none =>
    have hwindow := h.window
    rw [timestampsOf_of_none hip] at hwindow
    exact (hwindow.live_eq_nil hlo).trans (hwindow.live_eq_nil (hlo.trans hle)).symm

theorem admission?_of_ne {ip' : String} (hne : ip' ≠ ip) (now pruned : TimePoint) :
    l.admission? ip (.isAllowed ip' now pruned) = none := if_neg fun h => hne h.1

theorem admission?_of_admitted (h : (l.isAllowed ip now pruned).1 = true) :
    l.admission? ip (.isAllowed ip now pruned) = some ⟨now, l.pruningReading ip now pruned⟩ :=
  if_pos ⟨rfl, h⟩

theorem admission?_of_denied (h : (l.isAllowed ip now pruned).1 = false) :
    l.admission? ip (.isAllowed ip now pruned) = none := if_neg fun hand => by simp [h] at hand

/-- The record of a client is pruned and its call admitted. -/
theorem Tracks.admit {l' : RateLimiter} (h : l.Tracks lo ip as) (hlo : lo ≤ now)
    (hle : now ≤ pruned) (hmax : l'.maxRequests = l.maxRequests) (hwindow : l'.window = l.window)
    (hts : l'.timestampsOf ip =
      SlidingWindow.prune (seconds l.window) pruned (l.timestampsOf ip) ++ [now])
    {a : Admission TimePoint} (hrecorded : a.recorded = now)
    (hlive : (live (seconds l.window) a.pruned (as.map (·.recorded))).length <
      l.maxRequests.toNat) : l'.Tracks pruned ip (as ++ [a]) where
  window := by
    rw [hwindow, hts, List.map_append, List.map_singleton, hrecorded]
    exact ((h.window.mono (hlo.trans hle)).prune).append [now]
  sorted := by
    rw [List.map_append, List.map_singleton, hrecorded, List.pairwise_append]
    refine ⟨h.sorted, List.pairwise_singleton _ _, fun t ht t' ht' => ?_⟩
    obtain rfl : t' = now := List.mem_singleton.1 ht'
    exact (h.past t ht).trans hlo
  past t ht := by
    rw [List.map_append, List.map_singleton, hrecorded, List.mem_append] at ht
    rcases ht with ht | ht
    · exact (h.past t ht).trans (hlo.trans hle)
    · obtain rfl : t = now := List.mem_singleton.1 ht
      exact hle
  paced := by
    rw [hmax, hwindow]
    exact h.paced.concat hlive

theorem tracks_isAllowed (h : l.Tracks lo ip as) (hlo : lo ≤ now) (hle : now ≤ pruned) :
    (step l (.isAllowed ip now pruned)).2.Tracks pruned ip
      (as ++ (l.admission? ip (.isAllowed ip now pruned)).toList) := by
  obtain ⟨hmax, hwindow, -⟩ := l.step_params (.isAllowed ip now pruned)
  rcases le_or_gt l.maxRequests 0 with hnonpos | hpos
  · rw [admission?_of_denied (by rw [isAllowed_of_nonpos hnonpos]), Option.toList_none,
      List.append_nil, step, isAllowed_of_nonpos hnonpos]
    exact h.mono (hlo.trans hle)
  · have hts := timestampsOf_isAllowed hpos ip now pruned
    cases hans : (l.isAllowed ip now pruned).1 with
    | true =>
      rw [hans, if_pos rfl] at hts
      have hlive := h.isAllowed_eq now (hlo.trans hle)
      rw [hans, eq_comm, decide_eq_true_eq, ← h.live_pruningReading hlo hle] at hlive
      rw [admission?_of_admitted hans]
      exact h.admit hlo hle hmax hwindow hts rfl hlive
    | false =>
      rw [hans, if_neg Bool.false_ne_true, List.append_nil] at hts
      rw [admission?_of_denied hans, Option.toList_none, List.append_nil]
      exact (h.mono (hlo.trans hle)).prune hmax hwindow hts

/-- An operation that does not evict `ip` keeps its record in step with its admissions. -/
theorem tracks_step (hinv : l.Inv) {op : LimiterOp} (h : l.Tracks lo ip as)
    (hop : op.Within lo hi) (hev : ¬l.Evicts op ip) :
    (step l op).2.Tracks hi ip (as ++ (l.admission? ip op).toList) := by
  obtain ⟨hmax, hwindow, -⟩ := l.step_params op
  cases op with
  | isAllowed ip' now pruned =>
    obtain ⟨hlo, hle, hhi⟩ := hop
    by_cases hip : ip' = ip
    · subst hip
      exact (tracks_isAllowed h hlo hle).mono hhi
    · rw [admission?_of_ne hip, Option.toList_none, List.append_nil]
      exact (h.mono (hlo.trans (hle.trans hhi))).frame hmax hwindow
        (timestampsOf_isAllowed_of_ne (Ne.symm hip) hev)
  | getRemaining ip' now =>
    have hts := l.timestampsOf_getRemaining ip ip' now
    simp only [admission?, Option.toList_none, List.append_nil]
    split at hts
    · exact ((h.mono hop.1).prune hmax hwindow hts).mono hop.2
    · exact (h.mono (hop.1.trans hop.2)).frame hmax hwindow hts
  | cleanup now =>
    simp only [admission?, Option.toList_none, List.append_nil]
    have hpruned := (h.mono (hop ip).1).prune hmax hwindow (timestampsOf_cleanup hinv now ip)
    exact hpruned.mono (hop ip).2

/-- A run that does not evict `ip` keeps its record in step with its admissions. -/
theorem tracks_run (hinv : l.Inv) (h : l.Tracks lo ip as) {pre post : List LimiterOp}
    (hclock : Clocked lo (pre ++ post))
    (hev : step.Along (fun l op => ¬l.Evicts op ip) l pre) :
    ∃ mid, (step.run l pre).Tracks mid ip (as ++ l.admissions ip pre) ∧ Clocked mid post := by
  induction pre generalizing l lo as with
  | nil => exact ⟨lo, by rwa [admissions, Machine.emitted_nil, List.append_nil], hclock⟩
  | cons op pre ih =>
    obtain ⟨hi, hop, hclock⟩ := hclock
    have hstep := ih (inv_step hinv op) (tracks_step hinv h hop hev.1) hclock hev.2
    rwa [List.append_assoc] at hstep

/-- A client that is not evicted is admitted at most `maxRequests` times within a window. -/
theorem length_admissions_le {maxRequests window : ℤ} {maxIpRecords : ℕ} {ops : List LimiterOp}
    (hclock : Clocked lo ops)
    (hev : step.Along (fun l op => ¬l.Evicts op ip) (new maxRequests window maxIpRecords) ops)
    (t : TimePoint) :
    (((new maxRequests window maxIpRecords).admissions ip ops).filter
      fun a => decide (t ≤ a.recorded ∧ a.pruned ≤ t + seconds window)).length ≤
      maxRequests.toNat := by
  rw [← List.append_nil ops] at hclock
  obtain ⟨mid, htracks, -⟩ := tracks_run (inv_new _ _ _) (tracks_new _ _ _ lo ip) hclock hev
  have hle := htracks.paced.length_within_le htracks.sorted t
  obtain ⟨hmax, hwindow, -⟩ := run_params (new maxRequests window maxIpRecords) ops
  rwa [hmax, hwindow, List.nil_append] at hle

/-! ### Only the admissions of a client matter to its later calls -/

/-- Two limiters that recorded the same admissions of `ip` answer it the same from then on. -/
theorem verdicts_congr {l' : RateLimiter} {as' : List (Admission TimePoint)}
    {ops : List LimiterOp} (hinv : l.Inv) (hinv' : l'.Inv) (h : l.Tracks lo ip as)
    (h' : l'.Tracks lo ip as') (hlog : as.map (·.recorded) = as'.map (·.recorded))
    (hmax : l.maxRequests = l'.maxRequests) (hwindow : l.window = l'.window)
    (hclock : Clocked lo ops) (hev : step.Along (fun l op => ¬l.Evicts op ip) l ops)
    (hev' : step.Along (fun l op => ¬l.Evicts op ip) l' ops) :
    l.verdicts ip ops = l'.verdicts ip ops := by
  induction ops generalizing l l' lo as as' with
  | nil => rfl
  | cons op ops ih =>
    obtain ⟨hi, hop, hclock⟩ := hclock
    obtain ⟨hmax₁, hwindow₁, -⟩ := l.step_params op
    obtain ⟨hmax₂, hwindow₂, -⟩ := l'.step_params op
    -- the two answer one operation the same, and record the same for it
    have hsame : l.verdict? ip op = l'.verdict? ip op ∧
        (l.admission? ip op).map (·.recorded) = (l'.admission? ip op).map (·.recorded) := by
      cases op with
      | isAllowed ip' now pruned =>
        by_cases hip : ip' = ip
        · subst hip
          have hans : (l.isAllowed ip' now pruned).1 = (l'.isAllowed ip' now pruned).1 := by
            rw [h.isAllowed_eq now (hop.1.trans hop.2.1), h'.isAllowed_eq now (hop.1.trans hop.2.1),
              hlog, hmax, hwindow]
          refine ⟨by simp only [verdict?, hans], ?_⟩
          cases hans' : (l'.isAllowed ip' now pruned).1 with
          | true =>
            rw [admission?_of_admitted (hans.trans hans'), admission?_of_admitted hans']
            rfl
          | false => rw [admission?_of_denied (hans.trans hans'), admission?_of_denied hans']
        · simp [verdict?, hip, admission?_of_ne hip]
      | getRemaining ip' now => exact ⟨rfl, rfl⟩
      | cleanup now => exact ⟨rfl, rfl⟩
    have hrest := ih (inv_step hinv op) (inv_step hinv' op) (tracks_step hinv h hop hev.1)
      (tracks_step hinv' h' hop hev'.1)
      (by simp only [List.map_append, hlog, ← Option.toList_map, hsame.2])
      (by rw [hmax₁, hmax₂, hmax]) (by rw [hwindow₁, hwindow₂, hwindow]) hclock hev.2 hev'.2
    simp only [verdicts, Machine.emitted_cons, hsame.1] at hrest ⊢
    rw [hrest]

/-! ### No client is evicted while there is room for all of them -/

/-- The only new record an operation makes is that of its caller. -/
theorem lookup_step (hinv : l.Inv) {op : LimiterOp}
    (h : l.ipRecords.lookup ip = none) (hop : op.caller? ≠ some ip) :
    (step l op).2.ipRecords.lookup ip = none := by
  cases op with
  | isAllowed ip' now pruned =>
    have hne : ip ≠ ip' := fun heq => hop (congrArg some heq.symm)
    rcases le_or_gt l.maxRequests 0 with hmax | hmax
    · simpa only [step, isAllowed_of_nonpos hmax] using h
    · cases hip : l.ipRecords.lookup ip' with
      | none => simp [step, isAllowed_of_none hmax hip, AList.lookup_insert_ne hne,
          lookup_makeRoom_of_none h]
      | some record => simp [step, isAllowed_of_some hmax hip, AList.lookup_insert_ne hne, h]
  | getRemaining ip' now =>
    cases hip : l.ipRecords.lookup ip' with
    | none => simpa only [step, getRemaining_of_none hip] using h
    | some record =>
      have hne : ip ≠ ip' := by
        rintro rfl
        exact absurd (h.symm.trans hip) (by simp)
      simp [step, getRemaining_of_some hip, AList.lookup_insert_ne hne, h]
  | cleanup now =>
    rw [step, lookup_cleanup hinv, h]
    rfl

/-- Only clients in `ips` have a record. -/
def RecordsIn (l : RateLimiter) (ips : Finset String) : Prop :=
  ∀ ip, ip ∉ ips → l.ipRecords.lookup ip = none

/-- A limiter with room for the clients in `ips` does not evict any of them for another. -/
theorem not_evicts (h : l.RecordsIn ips) (hroom : ips.card ≤ l.maxIpRecords) {op : LimiterOp}
    (hop : ∀ ip, op.caller? = some ip → ip ∈ ips) (ip : String) : ¬l.Evicts op ip := by
  cases op with
  | isAllowed ip' now pruned =>
    rintro ⟨-, hip', hfull, -⟩
    have hsub : insert ip' l.ipRecords.keys.toFinset ⊆ ips := by
      intro k hk
      rcases Finset.mem_insert.1 hk with rfl | hk
      · exact hop k rfl
      · by_contra hk'
        exact AList.lookup_eq_none.1 (h k hk') (List.mem_toFinset.1 hk)
    have hnew : ip' ∉ l.ipRecords.keys.toFinset := fun hk =>
      AList.lookup_eq_none.1 hip' (List.mem_toFinset.1 hk)
    have hcard := Finset.card_le_card hsub
    rw [Finset.card_insert_of_notMem hnew,
      List.toFinset_card_of_nodup l.ipRecords.keys_nodup] at hcard
    have hlen : l.ipRecords.keys.length = l.ipRecords.entries.length := List.length_map _
    omega
  | getRemaining ip' now => exact id
  | cleanup now => exact id

/-- No client is evicted along a run that calls for at most `maxIpRecords` of them. -/
theorem not_evicts_of_card_le (maxRequests window : ℤ) {maxIpRecords : ℕ}
    {ops : List LimiterOp} (h : (calledIps ops).card ≤ maxIpRecords) (ip : String) :
    step.Along (fun l op => ¬l.Evicts op ip) (new maxRequests window maxIpRecords) ops := by
  have hops : ∀ op ∈ ops, ∀ ip, op.caller? = some ip → ip ∈ calledIps ops := fun op hop ip hip =>
    List.mem_toFinset.2 (List.mem_filterMap.2 ⟨op, hop, hip⟩)
  refine Machine.along_mono (I := fun l => l.Inv ∧ l.RecordsIn (calledIps ops) ∧
      (calledIps ops).card ≤ l.maxIpRecords)
    (P := fun _ op => ∀ ip, op.caller? = some ip → ip ∈ calledIps ops)
    (fun l op hl hop => ?_) (fun l op hl hop => not_evicts hl.2.1 hl.2.2 hop ip)
    ⟨inv_new _ _ _, fun _ _ => rfl, h⟩ (Machine.along_of_forall hops)
  obtain ⟨hinv, hin, hroom⟩ := hl
  refine ⟨inv_step hinv op, fun ip' hip' => ?_, ?_⟩
  · exact lookup_step hinv (hin ip' hip') fun heq => hip' (hop ip' heq)
  · rw [(l.step_params op).2.2]
    exact hroom

/-- A client that is the only one to call is not evicted. -/
theorem not_evicts_of_caller (maxRequests window : ℤ) {maxIpRecords : ℕ} {ops : List LimiterOp}
    {ip : String} (hroom : 0 < maxIpRecords)
    (h : ∀ op ∈ ops, ∀ ip', op.caller? = some ip' → ip' = ip) :
    step.Along (fun l op => ¬l.Evicts op ip) (new maxRequests window maxIpRecords) ops := by
  refine not_evicts_of_card_le maxRequests window ?_ ip
  have hsub : calledIps ops ⊆ {ip} := fun ip' hip' => by
    obtain ⟨op, hop, hcaller⟩ := List.mem_filterMap.1 (List.mem_toFinset.1 hip')
    exact Finset.mem_singleton.2 (h op hop ip' hcaller)
  exact (Finset.card_le_card hsub).trans hroom

/-! ### The exact sliding window -/

theorem length_live_recorded (w now : TimePoint) (as : List (Admission TimePoint)) :
    (live w now (as.map (·.recorded))).length =
      (as.filter fun a => decide (now - a.recorded ≤ w)).length := by
  rw [live, List.filter_map, List.length_map]
  rfl

variable {maxRequests window : ℤ} {maxIpRecords : ℕ} {pre post ops : List LimiterOp}

/-- As long as a client is not evicted, a call of it is admitted exactly if fewer than
    `maxRequests` of its earlier admissions are in the window. -/
theorem isAllowed_iff
    (hclock : Clocked lo (pre ++ .isAllowed ip now pruned :: post))
    (hev : step.Along (fun l op => ¬l.Evicts op ip) (new maxRequests window maxIpRecords) pre) :
    ((step.run (new maxRequests window maxIpRecords) pre).isAllowed ip now pruned).1 = true ↔
      0 < maxRequests ∧
      ((((new maxRequests window maxIpRecords).admissions ip pre).filter fun a => decide
        ((step.run (new maxRequests window maxIpRecords) pre).pruningReading ip now pruned
          - a.recorded ≤ seconds window)).length : ℤ) < maxRequests := by
  obtain ⟨mid, htracks, hi, ⟨hlo, hle, -⟩, -⟩ :=
    tracks_run (inv_new _ _ _) (tracks_new _ _ _ lo ip) hclock hev
  obtain ⟨hmax, hwindow, -⟩ := run_params (new maxRequests window maxIpRecords) pre
  rw [List.nil_append] at htracks
  rw [htracks.isAllowed_eq now (hlo.trans hle), ← htracks.live_pruningReading hlo hle,
    length_live_recorded, hmax, hwindow, decide_eq_true_eq, Int.lt_toNat]
  exact ⟨fun hlt => ⟨(Int.natCast_nonneg _).trans_lt hlt, hlt⟩, fun hlt => hlt.2⟩

/-- As long as a client is not evicted, an operation that is not an admission of it does
    not matter to its later calls. -/
theorem verdicts_skip {op : LimiterOp} (hclock : Clocked lo (pre ++ op :: post))
    (hev : step.Along (fun l op => ¬l.Evicts op ip) (new maxRequests window maxIpRecords)
      (pre ++ op :: post))
    (hev' : step.Along (fun l op => ¬l.Evicts op ip) (new maxRequests window maxIpRecords)
      (pre ++ post))
    (hop : (step.run (new maxRequests window maxIpRecords) pre).admission? ip op = none) :
    (step.run (new maxRequests window maxIpRecords) (pre ++ [op])).verdicts ip post =
      (step.run (new maxRequests window maxIpRecords) pre).verdicts ip post := by
  rw [Machine.along_append] at hev hev'
  have hinv : (step.run (new maxRequests window maxIpRecords) pre).Inv :=
    inv_run (inv_new _ _ _) pre
  obtain ⟨mid, htracks, hi, hop', hpost⟩ :=
    tracks_run (inv_new _ _ _) (tracks_new _ _ _ lo ip) hclock hev.1
  have hstep := tracks_step hinv htracks hop' hev.2.1
  rw [hop, Option.toList_none, List.append_nil] at hstep
  obtain ⟨hmax, hwindow, -⟩ :=
    (step.run (new maxRequests window maxIpRecords) pre).step_params op
  rw [Machine.run_concat]
  exact verdicts_congr (inv_step hinv op) hinv hstep (htracks.mono hop'.le) rfl hmax hwindow hpost
    hev.2.2 hev'.2

/-- As long as a client is not evicted, any `maxRequests + 1` of its admissions in a row
    span more than the window. -/
theorem admissions_span (hclock : Clocked lo ops)
    (hev : step.Along (fun l op => ¬l.Evicts op ip) (new maxRequests window maxIpRecords) ops)
    (hmax : 0 < maxRequests) {block : List (Admission TimePoint)}
    (hblock : block <:+: (new maxRequests window maxIpRecords).admissions ip ops)
    (hlen : (block.length : ℤ) = maxRequests + 1) {first last : Admission TimePoint}
    (hfirst : block.head? = some first) (hlast : block.getLast? = some last) :
    last.pruned - first.recorded > seconds window := by
  rw [← List.append_nil ops] at hclock
  obtain ⟨mid, htracks, -⟩ := tracks_run (inv_new _ _ _) (tracks_new _ _ _ lo ip) hclock hev
  obtain ⟨hmax', hwindow, -⟩ := run_params (new maxRequests window maxIpRecords) ops
  have hspan := htracks.paced.span_gt htracks.sorted hblock.sublist
    (by rw [hmax']; simp only [new]; omega) hfirst hlast
  rwa [hwindow] at hspan

/-- While at most `maxIpRecords` clients call, the limiter is an exact sliding-window log for
    each of them: the answer to a call counts the earlier admissions of its client in the
    window; no other operation matters to it; and any `maxRequests + 1` admissions in a row
    span more than the window. -/
theorem exact_sliding_window (hclock : Clocked lo ops) (hips : (calledIps ops).card ≤ maxIpRecords)
    (ip : String) :
    (∀ pre now pruned post, ops = pre ++ .isAllowed ip now pruned :: post →
      (((step.run (new maxRequests window maxIpRecords) pre).isAllowed ip now pruned).1 = true ↔
        0 < maxRequests ∧
        ((((new maxRequests window maxIpRecords).admissions ip pre).filter fun a => decide
          ((step.run (new maxRequests window maxIpRecords) pre).pruningReading ip now pruned
            - a.recorded ≤ seconds window)).length : ℤ) < maxRequests)) ∧
    (∀ pre op post, ops = pre ++ op :: post →
      (step.run (new maxRequests window maxIpRecords) pre).admission? ip op = none →
      (step.run (new maxRequests window maxIpRecords) (pre ++ [op])).verdicts ip post =
        (step.run (new maxRequests window maxIpRecords) pre).verdicts ip post) ∧
    (0 < maxRequests → ∀ block, block <:+: (new maxRequests window maxIpRecords).admissions ip ops →
      (block.length : ℤ) = maxRequests + 1 → ∀ first last, block.head? = some first →
      block.getLast? = some last → last.pruned - first.recorded > seconds window) := by
  have hev := not_evicts_of_card_le maxRequests window hips ip
  refine ⟨?_, ?_, ?_⟩
  · rintro pre now pruned post rfl
    exact isAllowed_iff hclock (Machine.along_append.1 hev).1
  · rintro pre op post rfl hop
    -- without the operation there are no more clients
    have hcard : (calledIps (pre ++ post)).card ≤ maxIpRecords := by
      refine (Finset.card_le_card fun k hk => ?_).trans hips
      simp only [calledIps, List.mem_toFinset, List.mem_filterMap, List.mem_append,
        List.mem_cons] at hk ⊢
      obtain ⟨op', hop', hk⟩ := hk
      exact ⟨op', hop'.imp_right .inr, hk⟩
    exact verdicts_skip hclock hev
      (not_evicts_of_card_le maxRequests window hcard ip) hop
  · intro hmax block hblock hlen first last hfirst hlast
    exact admissions_span hclock hev hmax hblock hlen hfirst hlast

/-- A client calls four times within 61 seconds, where two calls a minute are allowed. -/
def busyClient : List LimiterOp :=
  [.isAllowed "10.0.0.1" 0 0, .isAllowed "10.0.0.1" (seconds 30) (seconds 31),
    .isAllowed "10.0.0.1" (seconds 50) (seconds 50), .cleanup fun _ => seconds 51,
    .isAllowed "10.0.0.1" (seconds 61) (seconds 61)]

theorem exact_sliding_window_busyClient :
    (new 2 60 1).verdicts "10.0.0.1" busyClient = [true, true, false, true] ∧
    ∀ block, block <:+: (new 2 60 1).admissions "10.0.0.1" busyClient →
      (block.length : ℤ) = 2 + 1 → ∀ first last, block.head? = some first →
      block.getLast? = some last → last.pruned - first.recorded > seconds 60 := by
  have hclock : Clocked 0 busyClient := by
    refine ⟨0, ?_, seconds 31, ?_, seconds 50, ?_, seconds 51, ?_, seconds 61, ?_, trivial⟩ <;>
      simp [LimiterOp.Within, seconds]
  have hips : (calledIps busyClient).card ≤ 1 := by decide
  exact ⟨by decide +kernel, (exact_sliding_window hclock hips "10.0.0.1").2.2 (by decide)⟩

end RateLimiter

end IpServer
