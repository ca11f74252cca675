import IpServer.Conversions
import IpServer.RateLimiter.SlidingLog

/-!
# What remains for a client

`get_remaining` tells how many of the next calls of a client are admitted. It counts the times
kept for the client after pruning; afterwards every admission adds one time to them, and
pruning only takes times away. If none of the times grows too old, none is taken away, and the
first call beyond the number that was told is denied.

* `sublist_timestampsOf_step`: an operation adds at most its own admission to the times kept.
* `verdicts_take`: as many calls as there is room for are admitted, whatever comes in between.
* `timestampsOf_run_of_fresh`: if no time grows too old, every time is kept.
* `getRemaining_predicts`: what is told is what happens.
-/

namespace IpServer

open SlidingWindow

namespace RateLimiter

variable (l : RateLimiter)

/-- No time recorded for `ip`, before a run or along it, is older than the window at `now`. -/
def Fresh (ip : String) (ops : List LimiterOp) (now : TimePoint) : Prop :=
  ∀ t ∈ l.timestampsOf ip ++ (l.admissions ip ops).map (·.recorded), now - t ≤ seconds l.window

variable {l} {lo hi now pruned : TimePoint} {ip : String}

/-! ### Times are added by admissions only -/

/-- An operation adds at most its own admission to the times kept for a client. -/
theorem sublist_timestampsOf_step (hinv : l.Inv) (op : LimiterOp) (ip : String) :
    ((step l op).2.timestampsOf ip).Sublist
      (l.timestampsOf ip ++ (l.admission? ip op).toList.map (·.recorded)) := by
  have hprune (now : TimePoint) :
      (prune (seconds l.window) now (l.timestampsOf ip)).Sublist (l.timestampsOf ip) :=
    prune_sublist _ _ _
  rcases op with ⟨ip', now, pruned⟩ | ⟨ip', now⟩ | now
  · rw [step]
    by_cases hip : ip' = ip
    · subst hip
      rcases le_or_gt l.maxRequests 0 with hnonpos | hpos
      · rw [isAllowed_of_nonpos hnonpos]
        exact List.sublist_append_left _ _
      · rw [timestampsOf_isAllowed hpos]
        refine (hprune pruned).append ?_
        rcases hans : (l.isAllowed ip' now pruned).1 with _ | _
        · exact List.nil_sublist _
        · rw [admission?_of_admitted hans]
          exact List.Sublist.refl _
    · -- a call of another client adds nothing, and may evict the record
      refine List.Sublist.trans ?_ (List.sublist_append_left _ _)
      by_cases hev : l.Evicts (.isAllowed ip' now pruned) ip
      · obtain ⟨hmax, hnone, hfull, hback⟩ := hev
        have hgone : (l.isAllowed ip' now pruned).2.ipRecords.lookup ip = none := by
          rw [isAllowed_of_none hmax hnone, AList.lookup_insert_ne (Ne.symm hip), makeRoom,
            if_pos hfull, lookup_evictLru, if_pos hback]
        rw [timestampsOf_of_none hgone]
        exact List.nil_sublist _
      · rw [timestampsOf_isAllowed_of_ne (Ne.symm hip) hev]
  · refine List.Sublist.trans ?_ (List.sublist_append_left _ _)
    rw [step, timestampsOf_getRemaining]
    split
    · exact hprune now
    · exact List.Sublist.refl _
  · refine List.Sublist.trans ?_ (List.sublist_append_left _ _)
    rw [step, timestampsOf_cleanup hinv]
    exact hprune (now ip)

theorem length_timestampsOf_step (hinv : l.Inv) (op : LimiterOp) (ip : String) :
    ((step l op).2.timestampsOf ip).length ≤
      (l.timestampsOf ip).length + (l.admission? ip op).toList.length := by
  have hle := (sublist_timestampsOf_step hinv op ip).length_le
  rwa [List.length_append, List.length_map] at hle

theorem verdict?_eq_some {op : LimiterOp} {b : Bool} (h : l.verdict? ip op = some b) :
    ∃ now pruned, op = .isAllowed ip now pruned ∧ b = (l.isAllowed ip now pruned).1 := by
  cases op with
  | isAllowed ip' now pruned =>
    rw [verdict?] at h
    by_cases hip : ip' = ip
    · subst hip
      rw [if_pos rfl] at h
      exact ⟨now, pruned, rfl, (Option.some.inj h).symm⟩
    · rw [if_neg hip] at h
      cases h
  | getRemaining | cleanup => cases h

/-- There is an admission exactly if the call is admitted. -/
theorem length_admission? (op : LimiterOp) (ip : String) :
    (l.admission? ip op).toList.length = (l.verdict? ip op).toList.count true := by
  cases op with
  | isAllowed ip' now pruned =>
    by_cases hip : ip' = ip
    · subst hip
      rw [verdict?, if_pos rfl]
      rcases hans : (l.isAllowed ip' now pruned).1 with _ | _
      · rw [admission?_of_denied hans]
        rfl
      · rw [admission?_of_admitted hans]
        rfl
    · rw [admission?_of_ne hip, verdict?, if_neg hip]
      rfl
  | getRemaining | cleanup => rfl

theorem length_admissions (ops : List LimiterOp) (ip : String) :
    (l.admissions ip ops).length = (l.verdicts ip ops).count true := by
  induction ops generalizing l with
  | nil => rfl
  | cons op ops ih =>
    simp only [admissions, verdicts] at ih ⊢
    rw [Machine.emitted_cons, Machine.emitted_cons, List.length_append, List.count_append,
      length_admission?, ih]

/-- A call is admitted within the limit. -/
theorem length_timestampsOf_of_admission {op : LimiterOp} {a : Admission TimePoint}
    (h : l.admission? ip op = some a) :
    ((step l op).2.timestampsOf ip).length ≤ l.maxRequests.toNat := by
  cases op with
  | isAllowed ip' now pruned =>
    obtain ⟨rfl, hans⟩ : ip' = ip ∧ (l.isAllowed ip' now pruned).1 = true := by
      by_contra hnot
      rw [admission?, if_neg hnot] at h
      cases h
    have hlt := hans
    rw [isAllowed_fst, decide_eq_true_eq] at hlt
    rw [step, timestampsOf_isAllowed (by omega), hans, if_pos rfl, List.length_append]
    exact hlt
  | getRemaining | cleanup => cases h

/-- No more times are kept than calls are allowed. -/
theorem length_timestampsOf_run (hinv : l.Inv)
    (h : ∀ ip, (l.timestampsOf ip).length ≤ l.maxRequests.toNat) (ops : List LimiterOp)
    (ip : String) :
    ((step.run l ops).timestampsOf ip).length ≤ (step.run l ops).maxRequests.toNat := by
  have hstep : ∀ (l : RateLimiter) op,
      (l.Inv ∧ ∀ ip, (l.timestampsOf ip).length ≤ l.maxRequests.toNat) →
      (step l op).2.Inv ∧
        ∀ ip, ((step l op).2.timestampsOf ip).length ≤ (step l op).2.maxRequests.toNat := by
    intro l op hl
    refine ⟨inv_step hl.1 op, fun ip => ?_⟩
    rw [(l.step_params op).1]
    rcases hadmission : l.admission? ip op with _ | a
    · have hle := length_timestampsOf_step hl.1 op ip
      rw [hadmission] at hle
      exact hle.trans (hl.2 ip)
    · exact length_timestampsOf_of_admission hadmission
  exact (Machine.run_invariant hstep ops ⟨hinv, h⟩).2 ip

/-! ### Calls are admitted while there is room -/

/-- As many calls of a client as there is room for are admitted. -/
theorem verdicts_take {r : ℕ} (hinv : l.Inv)
    (hroom : (l.timestampsOf ip).length + r ≤ l.maxRequests.toNat) (ops : List LimiterOp) :
    ∀ b ∈ (l.verdicts ip ops).take r, b = true := by
  induction ops generalizing l r with
  | nil =>
    intro b hb
    rw [verdicts, Machine.emitted_nil, List.take_nil] at hb
    cases hb
  | cons op ops ih =>
    have hstep := length_timestampsOf_step hinv op ip
    rw [length_admission?] at hstep
    have hrest {r : ℕ} (h : ((step l op).2.timestampsOf ip).length + r ≤ l.maxRequests.toNat) :=
      ih (r := r) (inv_step hinv op) (by rwa [(l.step_params op).1])
    rw [verdicts, Machine.emitted_cons]
    rcases hverdict : l.verdict? ip op with _ | b
    · -- no call of the client: there is as much room as before
      rw [hverdict] at hstep
      exact hrest (by simp at hstep; omega)
    · rcases r with _ | r
      · intro b hb
        cases hb
      · -- the call finds fewer times than the limit, and adds one
        obtain ⟨now, pruned, rfl, rfl⟩ := verdict?_eq_some hverdict
        have hans : (l.isAllowed ip now pruned).1 = true := by
          have hle := (prune_sublist (seconds l.window) pruned (l.timestampsOf ip)).length_le
          rw [isAllowed_fst, decide_eq_true_eq]
          omega
        rw [hans] at hverdict ⊢
        rw [hverdict] at hstep
        refine List.forall_mem_cons.2 ⟨rfl, hrest ?_⟩
        simp at hstep
        omega

/-! ### Without expiry, every time is kept -/

theorem exists_clocked_of_append {pre post : List LimiterOp} (h : Clocked lo (pre ++ post)) :
    ∃ lo, Clocked lo post := by
  induction pre generalizing lo with
  | nil => exact ⟨lo, h⟩
  | cons op pre ih =>
    obtain ⟨hi, -, hrest⟩ := h
    exact ih hrest

/-- A reading that the next operation but `mid` does not precede is not preceded by any. -/
theorem le_of_clocked {t : TimePoint} {mid post : List LimiterOp} {op : LimiterOp}
    (hclock : Clocked lo (mid ++ op :: post)) (hop : ∀ lo hi, op.Within lo hi → lo ≤ t) :
    lo ≤ t := by
  induction mid generalizing lo with
  | nil =>
    obtain ⟨hi, hwithin, -⟩ := hclock
    exact hop lo hi hwithin
  | cons op' mid ih =>
    obtain ⟨hi, hwithin, hrest⟩ := hclock
    exact hwithin.le.trans (ih hrest)

/-- If no time is too old, an operation only adds its admission to them. -/
theorem timestampsOf_step_of_fresh (hinv : l.Inv) {t : TimePoint} {op : LimiterOp}
    (hop : op.Within lo hi) (hev : ¬l.Evicts op ip) (hhi : hi ≤ t)
    (hfresh : ∀ t' ∈ l.timestampsOf ip, t - t' ≤ seconds l.window) :
    (step l op).2.timestampsOf ip =
      l.timestampsOf ip ++ (l.admission? ip op).toList.map (·.recorded) := by
  -- a reading of the operation is not after `t`, at which no time is too old
  have hprune {now : TimePoint} (h : now ≤ hi) :
      prune (seconds l.window) now (l.timestampsOf ip) = l.timestampsOf ip :=
    prune_eq_self fun t' ht' => (sub_le_sub_right (h.trans hhi) t').trans (hfresh t' ht')
  cases op with
  | isAllowed ip' now pruned =>
    rw [step]
    by_cases hip : ip' = ip
    · subst hip
      rcases le_or_gt l.maxRequests 0 with hnonpos | hpos
      · have hdenied : (l.isAllowed ip' now pruned).1 = false := by
          rw [isAllowed_of_nonpos hnonpos]
        rw [admission?_of_denied hdenied, isAllowed_of_nonpos hnonpos]
        exact (List.append_nil _).symm
      · rw [timestampsOf_isAllowed hpos, hprune hop.2.2]
        rcases hans : (l.isAllowed ip' now pruned).1 with _ | _
        · rw [admission?_of_denied hans]
          rfl
        · rw [admission?_of_admitted hans]
          rfl
    · rw [timestampsOf_isAllowed_of_ne (Ne.symm hip) hev, admission?_of_ne hip]
      exact (List.append_nil _).symm
  | getRemaining ip' now =>
    rw [step, timestampsOf_getRemaining, hprune hop.2, ite_self]
    exact (List.append_nil _).symm
  | cleanup now =>
    rw [step, timestampsOf_cleanup hinv, hprune (hop ip).2]
    exact (List.append_nil _).symm

/-- If no time grows too old before an operation, every time is kept until then. -/
theorem timestampsOf_run_of_fresh (hinv : l.Inv) {t : TimePoint} {mid post : List LimiterOp}
    {op : LimiterOp} (hclock : Clocked lo (mid ++ op :: post))
    (hop : ∀ lo hi, op.Within lo hi → lo ≤ t)
    (hev : step.Along (fun l op => ¬l.Evicts op ip) l mid) (hfresh : l.Fresh ip mid t) :
    (step.run l mid).timestampsOf ip =
      l.timestampsOf ip ++ (l.admissions ip mid).map (·.recorded) := by
  induction mid generalizing l lo with
  | nil => exact (List.append_nil _).symm
  | cons op' mid ih =>
    obtain ⟨hi, hwithin, hrest⟩ := hclock
    have hstep := timestampsOf_step_of_fresh hinv hwithin hev.1 (le_of_clocked hrest hop)
      fun t' ht' => hfresh t' (List.mem_append_left _ ht')
    have hfresh' : (step l op').2.Fresh ip mid t := by
      rw [Fresh, hstep, (l.step_params op').2.1, List.append_assoc, ← List.map_append]
      exact hfresh
    rw [Machine.run_cons, ih (inv_step hinv op') hrest hev.2 hfresh', hstep, List.append_assoc,
      ← List.map_append]
    rfl

/-! ### What is told -/

theorem toInt_eq_self {n : ℕ} (h : (n : ℤ) < 2 ^ 31) : toInt n = n :=
  toInt32_eq_self.2 ⟨by omega, h⟩

/-- What is told is what the times left by pruning leave of the limit. -/
theorem getRemaining_fst (hmax : 0 < l.maxRequests) (hint : l.maxRequests < 2 ^ 31)
    (hlen : (l.timestampsOf ip).length ≤ l.maxRequests.toNat) (now : TimePoint) :
    (l.getRemaining ip now).1 = l.maxRequests -
      (prune (seconds l.window) now (l.timestampsOf ip)).length := by
  rcases hip : l.ipRecords.lookup ip with _ | record
  · rw [getRemaining_of_none hip, timestampsOf_of_none hip]
    exact (Int.sub_zero _).symm
  · have hle := (prune_sublist (seconds l.window) now (l.timestampsOf ip)).length_le
    rw [timestampsOf_of_some hip] at hle hlen ⊢
    rw [getRemaining_of_some hip, toInt_eq_self (by omega)]
    dsimp only
    omega

/-- What is told is the room that is left. -/
theorem getRemaining_room (hmax : 0 < l.maxRequests) (hint : l.maxRequests < 2 ^ 31)
    (hlen : (l.timestampsOf ip).length ≤ l.maxRequests.toNat) (now : TimePoint) :
    (0 ≤ (l.getRemaining ip now).1 ∧ (l.getRemaining ip now).1 ≤ l.maxRequests) ∧
      ((l.getRemaining ip now).2.timestampsOf ip).length + (l.getRemaining ip now).1.toNat =
        (l.getRemaining ip now).2.maxRequests.toNat := by
  have hparams : (l.getRemaining ip now).2.maxRequests = l.maxRequests :=
    (l.step_params (.getRemaining ip now)).1
  have hle := (prune_sublist (seconds l.window) now (l.timestampsOf ip)).length_le
  rw [getRemaining_fst hmax hint hlen, timestampsOf_getRemaining, if_pos rfl, hparams]
  omega

/-- A call is denied if all times kept are in the window and there are as many as allowed. -/
theorem isAllowed_eq_false (hfresh : ∀ t ∈ l.timestampsOf ip, pruned - t ≤ seconds l.window)
    (hlen : l.maxRequests.toNat ≤ (l.timestampsOf ip).length) (now : TimePoint) :
    (l.isAllowed ip now pruned).1 = false := by
  rw [isAllowed_fst, prune_eq_self hfresh, decide_eq_false_iff_not]
  omega

/-- The first call beyond the number that was told is denied, if no time grows too old before. -/
theorem isAllowed_eq_false_of_fresh {r : ℕ} {mid post : List LimiterOp} (hinv : l.Inv)
    (hroom : (l.timestampsOf ip).length + r = l.maxRequests.toNat)
    (hclock : Clocked lo (mid ++ .isAllowed ip now pruned :: post))
    (hev : step.Along (fun l op => ¬l.Evicts op ip) l mid)
    (hlen : (l.verdicts ip mid).length = r) (hfresh : l.Fresh ip mid pruned) :
    ((step.run l mid).isAllowed ip now pruned).1 = false := by
  have hts := timestampsOf_run_of_fresh hinv hclock
    (fun _ _ hop => hop.1.trans hop.2.1) hev hfresh
  obtain ⟨hmax, hwindow, -⟩ := run_params l mid
  -- the calls before it were admitted
  have hall := verdicts_take hinv hroom.le mid
  rw [List.take_of_length_le hlen.le] at hall
  have hcount : (l.admissions ip mid).length = r := by
    rw [length_admissions, List.count_eq_length.2 fun b hb => (hall b hb).symm, hlen]
  refine isAllowed_eq_false ?_ ?_ now
  · rw [hts, hwindow]
    exact hfresh
  · rw [hts, hmax, List.length_append, List.length_map]
    omega

/-- A denied call leaves as many times as calls are allowed. -/
theorem le_length_of_denied (hmax : 0 < l.maxRequests)
    (hdenied : (l.isAllowed ip now pruned).1 = false) :
    l.maxRequests.toNat ≤ ((l.isAllowed ip now pruned).2.timestampsOf ip).length := by
  rw [timestampsOf_isAllowed hmax, hdenied, if_neg Bool.false_ne_true, List.append_nil]
  rw [isAllowed_fst, decide_eq_false_iff_not] at hdenied
  exact not_lt.1 hdenied

/-- After a denied call, nothing remains until a time grows too old. -/
theorem getRemaining_of_denied {mid post : List LimiterOp} {now₁ pruned₁ : TimePoint}
    (hinv : l.Inv) (hmax : 0 < l.maxRequests) (hint : l.maxRequests < 2 ^ 31)
    (hlen : ∀ ip, (l.timestampsOf ip).length ≤ l.maxRequests.toNat)
    (hdenied : (l.isAllowed ip now₁ pruned₁).1 = false)
    (hclock : Clocked lo (.isAllowed ip now₁ pruned₁ :: (mid ++ .getRemaining ip now :: post)))
    (hev : step.Along (fun l op => ¬l.Evicts op ip) (l.isAllowed ip now₁ pruned₁).2 mid)
    (hfresh : (l.isAllowed ip now₁ pruned₁).2.Fresh ip mid now) :
    ((step.run (l.isAllowed ip now₁ pruned₁).2 mid).getRemaining ip now).1 = 0 := by
  obtain ⟨_, -, hclock⟩ := hclock
  have hfull := le_length_of_denied hmax hdenied
  have hle := length_timestampsOf_run hinv hlen (.isAllowed ip now₁ pruned₁ :: mid) ip
  obtain ⟨hparam, hwindow, -⟩ := run_params l (.isAllowed ip now₁ pruned₁ :: mid)
  have hts := timestampsOf_run_of_fresh (inv_isAllowed hinv ip now₁ pruned₁) hclock
    (fun _ _ hop => hop.1) hev hfresh
  have hwindow₁ : (l.isAllowed ip now₁ pruned₁).2.window = l.window :=
    (l.step_params (.isAllowed ip now₁ pruned₁)).2.1
  rw [Machine.run_cons] at hle hparam hwindow
  simp only [step] at hle hparam hwindow
  -- all times are kept, as many as allowed
  have hkept : prune (seconds (step.run (l.isAllowed ip now₁ pruned₁).2 mid).window) now
      ((step.run (l.isAllowed ip now₁ pruned₁).2 mid).timestampsOf ip) =
        (step.run (l.isAllowed ip now₁ pruned₁).2 mid).timestampsOf ip := by
    rw [hts, hwindow, ← hwindow₁]
    exact prune_eq_self hfresh
  rw [getRemaining_fst (by omega) (by omega) hle, hkept]
  rw [hts, List.length_append] at hle ⊢
  omega

variable {maxRequests window : ℤ} {maxIpRecords : ℕ} {pre ops : List LimiterOp}

/-- What `get_remaining` tells is between nothing and the limit. As long as the client is not
    evicted, so many of its next calls are admitted, and the call after these is denied if no
    time recorded for the client grows too old before. After a denied call, nothing remains
    until a time grows too old. -/
theorem getRemaining_predicts (hmax : 1 ≤ maxRequests) (hint : maxRequests < 2 ^ 31)
    (hclock : Clocked lo (pre ++ .getRemaining ip now :: ops)) :
    let l := step.run (new maxRequests window maxIpRecords) pre
    let r := (l.getRemaining ip now).1
    let l' := (l.getRemaining ip now).2
    (0 ≤ r ∧ r ≤ maxRequests) ∧
    (step.Along (fun l op => ¬l.Evicts op ip) l' ops →
      (∀ b ∈ (l'.verdicts ip ops).take r.toNat, b = true) ∧
      ∀ mid now' pruned' post, ops = mid ++ .isAllowed ip now' pruned' :: post →
        ((l'.verdicts ip mid).length : ℤ) = r → l'.Fresh ip mid pruned' →
        ((step.run l' mid).isAllowed ip now' pruned').1 = false) ∧
    ∀ pre₁ now₁ pruned₁ mid, pre = pre₁ ++ .isAllowed ip now₁ pruned₁ :: mid →
      ((step.run (new maxRequests window maxIpRecords) pre₁).isAllowed ip now₁ pruned₁).1 = false →
      let l₁ := ((step.run (new maxRequests window maxIpRecords) pre₁).isAllowed ip now₁ pruned₁).2
      step.Along (fun l op => ¬l.Evicts op ip) l₁ mid → l₁.Fresh ip mid now → r = 0 := by
  intro l r l'
  have hnew := inv_new maxRequests window maxIpRecords
  have hinv : l.Inv := inv_run hnew pre
  obtain ⟨hparam, -⟩ := run_params (new maxRequests window maxIpRecords) pre
  have hparam : l.maxRequests = maxRequests := hparam
  have hlen : (l.timestampsOf ip).length ≤ l.maxRequests.toNat :=
    length_timestampsOf_run hnew (fun _ => Nat.zero_le _) pre ip
  obtain ⟨hrange, hroom⟩ := getRemaining_room (by omega) (by omega) hlen now
  refine ⟨by rwa [hparam] at hrange, fun hev => ⟨?_, ?_⟩, ?_⟩
  · exact verdicts_take (inv_step hinv (.getRemaining ip now)) hroom.le ops
  · rintro mid now' pruned' post rfl hcount hfresh
    obtain ⟨_, _, -, hclock'⟩ := exists_clocked_of_append hclock
    exact isAllowed_eq_false_of_fresh (inv_step hinv (.getRemaining ip now)) hroom hclock'
      (Machine.along_append.1 hev).1 (by omega) hfresh
  · rintro pre₁ now₁ pruned₁ mid hpre hdenied l₁ hev hfresh
    -- the run goes on from the denied call to the limiter that is asked
    have hl : l = step.run l₁ mid := by
      dsimp only [l]
      rw [hpre, Machine.run_append]
      rfl
    have hclock₁ : ∃ lo, Clocked lo
        (.isAllowed ip now₁ pruned₁ :: (mid ++ .getRemaining ip now :: ops)) := by
      rw [hpre, List.append_assoc] at hclock
      exact exists_clocked_of_append hclock
    obtain ⟨_, hclock₁⟩ := hclock₁
    obtain ⟨hparam₁, -⟩ := run_params (new maxRequests window maxIpRecords) pre₁
    have hparam₁ : (step.run (new maxRequests window maxIpRecords) pre₁).maxRequests =
        maxRequests := hparam₁
    have hzero := getRemaining_of_denied (inv_run hnew pre₁) (by omega) (by omega)
      (length_timestampsOf_run hnew (fun _ => Nat.zero_le _) pre₁) hdenied hclock₁ hev hfresh
    rwa [← hl] at hzero

/-- A client that has called once calls twice more, where two calls a minute are allowed. -/
theorem getRemaining_predicts_twice :
    let l := step.run (new 2 60 1) [.isAllowed "10.0.0.1" 0 0]
    let l' := (l.getRemaining "10.0.0.1" (seconds 30)).2
    let mid := [.isAllowed "10.0.0.1" (seconds 31) (seconds 31), .cleanup fun _ => seconds 32]
    (l.getRemaining "10.0.0.1" (seconds 30)).1 = 1 ∧ (∀ b ∈ l'.verdicts "10.0.0.1" mid, b = true) ∧
      ((step.run l' mid).isAllowed "10.0.0.1" (seconds 33) (seconds 33)).1 = false := by
  intro l l' mid
  have hclock : Clocked 0 ([.isAllowed "10.0.0.1" 0 0] ++ .getRemaining "10.0.0.1" (seconds 30) ::
      (mid ++ [.isAllowed "10.0.0.1" (seconds 33) (seconds 33)])) := by
    refine ⟨0, ?_, seconds 30, ?_, seconds 31, ?_, seconds 32, ?_, seconds 33, ?_, trivial⟩ <;>
      simp [LimiterOp.Within, seconds]
  obtain ⟨-, hnext, -⟩ :=
    @getRemaining_predicts 0 (seconds 30) "10.0.0.1" 2 60 1 _ _ (by decide) (by decide) hclock
  obtain ⟨hadmitted, hdenied⟩ := hnext (by decide +kernel)
  refine ⟨by decide +kernel, ?_, ?_⟩
  · have htake : (l'.verdicts "10.0.0.1" (mid ++
        [.isAllowed "10.0.0.1" (seconds 33) (seconds 33)])).take 1 =
          l'.verdicts "10.0.0.1" mid := by decide +kernel
    rw [← htake]
    exact hadmitted
  · exact hdenied mid _ _ [] rfl (by decide +kernel) (by unfold Fresh; decide +kernel)

end RateLimiter

end IpServer
