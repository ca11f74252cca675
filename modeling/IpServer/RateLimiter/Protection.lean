import IpServer.Library.Recency
import IpServer.RateLimiter.Basic

/-!
# Clients protected from eviction

The list of the clients is in the order of their last calls of `is_allowed`
(`inOrder_run`), whatever `cleanup` takes out of its middle. So the client that is
forgotten to make room is the one that has not called for longest, and every other
client the list holds has called since: a client is safe until as many others as
the limiter keeps records of have called (`lru_protection`).
-/

namespace IpServer

namespace RateLimiter

open LimiterOp

/-- The clients other than `ip` that `is_allowed` is called for. -/
def otherIps (ip : String) (ops : List LimiterOp) : Finset String := (calledIps ops).erase ip

variable {l : RateLimiter} {calls : List String}

theorem sublist_values_makeRoom : l.makeRoom.lruList.values.Sublist l.lruList.values := by
  unfold makeRoom evictLru
  split
  · split
    · exact List.Sublist.refl _
    · exact NodeList.sublist_values_popBack
  · exact List.Sublist.refl _

/-- A call moves its client to the front of the list; other operations keep the order. -/
theorem inOrder_step (hmax : 0 < l.maxRequests) (hinv : l.Inv)
    (h : InOrder calls l.ipRecords l.lruList) (op : LimiterOp) :
    InOrder (calls ++ op.caller?.toList) (step l op).2.ipRecords (step l op).2.lruList := by
  cases op with
  | isAllowed ip now pruned =>
    change InOrder (calls ++ [ip]) _ _
    rw [step]
    cases hip : l.ipRecords.lookup ip with
    | none =>
      rw [isAllowed_of_none hmax hip]
      have hroom := h.of_sublist hinv (inv_makeRoom hinv) sublist_values_makeRoom
      exact hroom.pushFront (lookup_makeRoom_of_none hip) _
    | some record =>
      rw [isAllowed_of_some hmax hip]
      exact (h.spliceFront hinv hip).insert_same hip _
  | getRemaining ip now =>
    change InOrder (calls ++ []) _ _
    rw [List.append_nil, step]
    cases hip : l.ipRecords.lookup ip with
    | none =>
      rw [getRemaining_of_none hip]
      exact h
    | some record =>
      rw [getRemaining_of_some hip]
      exact h.insert_same hip _
  | cleanup now =>
    change InOrder (calls ++ []) _ _
    rw [List.append_nil]
    have hlinked : Linked IPRecord.lruIt
        (Dict.mapVal (fun ip record => l.cleanupOldTimestamps record (now ip)) l.ipRecords)
        l.lruList := hinv.mapVal fun _ _ => rfl
    -- pruning keeps the records, and the sweep leaves the others in order
    have hsame (ip : String) : ((Dict.mapVal
        (fun ip record => l.cleanupOldTimestamps record (now ip)) l.ipRecords).lookup ip).isSome =
          (l.ipRecords.lookup ip).isSome := by
      rw [Dict.lookup_mapVal, Option.isSome_map]
    have hpruned := h.congr hsame
    exact hpruned.of_sublist hlinked (hlinked.sweep _) (Dict.sublist_values_sweep _ _ _ _)

/-- The list of the clients is in the order of their last calls. -/
theorem inOrder_run (hmax : 0 < l.maxRequests) (hinv : l.Inv)
    (h : InOrder calls l.ipRecords l.lruList) (ops : List LimiterOp) :
    InOrder (calls ++ ops.filterMap caller?) (step.run l ops).ipRecords
      (step.run l ops).lruList := by
  induction ops generalizing l calls with
  | nil => rwa [List.filterMap_nil, List.append_nil]
  | cons op ops ih =>
    have hmax' : 0 < (step l op).2.maxRequests := by rwa [(step_params op).1]
    have hcalls : (op :: ops).filterMap caller? = op.caller?.toList ++ ops.filterMap caller? := by
      rw [List.filterMap_cons]
      cases op.caller? with
      | none => rfl
      | some ip => rfl
    rw [hcalls, ← List.append_assoc]
    exact ih hmax' (inv_step hinv op) (inOrder_step hmax hinv h op)

/-- A call of `is_allowed` removes a record exactly if it drops it to make room. -/
theorem evicts_isAllowed_iff (hinv : l.Inv) {ip ip' : String} {now pruned : TimePoint} :
    l.Evicts (.isAllowed ip' now pruned) ip ↔
      (l.ipRecords.lookup ip).isSome ∧
        (l.isAllowed ip' now pruned).2.ipRecords.lookup ip = none := by
  constructor
  · rintro ⟨hmax, hnone, hfull, hback⟩
    obtain ⟨record, hrecord, -⟩ := hinv.lookup_back hback
    have hne : ip ≠ ip' := fun heq => by
      rw [heq, hnone] at hrecord
      cases hrecord
    refine ⟨Option.isSome_iff_exists.2 ⟨record, hrecord⟩, ?_⟩
    rw [isAllowed_of_none hmax hnone, AList.lookup_insert_ne hne, makeRoom, if_pos hfull,
      lookup_evictLru, if_pos hback]
  · rintro ⟨hsome, hgone⟩
    rcases le_or_gt l.maxRequests 0 with hmax | hmax
    · rw [isAllowed_of_nonpos hmax] at hgone
      rw [hgone] at hsome
      cases hsome
    cases hip : l.ipRecords.lookup ip' with
    | some record =>
      -- the caller has a record already: no other one is touched
      rw [isAllowed_of_some hmax hip] at hgone
      by_cases heq : ip = ip'
      · subst heq
        rw [AList.lookup_insert] at hgone
        cases hgone
      · rw [AList.lookup_insert_ne heq] at hgone
        rw [hgone] at hsome
        cases hsome
    | none =>
      have hne : ip ≠ ip' := fun heq => by
        rw [heq, hip] at hsome
        cases hsome
      rw [isAllowed_of_none hmax hip, AList.lookup_insert_ne hne, makeRoom] at hgone
      split at hgone
      · next hfull =>
        rw [lookup_evictLru] at hgone
        split at hgone
        · next hback => exact ⟨hmax, hip, hfull, hback⟩
        · rw [hgone] at hsome
          cases hsome
      · rw [hgone] at hsome
        cases hsome

/-- A call of `is_allowed` removes the record of a client. -/
def Forgets (l : RateLimiter) (op : LimiterOp) (ip : String) : Prop :=
  op.caller?.isSome ∧ (l.ipRecords.lookup ip).isSome ∧
    (step l op).2.ipRecords.lookup ip = none

instance (l : RateLimiter) (op : LimiterOp) (ip : String) : Decidable (l.Forgets op ip) :=
  inferInstanceAs (Decidable (_ ∧ _ ∧ _))

theorem forgets_iff_evicts (hinv : l.Inv) {op : LimiterOp} {ip : String} :
    l.Forgets op ip ↔ l.Evicts op ip := by
  cases op with
  | isAllowed ip' now pruned =>
    exact (and_iff_right rfl).trans (evicts_isAllowed_iff hinv).symm
  | getRemaining => exact iff_of_false (fun h => by cases h.1) id
  | cleanup => exact iff_of_false (fun h => by cases h.1) id

/-- The calls among the operations after which `ip` was called for a last time. -/
theorem exists_call {ops : List LimiterOp} {ip : String} {pre post : List String}
    (h : ops.filterMap caller? = pre ++ ip :: post) :
    ∃ pre' now pruned post', ops = pre' ++ .isAllowed ip now pruned :: post' ∧
      post'.filterMap caller? = post := by
  obtain ⟨pre', rest, rfl, -, hrest⟩ := List.filterMap_eq_append_iff.1 h
  obtain ⟨idle, op, post', rfl, -, hop, hpost⟩ := List.filterMap_eq_cons_iff.1 hrest
  cases op with
  | isAllowed ip' now pruned =>
    obtain rfl : ip' = ip := Option.some_inj.1 hop
    exact ⟨pre' ++ idle, now, pruned, post', (List.append_assoc _ _ _).symm, hpost⟩
  | getRemaining => cases hop
  | cleanup => cases hop

/-- What comes after the last call of `ip` comes after any call of `ip`. -/
theorem suffix_of_last_call {ip : String} {now pruned now' pruned' : TimePoint}
    {pre post pre' post' : List LimiterOp}
    (h : pre ++ .isAllowed ip now pruned :: post = pre' ++ .isAllowed ip now' pruned' :: post')
    (hlast : ∀ op ∈ post', op.caller? ≠ some ip) : post' <:+ post := by
  rcases List.append_eq_append_iff.1 h with ⟨between, -, hpost⟩ | ⟨between, -, hpost⟩
  · rcases List.cons_eq_append_iff.1 hpost with ⟨rfl, heq⟩ | ⟨between', rfl, rfl⟩
    · obtain ⟨-, rfl⟩ := List.cons_eq_cons.1 heq
      exact List.suffix_rfl
    · exact ⟨between' ++ [.isAllowed ip now' pruned'], by simp⟩
  · rcases List.cons_eq_append_iff.1 hpost with ⟨rfl, heq⟩ | ⟨between', rfl, rfl⟩
    · obtain ⟨-, rfl⟩ := List.cons_eq_cons.1 heq
      exact List.suffix_rfl
    · exact absurd rfl (hlast (.isAllowed ip now pruned)
        (List.mem_append_right _ List.mem_cons_self))

/-- A client that is forgotten has not called since as many others have as there are records. -/
theorem protected_of_forgets (maxRequests window : ℤ) (maxIpRecords : ℕ) {ops : List LimiterOp}
    {op : LimiterOp} {ip : String}
    (h : (step.run (new maxRequests window maxIpRecords) ops).Forgets op ip) :
    ∃ pre now pruned post, ops = pre ++ .isAllowed ip now pruned :: post ∧
      (∀ op' ∈ post, op'.caller? ≠ some ip) ∧
      maxIpRecords ≤ (otherIps ip (post ++ [op])).card := by
  have hinv := inv_run (inv_new maxRequests window maxIpRecords) ops
  cases op with
  | getRemaining => cases h.1
  | cleanup => cases h.1
  | isAllowed ip' now' pruned' =>
    obtain ⟨hmax, hnone, hfull, hback⟩ := (forgets_iff_evicts hinv).1 h
    obtain ⟨hmaxRequests, -, hmaxRecords⟩ := run_params (new maxRequests window maxIpRecords) ops
    rw [hmaxRequests] at hmax
    rw [hmaxRecords] at hfull
    have horder := inOrder_run hmax (inv_new maxRequests window maxIpRecords)
      (InOrder.empty []) ops
    obtain ⟨pre, post, hcalls, hpost, hlength⟩ := horder.length_of_back hback
    obtain ⟨pre', now, pruned, post', rfl, rfl⟩ := exists_call hcalls
    refine ⟨pre', now, pruned, post', rfl, fun op' hop' hcaller => hpost ?_, ?_⟩
    · exact List.mem_filterMap.2 ⟨op', hop', hcaller⟩
    set l := step.run (new maxRequests window maxIpRecords)
      (pre' ++ .isAllowed ip now pruned :: post')
    set listed := (post'.filterMap caller?).toFinset.filter fun ip => (l.ipRecords.lookup ip).isSome
    -- the new client has no record: it is not one of those that the list holds
    have hnew : ip' ∉ listed := fun hmem => by
      have hsome := (Finset.mem_filter.1 hmem).2
      rw [hnone] at hsome
      cases hsome
    have hne : ip ≠ ip' := fun heq => by
      obtain ⟨record, hrecord, -⟩ := hinv.lookup_back hback
      rw [heq, hnone] at hrecord
      cases hrecord
    have hsub : insert ip' listed ⊆ otherIps ip (post' ++ [.isAllowed ip' now' pruned']) := by
      intro k hk
      rw [otherIps, calledIps, Finset.mem_erase, List.mem_toFinset, List.filterMap_append,
        List.mem_append]
      rcases Finset.mem_insert.1 hk with rfl | hk
      · exact ⟨hne.symm, .inr List.mem_cons_self⟩
      · have hcalled := List.mem_toFinset.1 (Finset.mem_filter.1 hk).1
        exact ⟨fun heq => hpost (heq ▸ hcalled), .inl hcalled⟩
    have hcard := Finset.card_le_card hsub
    rw [Finset.card_insert_of_notMem hnew, ← hlength, Linked.length_values hinv] at hcard
    exact hfull.trans hcard

/-- A client that calls is not forgotten by `is_allowed` before as many others have called as the
    limiter keeps records of, whatever `cleanup` removes in between. -/
theorem lru_protection (maxRequests window : ℤ) (maxIpRecords : ℕ) :
    (∀ (ops : List LimiterOp) (op : LimiterOp) (ip : String),
      (step.run (new maxRequests window maxIpRecords) ops).Forgets op ip →
        ∃ pre now pruned post, ops = pre ++ .isAllowed ip now pruned :: post ∧
          (∀ op' ∈ post, op'.caller? ≠ some ip) ∧
          maxIpRecords ≤ (otherIps ip (post ++ [op])).card) ∧
    ∀ (pre : List LimiterOp) (ip : String) (now pruned : TimePoint) (post : List LimiterOp),
      (otherIps ip post).card < maxIpRecords →
        step.Along (fun l op => ¬l.Forgets op ip)
          (step.run (new maxRequests window maxIpRecords) (pre ++ [.isAllowed ip now pruned]))
          post := by
  refine ⟨fun ops op ip => protected_of_forgets maxRequests window maxIpRecords, ?_⟩
  intro pre ip now pruned post hfew
  refine Machine.along_of_split fun before op after hpost hforgets => ?_
  rw [← Machine.run_append] at hforgets
  obtain ⟨pre', now', pruned', post', hsplit, hlast, hmany⟩ :=
    protected_of_forgets maxRequests window maxIpRecords hforgets
  -- the last call of the client is the given one or a later one
  have hsuffix : post' <:+ before := by
    rw [List.append_assoc, List.singleton_append] at hsplit
    exact suffix_of_last_call hsplit hlast
  have hsub : otherIps ip (post' ++ [op]) ⊆ otherIps ip post := by
    obtain ⟨skipped, rfl⟩ := hsuffix
    refine Finset.erase_subset_erase _ fun k hk => ?_
    rw [calledIps, List.mem_toFinset, List.mem_filterMap] at hk ⊢
    obtain ⟨op', hop', hk⟩ := hk
    refine ⟨op', ?_, hk⟩
    rw [hpost]
    simp only [List.mem_append, List.mem_cons, List.not_mem_nil, or_false] at hop' ⊢
    tauto
  exact absurd (hmany.trans (Finset.card_le_card hsub)) (not_le.2 hfew)

/-- Two clients, of which a limiter of two records keeps the one that calls last. -/
def twoClients : List LimiterOp := [.isAllowed "a" 0 0, .isAllowed "b" 1 1]

theorem lru_protection_twoClients :
    (∃ pre now pruned post, twoClients = pre ++ .isAllowed "a" now pruned :: post ∧
      (∀ op' ∈ post, op'.caller? ≠ some "a") ∧
      2 ≤ (otherIps "a" (post ++ [.isAllowed "c" 2 2])).card) ∧
    step.Along (fun l op => ¬l.Forgets op "b") (step.run (new 5 60 2) twoClients)
      [.isAllowed "c" 2 2] :=
  ⟨(lru_protection 5 60 2).1 twoClients (.isAllowed "c" 2 2) "a" (by decide +kernel),
    (lru_protection 5 60 2).2 [.isAllowed "a" 0 0] "b" 1 1 [.isAllowed "c" 2 2]
      (by decide +kernel)⟩

end RateLimiter

end IpServer
