import IpServer.Http.Shutdown

/-!
# Lifetimes

What the threads of the server use is there, in every order of their steps (`Lifecycle.safe_run`):
the cleanup thread is joined before anything is destroyed, and the server thread before that, and
with it all handling of requests.

* `ownerStep_destroying`: what the owner does at the end.
* `TornDown`, `Orderly`: what is destroyed is destroyed after the cleanup thread.
* `destroyed_run`: everything is destroyed once, in the reverse order of its construction.
-/

namespace IpServer.Lifecycle

variable {srv : IPGeoHTTPServer} {s : Lifecycle} {result : Bool}

/-! ### What the threads use -/

/-- What the threads have done along a run. -/
def log (srv : IPGeoHTTPServer) (s : Lifecycle) (as : List LifecycleStep) : List LifecycleEvent :=
  (step srv).emitted (fun s a => (step srv s a).1) s as

/-- The cleanup thread has been joined, and destroyed. -/
def TornDown (s : Lifecycle) : Prop :=
  ∃ result left, s.owner = .destroying result left ∧ .cleanupThread ∉ left ∧
    (s.cleaner = .unborn ∨ s.cleaner = .finished)

/-- The cleanup thread is the first to be destroyed. -/
def Orderly (s : Lifecycle) : Prop :=
  ∀ result left, s.owner = .destroying result left →
    left = Resident.constructed.reverse ∨ s.TornDown

theorem constructed_reverse : ∃ left, Resident.constructed.reverse = .cleanupThread :: left ∧
    .cleanupThread ∉ left := ⟨_, rfl, by decide⟩

/-- The next resident is destroyed, unless it is the cleanup thread and still runs: then it is asked
    to stop. -/
theorem ownerStep_destroying {first : Resident} {left : List Resident}
    (h : s.owner = .destroying result (first :: left)) (awake : Bool) :
    ((first = .cleanupThread → s.cleaner = .unborn ∨ s.cleaner = .finished) ∧ ∃ stopRequested,
      (s.stopRequested = true → stopRequested = true) ∧ s.ownerStep srv awake =
        ([.destroyed first], { s with owner := .destroying result left, stopRequested })) ∨
    (first = .cleanupThread ∧ s.cleaner ≠ .unborn ∧ s.cleaner ≠ .finished ∧
      s.ownerStep srv awake = ([], { s with stopRequested := true })) := by
  by_cases hfirst : first = .cleanupThread
  · subst hfirst
    have hstep : s.ownerStep srv awake =
        s.joinCleaner { s with owner := .destroying result left } := by
      rw [ownerStep.eq_def, h]
    rw [hstep, joinCleaner]
    cases s.cleaner with
    | unborn => exact .inl ⟨fun _ => .inl rfl, _, id, rfl⟩
    | finished => exact .inl ⟨fun _ => .inr rfl, _, fun _ => rfl, rfl⟩
    | checking | waiting | woken | cleaning =>
      exact .inr ⟨rfl, Cleaner.noConfusion, Cleaner.noConfusion, rfl⟩
  · refine .inl ⟨fun heq => absurd heq hfirst, s.stopRequested, id, ?_⟩
    rw [ownerStep.eq_def, h]
    cases first with
    | cleanupThread => exact absurd rfl hfirst
    | _ => rfl

/-- Before that, nothing is destroyed, and then everything is to be. -/
theorem ownerStep_of_not_destroying (h : ∀ result left, s.owner ≠ .destroying result left)
    (awake : Bool) : (∀ resident, .destroyed resident ∉ (s.ownerStep srv awake).1) ∧
      ∀ result left, (s.ownerStep srv awake).2.owner = .destroying result left →
        left = Resident.constructed.reverse := by
  fun_cases ownerStep srv awake s <;> simp_all

/-- What a cleanup thread does that is no more. -/
theorem cleanerStep_of_done (h : s.cleaner = .unborn ∨ s.cleaner = .finished) (awake : Bool) :
    s.cleanerStep awake = ([], s) := by
  rcases h with h | h
  · rw [cleanerStep, h]
  · rw [cleanerStep, h]

/-- Only the owner moves on, and destroys. -/
theorem step_of_not_owner {a : LifecycleStep} (h : ∀ awake, a ≠ .owner awake) :
    (step srv s a).2.owner = s.owner ∧
      ∀ resident, .destroyed resident ∉ (step srv s a).1 := by
  cases a with
  | owner awake => exact absurd rfl (h awake)
  | signal =>
    rw [step]
    split
    · exact ⟨rfl, fun _ => List.not_mem_nil⟩
    · exact ⟨rfl, by simp⟩
  | listener returned =>
    rw [step]
    refine ⟨?_, fun _ => List.not_mem_nil⟩
    fun_cases listenerStep returned s <;> rfl
  | cleaner awake =>
    rw [step]
    fun_cases cleanerStep awake s <;> simp
  | stop | request => simp [step]

/-- What has been torn down stays so. -/
theorem tornDown_step (h : s.TornDown) (a : LifecycleStep) : (step srv s a).2.TornDown := by
  obtain ⟨result, left, howner, hleft, hcleaner⟩ := h
  cases a with
  | signal | stop | request => exact ⟨result, left, howner, hleft, hcleaner⟩
  | listener returned =>
    have hcleaner' : (s.listenerStep returned).cleaner = s.cleaner := by
      fun_cases listenerStep returned s <;> rfl
    have howner' :=
      (@step_of_not_owner srv s (.listener returned) fun _ => LifecycleStep.noConfusion).1
    exact ⟨result, left, howner'.trans howner, hleft, by rwa [step, hcleaner']⟩
  | cleaner awake =>
    rw [step, cleanerStep_of_done hcleaner]
    exact ⟨result, left, howner, hleft, hcleaner⟩
  | owner awake =>
    rw [step]
    cases left with
    | nil =>
      rw [ownerStep.eq_def, howner]
      exact ⟨result, [], howner, hleft, hcleaner⟩
    | cons first left =>
      rw [List.mem_cons, not_or] at hleft
      obtain ⟨-, stopRequested, -, hstep⟩ | ⟨rfl, -⟩ :=
        @ownerStep_destroying srv _ _ _ _ howner awake
      · rw [hstep]
        exact ⟨result, left, rfl, hleft.2, hcleaner⟩
      · exact absurd rfl hleft.1

/-- What is destroyed is destroyed after the cleanup thread. -/
theorem orderly_step (h : s.Orderly) (a : LifecycleStep) : (step srv s a).2.Orderly ∧
    ∀ resident, .destroyed resident ∈ (step srv s a).1 → (step srv s a).2.TornDown := by
  by_cases howns : ∃ awake, a = .owner awake
  · obtain ⟨awake, rfl⟩ := howns
    by_cases hdestroying : ∃ result left, s.owner = .destroying result left
    · obtain ⟨result, left, howner⟩ := hdestroying
      rcases h result left howner with rfl | htorn
      · -- the cleanup thread is next
        obtain ⟨left, hreverse, hleft⟩ := constructed_reverse
        rw [hreverse] at howner
        rw [step]
        obtain ⟨hdone, stopRequested, -, hstep⟩ | ⟨-, -, -, hstep⟩ :=
          @ownerStep_destroying srv _ _ _ _ howner awake
        · have htorn : (s.ownerStep srv awake).2.TornDown := by
            rw [hstep]
            exact ⟨result, left, rfl, hleft, hdone rfl⟩
          exact ⟨fun _ _ _ => .inr htorn, fun _ _ => htorn⟩
        · rw [hstep]
          exact ⟨h, fun _ hmem => absurd hmem List.not_mem_nil⟩
      · have htorn' := @tornDown_step srv s htorn (.owner awake)
        exact ⟨fun _ _ _ => .inr htorn', fun _ _ => htorn'⟩
    · have hnot : ∀ result left, s.owner ≠ .destroying result left := fun result left howner =>
        hdestroying ⟨result, left, howner⟩
      obtain ⟨hevents, hleft⟩ := @ownerStep_of_not_destroying srv s hnot awake
      exact ⟨fun result left howner => .inl (hleft result left howner),
        fun resident hmem => absurd hmem (hevents resident)⟩
  · obtain ⟨howner, hevents⟩ := @step_of_not_owner srv s a fun awake heq => howns ⟨awake, heq⟩
    refine ⟨fun result left howner' => ?_, fun resident hmem => absurd hmem (hevents resident)⟩
    exact (h result left (howner ▸ howner')).imp_right fun htorn => tornDown_step htorn a

theorem orderly_new (shutdownRequested : Bool) : (new shutdownRequested).Orderly :=
  fun _ _ howner => Owner.noConfusion howner

/-- Once something has been destroyed, the cleanup thread is no more. -/
theorem tornDown_of_log (h : s.Orderly) {as : List LifecycleStep} {resident : Resident}
    (hmem : .destroyed resident ∈ log srv s as) : ((step srv).run s as).TornDown := by
  induction as generalizing s with
  | nil => exact absurd hmem List.not_mem_nil
  | cons a as ih =>
    obtain ⟨horderly, htorn⟩ := @orderly_step srv s h a
    rw [log, Machine.emitted_cons, List.mem_append] at hmem
    rcases hmem with hmem | hmem
    · have hstep : ∀ (s : Lifecycle) a, s.TornDown → (step srv s a).2.TornDown :=
        fun _ a h => tornDown_step h a
      exact Machine.run_invariant hstep as (htorn resident hmem)
    · exact ih horderly hmem

/-- A step does one thing at most. -/
theorem length_events_le (s : Lifecycle) (a : LifecycleStep) : (step srv s a).1.length ≤ 1 := by
  cases a with
  | signal =>
    rw [step]
    split <;> simp
  | stop | request => exact le_rfl
  | listener returned => exact Nat.zero_le _
  | cleaner awake =>
    rw [step]
    fun_cases cleanerStep awake s <;> simp
  | owner awake =>
    rw [step]
    fun_cases ownerStep srv awake s with
    | case25 result left =>
      fun_cases joinCleaner s { s with owner := .destroying result left } <;> simp
    | _ => simp

/-- Only the cleanup thread cleans up, and the owner neither handles requests nor reports
    signals. -/
theorem ownerStep_events (awake : Bool) (s : Lifecycle) : ∀ event ∈ (s.ownerStep srv awake).1,
    event = .stopped ∨ ∃ resident, event = .destroyed resident := by
  fun_cases ownerStep srv awake s with
  | case25 result left =>
    fun_cases joinCleaner s { s with owner := .destroying result left } <;> simp
  | _ => simp

theorem cleanerStep_events (awake : Bool) (s : Lifecycle) :
    ∀ event ∈ (s.cleanerStep awake).1, event = .cleanup ∧ s.cleaner = .cleaning := by
  fun_cases cleanerStep awake s <;> simp_all

/-- What has been torn down is not used, if requests are handled while `listen` is running. -/
theorem not_used_of_tornDown (h : s.TornDown) (hconsistent : s.Consistent srv)
    {a : LifecycleStep} (hserving : a = .request → s.listener = .listening)
    {event : LifecycleEvent} (hmem : event ∈ (step srv s a).1) :
    event ≠ .cleanup ∧ event ≠ .request := by
  obtain ⟨result, left, howner, -, hcleaner⟩ := h
  cases a with
  | signal =>
    rw [step] at hmem
    split at hmem
    · cases hmem
    · obtain rfl := List.mem_singleton.1 hmem
      exact ⟨LifecycleEvent.noConfusion, LifecycleEvent.noConfusion⟩
  | stop =>
    obtain rfl := List.mem_singleton.1 hmem
    exact ⟨LifecycleEvent.noConfusion, LifecycleEvent.noConfusion⟩
  | listener returned => cases hmem
  | cleaner awake =>
    rw [step, cleanerStep_of_done hcleaner] at hmem
    cases hmem
  | owner awake =>
    obtain rfl | ⟨resident, rfl⟩ := ownerStep_events awake s event hmem
    · exact ⟨LifecycleEvent.noConfusion, LifecycleEvent.noConfusion⟩
    · exact ⟨LifecycleEvent.noConfusion, LifecycleEvent.noConfusion⟩
  | request =>
    -- the server thread has ended before anything was destroyed
    have hends : s.Ends srv result := by
      have hknows := hconsistent.knows
      rwa [Knows, howner] at hknows
    rw [Ends, hserving rfl] at hends
    rcases hends with ⟨-, hunborn, -⟩ | ⟨hfinished, -⟩
    · cases hunborn
    · cases hfinished

theorem count_cleanup_ownerStep (awake : Bool) (s : Lifecycle) :
    (s.ownerStep srv awake).1.count .cleanup = 0 := by
  refine List.count_eq_zero.2 fun hmem => ?_
  obtain hstopped | ⟨resident, hdestroyed⟩ := ownerStep_events awake s _ hmem
  · cases hstopped
  · cases hdestroyed

/-- The owner starts the cleanup thread, and asks it to stop. -/
theorem ownerStep_cleaner (awake : Bool) (s : Lifecycle) :
    ((s.ownerStep srv awake).2.cleaner = s.cleaner ∨
      srv.enableRateLimiter = true ∧ (s.ownerStep srv awake).2.cleaner = .checking) ∧
    (s.stopRequested = true → (s.ownerStep srv awake).2.stopRequested = true) := by
  fun_cases ownerStep srv awake s with
  | case25 result left =>
    fun_cases joinCleaner s { s with owner := .destroying result left } <;> simp
  | _ => simp_all

/-- A cleanup thread that has been asked to stop checks that before it cleans up. -/
theorem count_cleanup_step (h : s.stopRequested = true) (a : LifecycleStep) :
    (step srv s a).2.stopRequested = true ∧
      (step srv s a).1.count .cleanup + (if (step srv s a).2.cleaner = .cleaning then 1 else 0) ≤
        if s.cleaner = .cleaning then 1 else 0 := by
  cases a with
  | signal =>
    rw [step]
    refine ⟨h, ?_⟩
    split <;> simp
  | stop | request => exact ⟨h, (Nat.zero_add _).le⟩
  | listener returned =>
    rw [step]
    fun_cases listenerStep returned s <;> exact ⟨h, (Nat.zero_add _).le⟩
  | cleaner awake =>
    rw [step]
    fun_cases cleanerStep awake s <;> simp_all
  | owner awake =>
    obtain ⟨hcleaner, hstop⟩ := @ownerStep_cleaner srv awake s
    refine ⟨hstop h, ?_⟩
    rw [step, count_cleanup_ownerStep, Nat.zero_add]
    rcases hcleaner with hsame | ⟨-, hchecking⟩
    · rw [hsame]
    · rw [hchecking]
      exact Nat.zero_le _

/-- A cleanup thread that has been asked to stop does not clean up again, unless it is about to. -/
theorem count_cleanup_le (h : s.stopRequested = true) (as : List LifecycleStep) :
    (log srv s as).count .cleanup ≤ if s.cleaner = .cleaning then 1 else 0 := by
  induction as generalizing s with
  | nil => exact Nat.zero_le _
  | cons a as ih =>
    obtain ⟨hstop, hcount⟩ := @count_cleanup_step srv s h a
    rw [log, Machine.emitted_cons, List.count_append]
    exact (Nat.add_le_add_left (ih hstop) _).trans hcount

/-- There is a cleanup thread only if there is a limiter. -/
theorem limiter_of_cleaner (as : List LifecycleStep) (shutdownRequested : Bool)
    (h : ((step srv).run (new shutdownRequested) as).cleaner ≠ .unborn) :
    srv.enableRateLimiter = true := by
  have hstep : ∀ (s : Lifecycle) a, (s.cleaner ≠ .unborn → srv.enableRateLimiter = true) →
      (step srv s a).2.cleaner ≠ .unborn → srv.enableRateLimiter = true := by
    intro s a hs
    cases a with
    | signal | stop | request => exact hs
    | listener returned =>
      rw [step]
      fun_cases listenerStep returned s <;> exact hs
    | cleaner awake =>
      rw [step]
      fun_cases cleanerStep awake s <;> simp_all
    | owner awake =>
      obtain ⟨hsame | ⟨hlimiter, -⟩, -⟩ := @ownerStep_cleaner srv awake s
      · rw [step, hsame]
        exact hs
      · exact fun _ => hlimiter
  exact Machine.run_invariant hstep as (fun hnew => absurd rfl hnew) h

theorem logged_notMem {a : LifecycleStep} (h : a ≠ .signal) : .logged ∉ (step srv s a).1 := by
  cases a with
  | signal => exact absurd rfl h
  | stop | request => simp [step]
  | listener returned => exact List.not_mem_nil
  | cleaner awake => exact fun hmem => by cases (cleanerStep_events awake s _ hmem).1
  | owner awake =>
    intro hmem
    obtain hstopped | ⟨resident, hdestroyed⟩ := ownerStep_events awake s _ hmem
    · cases hstopped
    · cases hdestroyed

/-- Only the first signal is reported. -/
theorem count_logged (s : Lifecycle) (as : List LifecycleStep) : (log srv s as).count .logged =
    if s.shutdownRequested = false ∧ .signal ∈ as then 1 else 0 := by
  induction as generalizing s with
  | nil =>
    rw [if_neg fun h => List.not_mem_nil h.2]
    rfl
  | cons a as ih =>
    have hrest := ih (step srv s a).2
    rw [shutdownRequested_step] at hrest
    rw [log, Machine.emitted_cons, List.count_append]
    rw [log] at hrest
    rw [hrest]
    by_cases hsignal : a = .signal
    · subst hsignal
      cases hshutdown : s.shutdownRequested with
      | true => simp [step, hshutdown]
      | false => simp [step, hshutdown]
    · rw [List.count_eq_zero.2 (logged_notMem hsignal)]
      simp [hsignal, Ne.symm hsignal]

/-! ### What is destroyed -/

/-- What has been destroyed along a run, in order. -/
def destroyed (events : List LifecycleEvent) : List Resident :=
  events.filterMap fun event =>
    match event with
    | .destroyed resident => some resident
    | _ => none

theorem destroyed_eq_nil {events : List LifecycleEvent}
    (h : ∀ resident, .destroyed resident ∉ events) : destroyed events = [] := by
  refine List.filterMap_eq_nil_iff.2 fun event hevent => ?_
  cases event with
  | destroyed resident => exact absurd hevent (h resident)
  | logged | stopped | cleanup | request => rfl

/-- What is still to be destroyed. -/
def remaining (s : Lifecycle) : List Resident :=
  match s.owner with
  | .destroying _ left => left
  | _ => Resident.constructed.reverse

theorem remaining_of_destroying {left : List Resident} (h : s.owner = .destroying result left) :
    s.remaining = left := by
  rw [remaining, h]

theorem remaining_of_not_destroying (h : ∀ result left, s.owner ≠ .destroying result left) :
    s.remaining = Resident.constructed.reverse := by
  rw [remaining]
  split
  · next result left howner => exact absurd howner (h result left)
  · rfl

theorem remaining_congr {s' : Lifecycle} (h : s'.owner = s.owner) : s'.remaining = s.remaining := by
  rw [remaining, remaining, h]

/-- A step destroys what it takes off what remains. -/
theorem destroyed_step (s : Lifecycle) (a : LifecycleStep) :
    destroyed (step srv s a).1 ++ (step srv s a).2.remaining = s.remaining := by
  by_cases howns : ∃ awake, a = .owner awake
  · obtain ⟨awake, rfl⟩ := howns
    rw [step]
    by_cases hdestroying : ∃ result left, s.owner = .destroying result left
    · obtain ⟨result, left, howner⟩ := hdestroying
      rw [remaining_of_destroying howner]
      cases left with
      | nil => rw [ownerStep.eq_def, howner]; exact remaining_of_destroying howner
      | cons first left =>
        obtain ⟨-, stopRequested, -, hstep⟩ | ⟨-, -, -, hstep⟩ :=
          @ownerStep_destroying srv _ _ _ _ howner awake
        · rw [hstep]
          rfl
        · rw [hstep]
          exact remaining_of_destroying howner
    · have hnot : ∀ result left, s.owner ≠ .destroying result left := fun result left howner =>
        hdestroying ⟨result, left, howner⟩
      obtain ⟨hevents, hleft⟩ := @ownerStep_of_not_destroying srv s hnot awake
      rw [destroyed_eq_nil hevents, List.nil_append, remaining_of_not_destroying hnot, remaining]
      split
      · next result left howner => exact hleft result left howner
      · rfl
  · obtain ⟨howner, hevents⟩ := @step_of_not_owner srv s a fun awake heq => howns ⟨awake, heq⟩
    rw [destroyed_eq_nil hevents]
    exact remaining_congr howner

/-- Everything is destroyed once, in the reverse order of its construction. -/
theorem destroyed_run (s : Lifecycle) (as : List LifecycleStep) :
    destroyed (log srv s as) ++ ((step srv).run s as).remaining = s.remaining := by
  induction as generalizing s with
  | nil => rfl
  | cons a as ih =>
    rw [log, Machine.emitted_cons, destroyed, List.filterMap_append, List.append_assoc]
    exact (congrArg _ (ih _)).trans (destroyed_step s a)

/-! ### No use after the end -/

/-- What the threads of the server guarantee, whatever the order of their steps. -/
structure Safe (srv : IPGeoHTTPServer) (shutdownRequested : Bool) (as : List LifecycleStep) :
    Prop where
  /-- everything is destroyed once, in the reverse order of its construction -/
  reversed : destroyed (log srv (new shutdownRequested) as) ++
    ((step srv).run (new shutdownRequested) as).remaining = Resident.constructed.reverse
  /-- the limiter is there when it is cleaned up -/
  limiter : .cleanup ∈ log srv (new shutdownRequested) as → srv.enableRateLimiter = true
  /-- the limiter is not cleaned up, and no request handled, after anything has been destroyed -/
  alive : ∀ pre event post, log srv (new shutdownRequested) as = pre ++ event :: post →
    event = .cleanup ∨ event = .request → ∀ resident, .destroyed resident ∉ pre
  /-- once asked to stop, the cleanup thread cleans up once more at most -/
  stops : ∀ pre post, as = pre ++ post →
    ((step srv).run (new shutdownRequested) pre).stopRequested = true →
      (log srv ((step srv).run (new shutdownRequested) pre) post).count .cleanup ≤ 1
  /-- only the first signal is reported -/
  logged : (log srv (new shutdownRequested) as).count .logged =
    if shutdownRequested = false ∧ .signal ∈ as then 1 else 0

/-- What a step does is the first thing it does. -/
theorem eq_nil_of_events {a : LifecycleStep} {us vs : List LifecycleEvent} {event : LifecycleEvent}
    (h : (step srv s a).1 = us ++ event :: vs) : us = [] := by
  have hlength := @length_events_le srv s a
  rw [h, List.length_append, List.length_cons] at hlength
  exact List.eq_nil_of_length_eq_zero (by omega)

/-- Only a cleanup thread cleans up. -/
theorem cleaning_of_cleanup {a : LifecycleStep} (h : .cleanup ∈ (step srv s a).1) :
    s.cleaner = .cleaning := by
  cases a with
  | signal =>
    rw [step] at h
    split at h <;> simp at h
  | stop | request => simp [step] at h
  | listener returned => exact absurd h List.not_mem_nil
  | cleaner awake => exact (cleanerStep_events awake s _ h).2
  | owner awake =>
    obtain hstopped | ⟨resident, hdestroyed⟩ := ownerStep_events awake s _ h
    · cases hstopped
    · cases hdestroyed

/-- If requests are handled only while `listen` is running, the threads of the server are safe. -/
theorem safe_run (srv : IPGeoHTTPServer) (shutdownRequested : Bool) (as : List LifecycleStep)
    (hserving : (step srv).Along (fun s a => a = .request → s.listener = .listening)
      (new shutdownRequested) as) : Safe srv shutdownRequested as where
  reversed := destroyed_run _ _
  limiter := by
    intro hmem
    obtain ⟨before, a, after, rfl, hstep⟩ := Machine.exists_of_mem_emitted _ hmem
    have hcleaning := cleaning_of_cleanup hstep
    refine limiter_of_cleaner before shutdownRequested fun hunborn => ?_
    rw [hunborn] at hcleaning
    cases hcleaning
  alive := by
    intro pre event post hsplit hevent resident hmem
    obtain ⟨before, a, after, us, vs, rfl, hstep, rfl, -⟩ :=
      Machine.exists_of_emitted_eq _ hsplit
    rw [eq_nil_of_events hstep, List.append_nil] at hmem
    have htorn := tornDown_of_log (orderly_new shutdownRequested) hmem
    obtain ⟨hcleanup, hrequest⟩ := not_used_of_tornDown htorn
      (consistent_run srv shutdownRequested before) hserving.at
      (hstep ▸ List.mem_append_right us List.mem_cons_self)
    exact hevent.elim hcleanup hrequest
  stops := by
    intro pre post _ hstop
    refine (count_cleanup_le hstop post).trans ?_
    split
    · exact le_rfl
    · exact Nat.zero_le 1
  logged := count_logged _ _

theorem safe_wholeLife : Safe limited false wholeLife ∧
    ((step limited).run (new false) wholeLife).remaining = [] :=
  ⟨safe_run limited false wholeLife (by decide +kernel), by decide +kernel⟩

end IpServer.Lifecycle
