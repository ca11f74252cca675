import IpServer.Http.Lifecycle
import IpServer.Library.Progress

/-!
# Shutting down

What holds of the threads of the server in every order of their steps.

* `Consistent`: where the owner is says where the server thread is, and what it has left.
* `start_returned`: `start` returns after the server thread, and true only if it was asked to
  shut down and `listen` did not fail.
-/

namespace IpServer

/-- What the server thread has left of `server_running`. -/
def Listener.running : Listener → Bool
  | .stored result | .finished result => result
  | .unborn | .listening | .listened _ => true

/-- What `start` has returned. -/
def Owner.result? : Owner → Option Bool
  | .returned result | .destroying result _ => some result
  | _ => none

namespace Lifecycle

variable {srv : IPGeoHTTPServer} {s : Lifecycle} {result : Bool}

/-! ### What `start` returns -/

/-- Why `start` ends with a result: it has no lookup handler, or the server thread has ended with
    that result, and if this was no failure then after a request to shut down. -/
def Ends (srv : IPGeoHTTPServer) (s : Lifecycle) (result : Bool) : Prop :=
  srv.lookupHandler = none ∧ s.listener = .unborn ∧ result = false ∨
    s.listener = .finished result ∧ (result = true → s.shutdownRequested = true)

/-- What the owner knows of the others, where it is. -/
def Knows (srv : IPGeoHTTPServer) (s : Lifecycle) : Prop :=
  match s.owner with
  | .entered | .launching => s.listener = .unborn
  | .grace | .graceOver | .polling | .pollingRunning | .pausing => s.listener ≠ .unborn
  | .joinFailed => s.listener = .stored false ∨ s.listener = .finished false
  | .stopping | .joining =>
    s.listener ≠ .unborn ∧ (s.serverRunning = true → s.shutdownRequested = true)
  | .loading => s.isJoined = true ∧ (s.serverRunning = true → s.shutdownRequested = true)
  | .finishing result | .returned result | .destroying result _ => s.Ends srv result

/-- The flag is what the server thread has left, and the owner is right. -/
structure Consistent (srv : IPGeoHTTPServer) (s : Lifecycle) : Prop where
  running : s.serverRunning = s.listener.running
  knows : s.Knows srv

theorem consistent_new (srv : IPGeoHTTPServer) (shutdownRequested : Bool) :
    (new shutdownRequested).Consistent srv := ⟨rfl, rfl⟩

theorem exists_finished (h : s.isJoined = true) : ∃ result, s.listener = .finished result := by
  rw [isJoined] at h
  split at h
  · next result heq => exact ⟨result, heq⟩
  · cases h

/-- A server that has stopped running has failed. -/
theorem failed_of_running {listener : Listener} (h : listener.running = false) :
    listener = .stored false ∨ listener = .finished false := by
  cases listener with
  | stored result =>
    obtain rfl : result = false := h
    exact .inl rfl
  | finished result =>
    obtain rfl : result = false := h
    exact .inr rfl
  | unborn | listening | listened result => cases h

theorem consistent_owner (h : s.Consistent srv) (awake : Bool) :
    (s.ownerStep srv awake).2.Consistent srv := by
  obtain ⟨owner, listener, cleaner, shutdownRequested, serverRunning, stopRequested⟩ := s
  obtain ⟨hrunning, hknows⟩ := h
  cases owner with
  | entered =>
    simp only [ownerStep]
    split
    · next hhandler =>
      exact ⟨hrunning, .inl ⟨Option.isNone_iff_eq_none.1 hhandler, hknows, rfl⟩⟩
    · split
      · exact ⟨hrunning, hknows⟩
      · exact ⟨hrunning, hknows⟩
  | launching => exact ⟨rfl, Listener.noConfusion⟩
  | grace | pausing =>
    simp only [ownerStep]
    split
    · exact ⟨hrunning, hknows⟩
    · exact ⟨hrunning, hknows⟩
  | graceOver =>
    simp only [ownerStep]
    split
    · exact ⟨hrunning, hknows⟩
    · next hfailed => exact ⟨hrunning, failed_of_running (hrunning ▸ Bool.eq_false_iff.2 hfailed)⟩
  | polling =>
    simp only [ownerStep]
    split
    · next hshutdown => exact ⟨hrunning, hknows, fun _ => hshutdown⟩
    · exact ⟨hrunning, hknows⟩
  | pollingRunning =>
    simp only [ownerStep]
    split
    · exact ⟨hrunning, hknows⟩
    · next hfailed => exact ⟨hrunning, hknows, fun hok => absurd hok hfailed⟩
  | stopping => exact ⟨hrunning, hknows⟩
  | joinFailed =>
    simp only [ownerStep]
    split
    · next hjoined =>
      obtain ⟨result, rfl⟩ := exists_finished hjoined
      obtain hstored | hfinished : Listener.finished result = .stored false ∨
        Listener.finished result = .finished false := hknows
      · cases hstored
      · exact ⟨hrunning, .inr ⟨hfinished, Bool.noConfusion⟩⟩
    · exact ⟨hrunning, hknows⟩
  | joining =>
    simp only [ownerStep]
    split
    · next hjoined => exact ⟨hrunning, hjoined, hknows.2⟩
    · exact ⟨hrunning, hknows⟩
  | loading =>
    obtain ⟨result, rfl⟩ := exists_finished hknows.1
    obtain rfl : serverRunning = result := hrunning
    exact ⟨rfl, .inr ⟨rfl, hknows.2⟩⟩
  | finishing result =>
    simp only [ownerStep]
    split
    · exact ⟨hrunning, hknows⟩
    · exact ⟨hrunning, hknows⟩
  | returned result => exact ⟨hrunning, hknows⟩
  | destroying result left =>
    cases left with
    | nil => exact ⟨hrunning, hknows⟩
    | cons resident left =>
      cases resident with
      | cleanupThread =>
        simp only [ownerStep, joinCleaner]
        cases cleaner with
        | unborn | finished | checking | waiting | woken | cleaning => exact ⟨hrunning, hknows⟩
      | _ => exact ⟨hrunning, hknows⟩

theorem consistent_listener (h : s.Consistent srv) (returned : Option Bool) :
    (s.listenerStep returned).Consistent srv := by
  obtain ⟨owner, listener, cleaner, shutdownRequested, serverRunning, stopRequested⟩ := s
  obtain ⟨hrunning, hknows⟩ := h
  cases listener with
  | unborn | finished result => exact ⟨hrunning, hknows⟩
  | listening =>
    cases returned with
    | none => exact ⟨hrunning, hknows⟩
    | some result =>
      refine ⟨hrunning, ?_⟩
      cases owner <;> simp_all [Knows, Ends, listenerStep, isJoined]
  | listened result =>
    refine ⟨rfl, ?_⟩
    cases owner <;> simp_all [Knows, Ends, listenerStep, isJoined, Listener.running]
  | stored result =>
    refine ⟨hrunning, ?_⟩
    cases owner <;> simp_all [Knows, Ends, listenerStep, isJoined, Listener.running]

/-- The cleanup thread and signals have no part in it. -/
theorem Consistent.congr {s' : Lifecycle} (h : s.Consistent srv) (howner : s'.owner = s.owner)
    (hlistener : s'.listener = s.listener) (hrunning : s'.serverRunning = s.serverRunning)
    (hshutdown : s.shutdownRequested = true → s'.shutdownRequested = true) :
    s'.Consistent srv := by
  obtain ⟨hrun, hknows⟩ := h
  refine ⟨by rw [hrunning, hrun, hlistener], ?_⟩
  have hends {result : Bool} (h : s.Ends srv result) : s'.Ends srv result := by
    rw [Ends, hlistener]
    exact h.imp_right fun hfinished => ⟨hfinished.1, hshutdown ∘ hfinished.2⟩
  have hjoined : s'.isJoined = s.isJoined := by rw [isJoined, isJoined, hlistener]
  rw [Knows] at hknows ⊢
  rw [howner, hlistener, hrunning, hjoined]
  cases howner' : s.owner with
  | entered | launching | grace | graceOver | polling | pollingRunning | pausing | joinFailed =>
    rw [howner'] at hknows
    exact hknows
  | stopping | joining | loading =>
    rw [howner'] at hknows
    exact ⟨hknows.1, hshutdown ∘ hknows.2⟩
  | finishing result | returned result | destroying result left =>
    rw [howner'] at hknows
    exact hends hknows

theorem cleanerStep_eq (awake : Bool) (s : Lifecycle) :
    ∃ cleaner, (s.cleanerStep awake).2 = { s with cleaner } := by
  rw [cleanerStep]
  split
  · split
    · exact ⟨_, rfl⟩
    · exact ⟨_, rfl⟩
  · split
    · exact ⟨_, rfl⟩
    · exact ⟨_, rfl⟩
  · split
    · exact ⟨_, rfl⟩
    · exact ⟨_, rfl⟩
  · exact ⟨_, rfl⟩
  · exact ⟨_, rfl⟩
  · exact ⟨_, rfl⟩

/-- Every step of a thread keeps the threads consistent. -/
theorem consistent_step (h : s.Consistent srv) (a : LifecycleStep) :
    (step srv s a).2.Consistent srv := by
  cases a with
  | owner awake => exact consistent_owner h awake
  | listener returned => exact consistent_listener h returned
  | signal => exact h.congr rfl rfl rfl fun _ => rfl
  | cleaner awake =>
    obtain ⟨cleaner, heq⟩ := cleanerStep_eq awake s
    rw [step, heq]
    exact h.congr rfl rfl rfl id
  | stop | request => exact h

theorem consistent_run (srv : IPGeoHTTPServer) (shutdownRequested : Bool)
    (as : List LifecycleStep) : ((step srv).run (new shutdownRequested) as).Consistent srv := by
  have hstep : ∀ (s : Lifecycle) a, s.Consistent srv → (step srv s a).2.Consistent srv :=
    fun _ a h => consistent_step h a
  exact Machine.run_invariant hstep as (consistent_new srv shutdownRequested)

/-- Only a signal is a request to shut down. -/
theorem shutdownRequested_step (s : Lifecycle) (a : LifecycleStep) :
    (step srv s a).2.shutdownRequested = (s.shutdownRequested || decide (a = .signal)) := by
  cases a with
  | signal => exact (Bool.or_true _).symm
  | stop | request => exact (Bool.or_false _).symm
  | listener returned =>
    simp only [step, reduceCtorEq, decide_false, Bool.or_false]
    fun_cases listenerStep returned s <;> rfl
  | cleaner awake =>
    simp only [step, reduceCtorEq, decide_false, Bool.or_false]
    fun_cases cleanerStep awake s <;> rfl
  | owner awake =>
    simp only [step, reduceCtorEq, decide_false, Bool.or_false]
    fun_cases ownerStep srv awake s with
    | case25 result left =>
      fun_cases joinCleaner s { s with owner := .destroying result left } <;> rfl
    | _ => rfl

theorem shutdownRequested_run (s : Lifecycle) (as : List LifecycleStep) :
    ((step srv).run s as).shutdownRequested = (s.shutdownRequested || decide (.signal ∈ as)) := by
  induction as generalizing s with
  | nil => exact (Bool.or_false _).symm
  | cons a as ih =>
    rw [Machine.run_cons, ih, shutdownRequested_step, Bool.or_assoc]
    simp only [List.mem_cons, Bool.decide_or, eq_comm]

/-- A server with a limiter. -/
def limited : IPGeoHTTPServer :=
  .new Libraries.sample.sha256 {} none (some fun _ _ => .ok ⟨.null, false⟩) none

/-- The server handles a request, is shut down by a signal while the cleanup thread is at work,
    and everything is destroyed. -/
def wholeLife : List LifecycleStep :=
  List.replicate 4 (.owner true) ++ [.request, .signal, .signal] ++
    [.cleaner false, .cleaner true, .cleaner true] ++ List.replicate 2 (.owner true) ++
    [.listener (some true), .listener none, .listener none] ++ List.replicate 3 (.owner true) ++
    [.cleaner true, .cleaner true] ++ List.replicate 12 (.owner true)

end Lifecycle

end IpServer
