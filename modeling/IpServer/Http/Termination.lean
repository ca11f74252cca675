import IpServer.Http.Lifetimes
import IpServer.Library.Progress

/-!
# Termination

Once it is asked to shut down, the application ends: `start` returns, and everything is destroyed
(`Lifecycle.terminates`). No order of the threads is assumed but that each gets its turn again and
again; and of the HTTP library, that `listen` returns after `stop`, also after one that comes
before it runs (`Obliging`).

The rank counts the steps that are left to the owner, the server thread and the cleanup thread. The
steps that help (`Helps`) are those of the owner, unless it waits to join another thread.
-/

namespace IpServer.Lifecycle

variable {srv : IPGeoHTTPServer} {s : Lifecycle}

/-- Everything has been destroyed. -/
def Ended (s : Lifecycle) : Prop := ∃ result, s.owner = .destroying result []

/-- The owner waits for the server thread. -/
def AwaitsListener (s : Lifecycle) : Prop :=
  (s.owner = .joinFailed ∨ s.owner = .joining) ∧ s.isJoined = false

/-- The owner waits for the cleanup thread. -/
def AwaitsCleaner (s : Lifecycle) : Prop :=
  (∃ result left, s.owner = .destroying result (.cleanupThread :: left)) ∧
    s.stopRequested = true ∧ s.cleaner ≠ .unborn ∧ s.cleaner ≠ .finished

/-- The steps of the thread that the owner waits for help, or else its own. -/
def Helps (s : Lifecycle) (a : LifecycleStep) : Prop :=
  (s.AwaitsListener → ∃ returned, a = .listener returned) ∧
    (s.AwaitsCleaner → ∃ awake, a = .cleaner awake) ∧
    (¬s.AwaitsListener → ¬s.AwaitsCleaner → a = .owner true)

/-- After `server_.stop()`, `listen` returns. This is more than the HTTP library gives: a `stop`
    that comes before the server thread has got as far as running `listen` does nothing, and
    `listen` may then run for ever. Here it is assumed of such a `stop` as well. -/
def Obliging (s : Lifecycle) (a : LifecycleStep) : Prop :=
  s.owner = .joining → s.listener = .listening → a ≠ .listener none

instance (s : Lifecycle) (a : LifecycleStep) : Decidable (Obliging s a) :=
  inferInstanceAs (Decidable (_ → _ → _))

/-- The steps that are left to the owner. -/
def ownerRank : Owner → ℕ
  | .entered => 34
  | .launching => 26
  | .grace => 21
  | .graceOver => 20
  | .pollingRunning => 19
  | .pausing => 18
  | .polling => 17
  | .stopping => 16
  | .joining | .joinFailed => 15
  | .loading => 14
  | .finishing _ => 13
  | .returned _ => 12
  | .destroying _ left => left.length

def listenerRank : Listener → ℕ
  | .unborn => 4
  | .listening => 3
  | .listened _ => 2
  | .stored _ => 1
  | .finished _ => 0

/-- Those of the cleanup thread, once it has been asked to stop. -/
def cleanerRank : Cleaner → ℕ
  | .waiting => 3
  | .woken | .cleaning => 2
  | .checking => 1
  | .unborn | .finished => 0

def cleanerLeft (s : Lifecycle) : ℕ :=
  if s.stopRequested = true then cleanerRank s.cleaner else 4

/-- The steps that are left. -/
def rank (s : Lifecycle) : ℕ := ownerRank s.owner + listenerRank s.listener + s.cleanerLeft

theorem cleanerRank_lt (cleaner : Cleaner) : cleanerRank cleaner < 4 := by
  cases cleaner <;> decide

theorem cleanerLeft_le (s : Lifecycle) : s.cleanerLeft ≤ 4 := by
  rw [cleanerLeft]
  split
  · exact (cleanerRank_lt s.cleaner).le
  · exact le_rfl

/-- Asking the cleanup thread to stop does not lengthen what is left to it. -/
theorem cleanerLeft_stop (s : Lifecycle) (owner : Owner) (stopRequested : Bool)
    (h : s.stopRequested = true → stopRequested = true) :
    ({ s with owner, stopRequested } : Lifecycle).cleanerLeft ≤ s.cleanerLeft := by
  cases hstop : s.stopRequested with
  | true =>
    obtain rfl := h hstop
    rw [cleanerLeft, cleanerLeft, hstop]
  | false =>
    have hle := cleanerLeft_le { s with owner, stopRequested }
    rwa [cleanerLeft.eq_def s, hstop]

/-- Where the owner moves on, and at most asks the cleanup thread to stop, the rank falls. -/
theorem rank_lt (s : Lifecycle) (owner : Owner) (stopRequested : Bool)
    (hlt : ownerRank owner < ownerRank s.owner)
    (hstop : s.stopRequested = true → stopRequested = true) :
    ({ s with owner, stopRequested } : Lifecycle).rank < s.rank := by
  have hcleaner := cleanerLeft_stop s owner stopRequested hstop
  rw [rank, rank]
  dsimp only
  omega

/-- A step of the owner lowers the rank, or changes nothing: it does not help only if the owner
    waits. -/
theorem rank_ownerStep (h : s.shutdownRequested = true) (awake : Bool) :
    (s.ownerStep srv awake).2.rank < s.rank ∨
      (s.ownerStep srv awake).2 = s ∧
        (awake = true → s.Ended ∨ s.AwaitsListener ∨ s.AwaitsCleaner) := by
  -- where the owner alone moves on
  have hmove (owner : Owner) (hlt : ownerRank owner < ownerRank s.owner) :
      ({ s with owner } : Lifecycle).rank < s.rank := rank_lt s owner s.stopRequested hlt id
  have hleft := s.cleanerLeft_le
  cases howner : s.owner with
  | entered =>
    rw [howner] at hmove
    rw [ownerStep.eq_def, howner]
    dsimp only
    split
    · exact .inl (hmove _ (by decide))
    · split
      · have hleft' := cleanerLeft_le { s with owner := .launching, cleaner := .checking }
        left
        simp only [rank, ownerRank, howner]
        omega
      · exact .inl (hmove _ (by decide))
  | launching =>
    rw [ownerStep.eq_def, howner]
    have hleft' : ({ s with owner := .grace, listener := .listening, serverRunning := true } :
        Lifecycle).cleanerLeft = s.cleanerLeft := rfl
    left
    simp only [rank, ownerRank, listenerRank, howner]
    omega
  | grace =>
    rw [howner] at hmove
    rw [ownerStep.eq_def, howner]
    dsimp only
    split
    · exact .inl (hmove _ (by decide))
    · next hasleep =>
      refine .inr ⟨rfl, fun hawake => ?_⟩
      rw [hawake, Bool.true_or] at hasleep
      exact absurd rfl hasleep
  | graceOver | pollingRunning =>
    rw [howner] at hmove
    rw [ownerStep.eq_def, howner]
    dsimp only
    split
    · exact .inl (hmove _ (by decide))
    · exact .inl (hmove _ (by decide))
  | joinFailed =>
    rw [howner] at hmove
    rw [ownerStep.eq_def, howner]
    dsimp only
    split
    · exact .inl (hmove _ (by decide))
    · next hjoined =>
      exact .inr ⟨rfl, fun _ => .inr (.inl ⟨.inl howner, Bool.eq_false_iff.2 hjoined⟩)⟩
  | joining =>
    rw [howner] at hmove
    rw [ownerStep.eq_def, howner]
    dsimp only
    split
    · exact .inl (hmove _ (by decide))
    · next hjoined =>
      exact .inr ⟨rfl, fun _ => .inr (.inl ⟨.inr howner, Bool.eq_false_iff.2 hjoined⟩)⟩
  | polling =>
    rw [howner] at hmove
    rw [ownerStep.eq_def, howner]
    dsimp only
    rw [if_pos h]
    exact .inl (hmove _ (by decide))
  | pausing =>
    rw [howner] at hmove
    rw [ownerStep.eq_def, howner]
    dsimp only
    split
    · exact .inl (hmove _ (by decide))
    · next hasleep => exact .inr ⟨rfl, fun hawake => absurd hawake hasleep⟩
  | stopping =>
    rw [howner] at hmove
    rw [ownerStep.eq_def, howner]
    exact .inl (hmove _ (by decide))
  | loading =>
    rw [howner] at hmove
    rw [ownerStep.eq_def, howner]
    exact .inl (hmove _ (Nat.lt_succ_self 13))
  | returned result =>
    rw [howner] at hmove
    rw [ownerStep.eq_def, howner]
    exact .inl (hmove _ (Nat.lt_succ_self 11))
  | finishing result =>
    rw [howner] at hmove
    rw [ownerStep.eq_def, howner]
    dsimp only
    split
    · exact .inl (hmove _ (Nat.lt_succ_self 12))
    · refine .inl (rank_lt s _ true ?_ fun _ => rfl)
      rw [howner]
      exact Nat.lt_succ_self 12
  | destroying result left =>
    cases left with
    | nil =>
      rw [ownerStep.eq_def, howner]
      exact .inr ⟨rfl, fun _ => .inl ⟨result, howner⟩⟩
    | cons first left =>
      obtain ⟨-, stopRequested, hstop, hstep⟩ | ⟨rfl, hborn, hlive, hstep⟩ :=
        @ownerStep_destroying srv _ _ _ _ howner awake
      · rw [hstep]
        refine .inl (rank_lt s _ stopRequested ?_ hstop)
        rw [howner]
        exact Nat.lt_succ_self _
      · rw [hstep]
        cases hstop : s.stopRequested with
        | true =>
          have hawaits : s.AwaitsCleaner := ⟨⟨_, _, howner⟩, hstop, hborn, hlive⟩
          exact .inr ⟨by rw [← hstop], fun _ => .inr (.inr hawaits)⟩
        | false =>
          have hlt := cleanerRank_lt s.cleaner
          left
          simp only [rank, cleanerLeft, hstop, if_true, Bool.false_eq_true, if_false]
          omega

/-- A step of the server thread lowers the rank, or changes nothing: it does not help only if
    `listen` is running, or the thread is not. -/
theorem rank_listenerStep (returned : Option Bool) (s : Lifecycle) :
    (s.listenerStep returned).rank < s.rank ∨
      s.listenerStep returned = s ∧
        (s.listener = .listening ∧ returned = none ∨ s.listener = .unborn ∨ s.isJoined = true) := by
  have hmove (listener : Listener) (serverRunning : Bool)
      (hlt : listenerRank listener < listenerRank s.listener) :
      ({ s with listener, serverRunning } : Lifecycle).rank < s.rank := by
    have hleft : ({ s with listener, serverRunning } : Lifecycle).cleanerLeft = s.cleanerLeft := rfl
    simp only [rank]
    omega
  cases hlistener : s.listener with
  | unborn =>
    rw [listenerStep.eq_def, hlistener]
    exact .inr ⟨rfl, .inr (.inl rfl)⟩
  | finished result =>
    rw [listenerStep.eq_def, isJoined, hlistener]
    exact .inr ⟨rfl, .inr (.inr rfl)⟩
  | listening =>
    rw [hlistener] at hmove
    rw [listenerStep.eq_def, hlistener]
    cases returned with
    | none => exact .inr ⟨rfl, .inl ⟨rfl, rfl⟩⟩
    | some result => exact .inl (hmove _ _ (Nat.lt_succ_self 2))
  | listened result =>
    rw [hlistener] at hmove
    rw [listenerStep.eq_def, hlistener]
    exact .inl (hmove _ _ (Nat.lt_succ_self 1))
  | stored result =>
    rw [hlistener] at hmove
    rw [listenerStep.eq_def, hlistener]
    exact .inl (hmove _ _ (Nat.lt_succ_self 0))

/-- A step of the cleanup thread lowers the rank once it has been asked to stop, and leaves it
    before that. -/
theorem rank_cleanerStep (awake : Bool) (s : Lifecycle) :
    (s.cleanerStep awake).2.rank < s.rank ∨
      (s.cleanerStep awake).2 = s ∧ (s.cleaner = .unborn ∨ s.cleaner = .finished) ∨
      s.stopRequested = false ∧ (s.cleanerStep awake).2.rank = s.rank ∧
        (s.cleanerStep awake).2.stopRequested = false := by
  cases hstop : s.stopRequested <;> fun_cases cleanerStep awake s <;>
    simp_all [rank, cleanerLeft, cleanerRank]

/-! ### The end is reached -/

theorem not_both (h : s.AwaitsListener) : ¬s.AwaitsCleaner := by
  rintro ⟨⟨result, left, howner⟩, -⟩
  rcases h.1 with hfailed | hjoining
  · rw [howner] at hfailed
    cases hfailed
  · rw [howner] at hjoining
    cases hjoining

/-- The server thread that the owner waits for goes on. -/
theorem rank_listenerStep_of_awaits (h : s.Consistent srv) (hawaits : s.AwaitsListener)
    {returned : Option Bool} (hobliging : s.Obliging (.listener returned)) :
    (s.listenerStep returned).rank < s.rank := by
  obtain ⟨howner, hjoined⟩ := hawaits
  have hknows := h.knows
  rw [Knows] at hknows
  rcases rank_listenerStep returned s with hlt | ⟨-, ⟨hlistening, rfl⟩ | hunborn | hdone⟩
  · exact hlt
  · rcases howner with hfailed | hjoining
    · rw [hfailed, hlistening] at hknows
      exact hknows.elim Listener.noConfusion Listener.noConfusion
    · exact absurd rfl (hobliging hjoining hlistening)
  · rcases howner with hfailed | hjoining
    · rw [hfailed, hunborn] at hknows
      exact hknows.elim Listener.noConfusion Listener.noConfusion
    · rw [hjoining] at hknows
      exact absurd hunborn hknows.1
  · rw [hjoined] at hdone
    cases hdone

/-- Once shutting down is requested, the threads make progress. -/
theorem progress (srv : IPGeoHTTPServer) : (step srv).Progress Obliging
    (fun s => s.Consistent srv ∧ s.shutdownRequested = true) rank Helps Ended where
  keeps s a h _ := by
    refine ⟨consistent_step h.1 a, ?_⟩
    rw [shutdownRequested_step, h.2, Bool.true_or]
  stays := by
    rintro s a ⟨result, howner⟩
    refine ⟨result, ?_⟩
    by_cases howns : ∃ awake, a = .owner awake
    · obtain ⟨awake, rfl⟩ := howns
      rw [step, ownerStep.eq_def, howner]
      exact howner
    · exact (step_of_not_owner fun awake heq => howns ⟨awake, heq⟩).1.trans howner
  helps := by
    rintro s a ⟨hconsistent, hshutdown⟩ hobliging hnot ⟨hlistener, hcleaner, howner⟩
    right
    by_cases hawaits : s.AwaitsListener
    · obtain ⟨returned, rfl⟩ := hlistener hawaits
      exact rank_listenerStep_of_awaits hconsistent hawaits hobliging
    by_cases hawaits' : s.AwaitsCleaner
    · obtain ⟨awake, rfl⟩ := hcleaner hawaits'
      obtain ⟨-, hstop, hborn, hlive⟩ := hawaits'
      rcases rank_cleanerStep awake s with hlt | ⟨-, hdone⟩ | ⟨hrunning, -⟩
      · exact hlt
      · exact absurd hdone (not_or.2 ⟨hborn, hlive⟩)
      · rw [hstop] at hrunning
        cases hrunning
    · obtain rfl := howner hawaits hawaits'
      rcases @rank_ownerStep srv s hshutdown true with hlt | ⟨-, hwaits⟩
      · exact hlt
      · exact absurd (hwaits rfl) (not_or.2 ⟨hnot, not_or.2 ⟨hawaits, hawaits'⟩⟩)
  unharmed := by
    rintro s a ⟨-, hshutdown⟩ - -
    right
    have hsame {s' : Lifecycle} (heq : s' = s) : s'.rank < s.rank ∨
        s'.rank = s.rank ∧ ∀ b, s.Helps b → s'.Helps b := .inr ⟨by rw [heq], fun _ => heq ▸ id⟩
    cases a with
    | signal => exact hsame (by rw [step, ← hshutdown])
    | stop | request => exact hsame rfl
    | listener returned => exact (rank_listenerStep returned s).elim .inl fun h => hsame h.1
    | owner awake =>
      exact (@rank_ownerStep srv s hshutdown awake).elim .inl fun h => hsame h.1
    | cleaner awake =>
      rcases rank_cleanerStep awake s with hlt | ⟨heq, -⟩ | ⟨hrunning, heq, hrunning'⟩
      · exact .inl hlt
      · exact hsame heq
      · -- a cleanup thread that has not been asked to stop is not waited for
        refine .inr ⟨heq, fun b hb => ?_⟩
        rw [step]
        obtain ⟨cleaner, hstep⟩ := cleanerStep_eq awake s
        rw [hstep] at hrunning' ⊢
        have hnot : ¬s.AwaitsCleaner := fun hawaits => by
          rw [hawaits.2.1] at hrunning
          cases hrunning
        refine ⟨hb.1, fun hawaits => ?_, fun hawaits _ => hb.2.2 hawaits hnot⟩
        rw [hawaits.2.1] at hrunning'
        cases hrunning'

/-- Every thread gets its turn, and a wait of the owner is over. -/
structure Fair (round : List LifecycleStep) : Prop where
  owner : .owner true ∈ round
  listener : ∃ returned, .listener returned ∈ round
  cleaner : ∃ awake, .cleaner awake ∈ round

theorem Fair.round {I : Lifecycle → Prop} {round : List LifecycleStep} (h : Fair round) :
    Machine.Round I Helps Ended round := by
  intro s _ _
  obtain ⟨howner, ⟨returned, hlistener⟩, awake, hcleaner⟩ := h
  by_cases hawaits : s.AwaitsListener
  · exact ⟨_, hlistener, fun _ => ⟨returned, rfl⟩, fun h => absurd h (not_both hawaits),
      absurd hawaits⟩
  by_cases hawaits' : s.AwaitsCleaner
  · exact ⟨_, hcleaner, fun h => absurd h hawaits, fun _ => ⟨awake, rfl⟩,
      fun _ => absurd hawaits'⟩
  · exact ⟨_, howner, fun h => absurd h hawaits, fun h => absurd h hawaits', fun _ _ => rfl⟩

/-- The rank of a state that a run reaches. -/
theorem rank_run_le (srv : IPGeoHTTPServer) (shutdownRequested : Bool) (as : List LifecycleStep) :
    ((step srv).run (new shutdownRequested) as).rank ≤ 42 := by
  have hremaining := congrArg List.length (@destroyed_run srv (new shutdownRequested) as)
  generalize (step srv).run (new shutdownRequested) as = s at hremaining ⊢
  have howner : ownerRank s.owner ≤ 34 := by
    cases howner : s.owner with
    | destroying result left =>
      rw [List.length_append, remaining_of_destroying howner] at hremaining
      have hconstructed : (new shutdownRequested).remaining.length = 11 := rfl
      rw [ownerRank]
      omega
    | _ => simp [ownerRank]
  have hlistener : listenerRank s.listener ≤ 4 := by
    cases s.listener <;> simp [listenerRank]
  have hleft := s.cleanerLeft_le
  rw [rank]
  omega

/-- Rounds in which `listen` goes on until the owner has called `stop`, and then returns. -/
def stoppedRounds : List (List LifecycleStep) :=
  List.replicate 5 [.owner true, .listener none, .cleaner true] ++
    List.replicate 38 [.owner true, .listener (some true), .cleaner true]

end IpServer.Lifecycle
