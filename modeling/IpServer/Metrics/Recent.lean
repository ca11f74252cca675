import IpServer.Library.SlidingWindow
import IpServer.Metrics
import Mathlib.Tactic.FieldSimp

/-!
# Requests per second of the past

`record_request` drops the times that are more than a minute before the request it records, and
`get_stats` drops nothing: the rate it reports is that of the minute before the last request,
however long ago that was.

* `requestTimestamps_afterCalls`: what is kept are the times of the minute before the last
  request.
* `rate_eq_iff`: when fewer times give the same rate.
* `reflectsRecent_iff_forall`: the reported rate is that of the minute before it is asked for
  exactly if the two minutes show the same, whichever of the requests before are left out.
* `reflectsRecent_iff`: said of the history alone, the minute before the last request holds at
  most one that is too old, or requests that came at once.
-/

namespace IpServer

open SlidingWindow

namespace MetricsCall

/-- When a call records a request, if it does. -/
def reading? : MetricsCall → Option TimePoint
  | .recordRequest _ now => some now
  | .recordError => none

/-- The call does not record a request more than a minute before `t`. -/
def isRecent (t : TimePoint) (call : MetricsCall) : Bool :=
  call.reading?.all fun now => decide (t - now ≤ seconds 60)

end MetricsCall

namespace Metrics

/-- The metrics after some calls, constructed at `start`. -/
def afterCalls (start : TimePoint) (calls : List MetricsCall) : Metrics :=
  step.run (new start) (calls.flatMap MetricsCall.ops)

/-- The requests per second that `get_stats` reports at `t`. -/
def qpsAt (start : TimePoint) (calls : List MetricsCall) (t : TimePoint) : ℚ :=
  let m := afterCalls start calls
  (getStats m m m m t).currentQps

/-- The times of the requests that are recorded. -/
def readings (calls : List MetricsCall) : List TimePoint := calls.filterMap MetricsCall.reading?

/-- The calls without the requests recorded more than a minute before `t`. -/
def recent (t : TimePoint) (calls : List MetricsCall) : List MetricsCall :=
  calls.filter (MetricsCall.isRecent t)

/-- The rate reported at `t` is nothing if there are fewer than two requests in the minute before,
    and does not change if requests before that minute are removed. -/
structure ReflectsRecent (start t : TimePoint) (calls : List MetricsCall) : Prop where
  few : (readings (recent t calls)).length < 2 → qpsAt start calls t = 0
  removed : ∀ calls', calls'.Sublist calls → recent t calls' = recent t calls →
    qpsAt start calls' t = qpsAt start calls t

/-- The times in the minute before the last one. -/
def lastMinute (ts : List TimePoint) : List TimePoint :=
  match ts.getLast? with
  | none => []
  | some last => live (seconds 60) last ts

/-- The milliseconds from the first to the last of some times. -/
def span (ts : List TimePoint) : ℤ := (ts.getLast?.getD 0 - ts.head?.getD 0).tdiv 1000000

/-- The minute before the last request shows what the minute before `t` does: the same requests, or
    requests within a millisecond, or at least two requests in the minute before `t` that came as
    fast on average. -/
def ShowsSame (t : TimePoint) (ts : List TimePoint) : Prop :=
  let kept := lastMinute ts
  let inMinute := live (seconds 60) t ts
  kept = inMinute ∨ span kept = 0 ∨
    2 ≤ inMinute.length ∧ (inMinute.length - 1) * span kept = (kept.length - 1) * span inMinute

/-- With requests in the minute before `t`, that minute is what is left of the one before the last
    request; or the requests of the latter came within a millisecond; or one of them is too old, and
    at least two others came as fast on average without it. With none, requests that came within a
    minute of each other came within a millisecond. -/
def Unaffected (t : TimePoint) (ts : List TimePoint) : Prop :=
  let kept := lastMinute ts
  let inMinute := live (seconds 60) t ts
  if inMinute = [] then
    ∀ r ∈ ts, ∀ r' ∈ ts, r' - r ≤ seconds 60 → r' - r < 1000000
  else
    kept = inMinute ∨ span kept = 0 ∨ kept.length = inMinute.length + 1 ∧ 2 ≤ inMinute.length ∧
      (inMinute.length - 1) * span kept = inMinute.length * span inMinute

variable {m : Metrics} {start now t : TimePoint} {ts ts' : List TimePoint}
  {calls calls' : List MetricsCall}

/-! ### The times that are kept -/

theorem requestTimestamps_logLatency (latencyMs : ℚ) :
    (m.logLatency latencyMs now).requestTimestamps =
      prune (seconds 60) now (m.requestTimestamps ++ [now]) := by
  simp only [logLatency, prune]
  congr 1
  funext t
  exact decide_eq_decide.2 lt_sub_comm

theorem lastMinute_sublist (ts : List TimePoint) : (lastMinute ts).Sublist ts := by
  rw [lastMinute]
  rcases ts.getLast? with _ | last
  · exact List.nil_sublist ts
  · exact List.filter_sublist

/-- The times in the minute before the last one are what is left of all by dropping some that are
    too old. -/
theorem window_lastMinute (hts : ts.Pairwise (· ≤ ·)) (hnow : ∀ t ∈ ts, t ≤ now) :
    Window (seconds 60) now ts (lastMinute ts) := by
  rw [lastMinute]
  rcases hlast : ts.getLast? with _ | last
  · rw [List.getLast?_eq_none_iff.1 hlast]
    exact Window.nil _ _
  · have hwhole : Window (seconds 60) last ts ts := ⟨[], rfl, List.forall_mem_nil _⟩
    have hpruned := hwhole.prune
    rw [prune_eq_live hts] at hpruned
    exact hpruned.mono (hnow last (List.mem_of_getLast? hlast))

theorem afterCalls_concat (start : TimePoint) (calls : List MetricsCall) (call : MetricsCall) :
    afterCalls start (calls ++ [call]) = step.run (afterCalls start calls) call.ops := by
  rw [afterCalls, List.flatMap_append, List.flatMap_singleton, Machine.run_append]
  rfl

/-- What is kept are the times in the minute before the last request. -/
theorem requestTimestamps_afterCalls (h : (readings calls).Pairwise (· ≤ ·)) :
    (afterCalls start calls).requestTimestamps = lastMinute (readings calls) := by
  induction calls using List.reverseRecOn with
  | nil => rfl
  | append_singleton calls call ih =>
    rw [afterCalls_concat]
    cases call with
    | recordRequest latencyMs now =>
      have hreadings : readings (calls ++ [.recordRequest latencyMs now]) =
          readings calls ++ [now] := List.filterMap_append
      rw [hreadings] at h ⊢
      obtain ⟨hcalls, -, hle⟩ := List.pairwise_append.1 h
      -- what was kept is the whole history, up to times that are too old by now
      have hwindow := window_lastMinute hcalls fun t ht => hle t ht now (List.mem_singleton_self _)
      rw [← ih hcalls] at hwindow
      have hnew := (hwindow.append [now]).prune_eq_live h
      have hlast : lastMinute (readings calls ++ [now]) =
          live (seconds 60) now (readings calls ++ [now]) := by
        rw [lastMinute, List.getLast?_concat]
      rw [hlast, ← hnew]
      exact requestTimestamps_logLatency latencyMs
    | recordError =>
      have hreadings : readings (calls ++ [.recordError]) = readings calls := by
        rw [readings, List.filterMap_append]
        exact List.append_nil _
      rw [hreadings] at h ⊢
      exact ih h

/-! ### The rate of some times -/

/-- The requests per second of some times. -/
def rate (ts : List TimePoint) : ℚ :=
  if span ts = 0 then 0 else ((ts.length - 1 : ℕ) : ℚ) / span ts * 1000

/-- Fewer than two times span nothing. -/
theorem span_eq_zero (h : ts.length < 2) : span ts = 0 := by
  rcases ts with _ | ⟨t, _ | ⟨t', ts⟩⟩
  · rfl
  · have hsame : t - t = 0 := Int.sub_self t
    rw [span, List.getLast?_singleton, List.head?_singleton, Option.getD_some, hsame,
      Int.zero_tdiv]
  · simp only [List.length_cons] at h
    omega

theorem calculateQps_eq_rate (m : Metrics) : m.calculateQps = rate m.requestTimestamps := by
  rw [calculateQps, rate]
  rcases hts : m.requestTimestamps with _ | ⟨t, ts⟩
  · rfl
  · have hspan : span (t :: ts) = ((t :: ts).getLast (List.cons_ne_nil t ts) - t).tdiv 1000000 := by
      rw [span, List.getLast?_eq_some_getLast (List.cons_ne_nil t ts)]
      rfl
    rw [List.getLast?_eq_some_getLast (List.cons_ne_nil t ts), List.head?_cons]
    dsimp only
    rw [← hspan]
    by_cases hlen : (t :: ts).length < 2
    · rw [if_pos (Or.inl hlen), if_pos (span_eq_zero hlen)]
    · simp only [hlen, false_or]

/-- Times in order lie between the first and the last. -/
theorem mem_between (h : ts.Pairwise (· ≤ ·)) (ht : t ∈ ts) :
    ts.head?.getD 0 ≤ t ∧ t ≤ ts.getLast?.getD 0 := by
  obtain ⟨pre, post, rfl⟩ := List.append_of_mem ht
  obtain ⟨-, hpost, hpre⟩ := List.pairwise_append.1 h
  constructor
  · rcases pre with _ | ⟨first, pre⟩
    · exact le_refl t
    · exact hpre first List.mem_cons_self t List.mem_cons_self
  · rw [List.getLast?_append_of_ne_nil _ (List.cons_ne_nil t post),
      List.getLast?_eq_some_getLast (List.cons_ne_nil t post), Option.getD_some]
    rcases List.mem_cons.1 (List.getLast_mem (List.cons_ne_nil t post)) with hlast | hlast
    · exact hlast.ge
    · exact (List.pairwise_cons.1 hpost).1 _ hlast

/-- Fewer times in order span less. -/
theorem span_le_of_sublist (h : ts.Pairwise (· ≤ ·)) (hsub : ts'.Sublist ts) :
    0 ≤ span ts' ∧ span ts' ≤ span ts := by
  have hnonneg {ts : List TimePoint} (h : ts.Pairwise (· ≤ ·)) : 0 ≤ span ts := by
    rcases ts with _ | ⟨t, ts⟩
    · exact le_refl _
    · obtain ⟨hfirst, hlast⟩ := mem_between h List.mem_cons_self
      exact Int.tdiv_nonneg (sub_nonneg.2 (hfirst.trans hlast)) (by decide)
  refine ⟨hnonneg (h.sublist hsub), ?_⟩
  rcases ts' with _ | ⟨t, ts'⟩
  · exact hnonneg h
  · have hfirst := (mem_between h (hsub.subset List.mem_cons_self)).1
    have hlast := (mem_between h (hsub.subset (List.getLast_mem (List.cons_ne_nil t ts')))).2
    rw [span, List.getLast?_eq_some_getLast (List.cons_ne_nil t ts')]
    exact Int.tdiv_le_tdiv (by decide) (sub_le_sub hlast hfirst)

/-- Times that span something are at least two. -/
theorem rate_of_span_ne_zero (h : span ts ≠ 0) :
    2 ≤ ts.length ∧ rate ts = ((ts.length : ℚ) - 1) / span ts * 1000 := by
  have hlen : 2 ≤ ts.length := by
    by_contra hlt
    exact h (span_eq_zero (not_le.1 hlt))
  refine ⟨hlen, ?_⟩
  rw [rate, if_neg h, Nat.cast_sub (by omega), Nat.cast_one]

/-- When fewer times give the same rate. -/
theorem rate_eq_iff (h : ts.Pairwise (· ≤ ·)) (hsub : ts'.Sublist ts) :
    rate ts = rate ts' ↔ ts = ts' ∨ span ts = 0 ∨
      2 ≤ ts'.length ∧ (ts'.length - 1) * span ts = (ts.length - 1) * span ts' := by
  obtain ⟨hnonneg', hle⟩ := span_le_of_sublist h hsub
  by_cases hspan : span ts = 0
  · have hspan' : span ts' = 0 := by omega
    refine iff_of_true ?_ (.inr (.inl hspan))
    rw [rate, rate, if_pos hspan, if_pos hspan']
  · obtain ⟨hlen, hrate⟩ := rate_of_span_ne_zero hspan
    have hlenQ : (2 : ℚ) ≤ ts.length := Nat.ofNat_le_cast.2 hlen
    have hspanQ : (0 : ℚ) < span ts := Int.cast_pos.2 (by omega)
    constructor
    · intro heq
      -- a rate is positive unless nothing is spanned
      have hspan' : span ts' ≠ 0 := by
        intro hzero
        have hpos : 0 < rate ts := by
          rw [hrate]
          exact mul_pos (div_pos (by linarith) hspanQ) (by norm_num)
        rw [heq, rate, if_pos hzero] at hpos
        exact lt_irrefl _ hpos
      obtain ⟨hlen', hrate'⟩ := rate_of_span_ne_zero hspan'
      rw [hrate, hrate', mul_left_inj' (by norm_num), div_eq_div_iff hspanQ.ne'
        (Int.cast_ne_zero.2 hspan')] at heq
      exact .inr (.inr ⟨hlen', by exact_mod_cast heq.symm⟩)
    · rintro (rfl | hzero | ⟨hlen', hmul⟩)
      · rfl
      · exact absurd hzero hspan
      · -- both products are positive
        have hspan' : span ts' ≠ 0 := by
          intro hzero
          rw [hzero, mul_zero, mul_eq_zero] at hmul
          omega
        obtain ⟨-, hrate'⟩ := rate_of_span_ne_zero hspan'
        rw [hrate, hrate', mul_left_inj' (by norm_num), div_eq_div_iff hspanQ.ne'
          (Int.cast_ne_zero.2 hspan')]
        exact_mod_cast hmul.symm

/-! ### The rate that is reported -/

theorem qpsAt_eq_rate (h : (readings calls).Pairwise (· ≤ ·)) :
    qpsAt start calls t = rate (lastMinute (readings calls)) := by
  rw [qpsAt, getStats, calculateQps_eq_rate, requestTimestamps_afterCalls h]

theorem readings_recent (t : TimePoint) (calls : List MetricsCall) :
    readings (recent t calls) = live (seconds 60) t (readings calls) := by
  rw [readings, recent, List.filterMap_filter, live, readings, List.filter_filterMap]
  congr 1
  funext call
  cases call with
  | recordRequest latencyMs now => rfl
  | recordError => rfl

theorem recent_recent (t : TimePoint) (calls : List MetricsCall) :
    recent t (recent t calls) = recent t calls := by
  rw [recent, recent, List.filter_filter]
  simp only [Bool.and_self]

/-- Of times before `t`, those in the minute before `t` are in the minute before the last. -/
theorem live_sublist_lastMinute (h : ∀ t' ∈ ts, t' ≤ t) :
    (live (seconds 60) t ts).Sublist (lastMinute ts) := by
  rw [lastMinute]
  rcases hlast : ts.getLast? with _ | last
  · rw [List.getLast?_eq_none_iff.1 hlast]
    exact List.Sublist.refl _
  · have hle := h last (List.mem_of_getLast? hlast)
    refine List.monotone_filter_right ts fun t' ht' => decide_eq_true ?_
    exact (sub_le_sub_right hle t').trans (of_decide_eq_true ht')

/-- Times in the minute before `t` are in the minute before the last of them. -/
theorem lastMinute_live (h : ∀ t' ∈ ts, t' ≤ t) :
    lastMinute (live (seconds 60) t ts) = live (seconds 60) t ts := by
  have hsub := @live_sublist_lastMinute t (live (seconds 60) t ts) fun t' ht' =>
    h t' (List.mem_of_mem_filter ht')
  have hself : live (seconds 60) t (live (seconds 60) t ts) = live (seconds 60) t ts :=
    List.filter_eq_self.2 fun t' ht' => (List.mem_filter.1 ht').2
  rw [hself] at hsub
  exact (lastMinute_sublist _).antisymm hsub

/-! ### Requests that are left out -/

/-- Times that are too old are left out by leaving out the requests recorded then. -/
theorem exists_readings_eq (hsub : ts.Sublist (readings calls))
    (hlive : live (seconds 60) t ts = live (seconds 60) t (readings calls)) :
    ∃ calls', calls'.Sublist calls ∧ recent t calls' = recent t calls ∧ readings calls' = ts := by
  induction calls generalizing ts with
  | nil => exact ⟨[], List.Sublist.refl _, rfl, (List.sublist_nil.1 hsub).symm⟩
  | cons call calls ih =>
    -- what becomes of the call does not depend on the others
    have hkeep (calls' : List MetricsCall) (h : recent t calls' = recent t calls) :
        recent t (call :: calls') = recent t (call :: calls) := by
      rw [recent, List.filter_cons, recent, List.filter_cons]
      rw [recent, recent] at h
      rw [h]
    cases call with
    | recordError =>
      obtain ⟨calls', hcalls', hrecent, rfl⟩ := ih hsub hlive
      exact ⟨.recordError :: calls', hcalls'.cons_cons _, hkeep calls' hrecent, rfl⟩
    | recordRequest latencyMs now =>
      have hreadings (calls' : List MetricsCall) :
          readings (.recordRequest latencyMs now :: calls') = now :: readings calls' := rfl
      rw [hreadings] at hsub hlive
      rcases List.sublist_cons_iff.1 hsub with hrest | ⟨ts, rfl, hrest⟩
      · -- the time is left out, so it is too old
        have hold : ¬decide (t - now ≤ seconds 60) = true := by
          intro hnow
          have hlen := (hrest.filter fun t' => decide (t - t' ≤ seconds 60)).length_le
          rw [← live, ← live, hlive, live, List.filter_cons, if_pos hnow, ← live,
            List.length_cons] at hlen
          omega
        have hlive' : live (seconds 60) t ts = live (seconds 60) t (readings calls) := by
          rw [hlive, live, List.filter_cons, if_neg hold, ← live]
        obtain ⟨calls', hcalls', hrecent, rfl⟩ := ih hrest hlive'
        refine ⟨calls', hcalls'.cons _, ?_, rfl⟩
        rw [hrecent, recent, recent, List.filter_cons]
        exact (if_neg hold).symm
      · -- the time is kept
        have htail : live (seconds 60) t ts = live (seconds 60) t (readings calls) := by
          rw [live, live, List.filter_cons, List.filter_cons] at hlive
          split at hlive
          · exact (List.cons.inj hlive).2
          · exact hlive
        obtain ⟨calls', hcalls', hrecent, rfl⟩ := ih hrest htail
        exact ⟨_, hcalls'.cons_cons _, hkeep calls' hrecent, hreadings calls'⟩

/-- Times in the minute before the last one are at most a minute apart. -/
theorem sub_le_of_mem_lastMinute (h : ts.Pairwise (· ≤ ·)) {r r' : TimePoint}
    (hr : r ∈ lastMinute ts) (hr' : r' ∈ lastMinute ts) : r' - r ≤ seconds 60 := by
  have hle := (mem_between h ((lastMinute_sublist ts).subset hr')).2
  rw [lastMinute] at hr
  rcases hlast : ts.getLast? with _ | last
  · rw [hlast] at hr
    exact absurd hr List.not_mem_nil
  · rw [hlast] at hr hle
    exact (sub_le_sub_right hle r).trans (of_decide_eq_true (List.mem_filter.1 hr).2)

/-- Of the times in the minute before the last one, all are if the last one is kept. -/
theorem lastMinute_of_sublist (h : ts.Pairwise (· ≤ ·)) (hsub : ts'.Sublist (lastMinute ts)) :
    lastMinute ts' = ts' := by
  rw [lastMinute]
  rcases hlast : ts'.getLast? with _ | last
  · exact (List.getLast?_eq_none_iff.1 hlast).symm
  · have hmem := hsub.subset (List.mem_of_getLast? hlast)
    exact List.filter_eq_self.2 fun r hr =>
      decide_eq_true (sub_le_of_mem_lastMinute h (hsub.subset hr) hmem)

/-- What is too old is not among fewer times either. -/
theorem live_eq_nil_of_sublist (hsub : ts'.Sublist ts) (hnil : live (seconds 60) t ts = []) :
    live (seconds 60) t ts' = [] := by
  have hlive := hsub.filter fun t' => decide (t - t' ≤ seconds 60)
  rw [← live, ← live, hnil] at hlive
  exact List.sublist_nil.1 hlive

/-- Whole milliseconds are nothing exactly within a millisecond. -/
theorem tdiv_eq_zero_iff {d : ℤ} (hd : 0 ≤ d) : d.tdiv 1000000 = 0 ↔ d < 1000000 := by
  rw [Int.tdiv_eq_ediv_of_nonneg hd]
  omega

/-- Times in order that are close to each other span nothing. -/
theorem span_eq_zero_of_close (h : ts.Pairwise (· ≤ ·))
    (hclose : ∀ r ∈ ts, ∀ r' ∈ ts, r' - r < 1000000) : span ts = 0 := by
  rcases ts with _ | ⟨first, ts⟩
  · rfl
  · have hlast := List.getLast_mem (List.cons_ne_nil first ts)
    have hle := (mem_between h hlast).1
    rw [span, List.getLast?_eq_some_getLast (List.cons_ne_nil first ts)]
    exact (tdiv_eq_zero_iff (sub_nonneg.2 hle)).2 (hclose first List.mem_cons_self _ hlast)

/-- Where two requests that are left come within a minute of each other, they come within a
    millisecond. -/
theorem sub_lt_of_showsSame (h : ts.Pairwise (· ≤ ·)) (hnil : live (seconds 60) t ts = [])
    (hall : ∀ ts', ts'.Sublist ts → live (seconds 60) t ts' = live (seconds 60) t ts →
      ShowsSame t ts') {r r' : TimePoint} (hr : r ∈ ts) (hr' : r' ∈ ts)
    (hle : r' - r ≤ seconds 60) : r' - r < 1000000 := by
  by_contra hfar
  have hpos : 0 < r' - r := lt_of_lt_of_le (by decide) (not_lt.1 hfar)
  have hlt : r < r' := sub_pos.1 hpos
  obtain ⟨pre, post, rfl⟩ := List.append_of_mem hr
  -- the later one comes after the other
  have hpost : r' ∈ post := by
    rcases List.mem_append.1 hr' with hmem | hmem
    · have hge := (List.pairwise_append.1 h).2.2 r' hmem r List.mem_cons_self
      exact absurd hge (not_le.2 hlt)
    · rcases List.mem_cons.1 hmem with rfl | hmem
      · exact absurd hlt (lt_irrefl r')
      · exact hmem
  have hsub : [r, r'].Sublist (pre ++ r :: post) :=
    ((List.singleton_sublist.2 hpost).cons_cons r).trans (List.sublist_append_right _ _)
  have hnone : live (seconds 60) t [r, r'] = [] := live_eq_nil_of_sublist hsub hnil
  have hkept : lastMinute [r, r'] = [r, r'] := by
    refine List.filter_eq_self.2 fun t' ht' => decide_eq_true ?_
    rcases List.mem_pair.1 ht' with rfl | rfl
    · exact hle
    · exact (sub_self t').trans_le (by decide)
  have hsame := hall _ hsub (hnone.trans hnil.symm)
  rw [ShowsSame, hkept, hnone] at hsame
  rcases hsame with hsame | hspan | ⟨hlen, -⟩
  · cases hsame
  · exact hfar ((tdiv_eq_zero_iff hpos.le).1 hspan)
  · exact absurd hlen (by decide)

/-- What counts at `t` is the end of the times. -/
theorem exists_append_live (h : ts.Pairwise (· ≤ ·)) (t : TimePoint) :
    ∃ old, ts = old ++ live (seconds 60) t ts ∧ ∀ r ∈ old, t - r > seconds 60 := by
  have hwhole : Window (seconds 60) t ts ts := ⟨[], rfl, List.forall_mem_nil _⟩
  have hpruned := hwhole.prune
  rwa [prune_eq_live h] at hpruned

/-- Times of which the same are in the minute before `t` have the same last one. -/
theorem getLast?_eq_of_live (h : ts.Pairwise (· ≤ ·)) (hsub : ts'.Sublist ts)
    (hne : live (seconds 60) t ts ≠ []) (hlive : live (seconds 60) t ts' = live (seconds 60) t ts) :
    ts'.getLast? = ts.getLast? := by
  obtain ⟨old, heq, -⟩ := exists_append_live h t
  obtain ⟨old', heq', -⟩ := exists_append_live (h.sublist hsub) t
  rw [hlive] at heq'
  rw [heq, heq', List.getLast?_append_of_ne_nil _ hne, List.getLast?_append_of_ne_nil _ hne]

/-- What is left of fewer times is also left of all. -/
theorem lastMinute_sublist_lastMinute (h : ts.Pairwise (· ≤ ·)) (hsub : ts'.Sublist ts)
    (hne : live (seconds 60) t ts ≠ []) (hlive : live (seconds 60) t ts' = live (seconds 60) t ts) :
    (lastMinute ts').Sublist (lastMinute ts) := by
  rw [lastMinute, lastMinute, getLast?_eq_of_live h hsub hne hlive]
  rcases ts.getLast? with _ | last
  · exact List.Sublist.refl _
  · exact hsub.filter _

/-- With one time too many at most, or times within a millisecond, fewer times show the same. -/
theorem showsSame_of_sublist (h : ts.Pairwise (· ≤ ·)) (hlater : ∀ r ∈ ts, r ≤ t)
    (hne : live (seconds 60) t ts ≠ []) (hunaffected : Unaffected t ts) (hsub : ts'.Sublist ts)
    (hlive : live (seconds 60) t ts' = live (seconds 60) t ts) : ShowsSame t ts' := by
  rw [Unaffected, if_neg hne] at hunaffected
  have hkept := lastMinute_sublist_lastMinute h hsub hne hlive
  have hminute := live_sublist_lastMinute fun r hr => hlater r (hsub.subset hr)
  rw [hlive] at hminute
  rw [ShowsSame, hlive]
  rcases hunaffected with hsame | hspan | ⟨hone, htwo, hmul⟩
  · rw [hsame] at hkept
    exact .inl (hkept.antisymm hminute)
  · have hle := span_le_of_sublist (h.sublist (lastMinute_sublist ts)) hkept
    exact .inr (.inl (by omega))
  · -- either the one time is kept, or it is left out
    rcases Nat.lt_or_ge (lastMinute ts').length (lastMinute ts).length with hlt | hge
    · exact .inl (hminute.eq_of_length_le (by omega)).symm
    · rw [hkept.eq_of_length_le hge, hone]
      refine .inr (.inr ⟨htwo, ?_⟩)
      rw [hmul]
      push_cast
      ring

/-- If requests can be left out, there is one too many at most, unless they come within a
    millisecond. -/
theorem length_lastMinute_of_showsSame (h : ts.Pairwise (· ≤ ·)) (hlater : ∀ r ∈ ts, r ≤ t)
    (hne : live (seconds 60) t ts ≠ []) (hspan : span (lastMinute ts) ≠ 0)
    (hkept : lastMinute ts ≠ live (seconds 60) t ts)
    (hall : ∀ ts', ts'.Sublist ts → live (seconds 60) t ts' = live (seconds 60) t ts →
      ShowsSame t ts') :
    (lastMinute ts).length = (live (seconds 60) t ts).length + 1 := by
  have hsorted := h.sublist (lastMinute_sublist ts)
  have hlive : live (seconds 60) t (lastMinute ts) = live (seconds 60) t ts := by
    rw [← prune_eq_live hsorted]
    exact (window_lastMinute h hlater).prune_eq_live h
  obtain ⟨stale, heq, hstale⟩ := exists_append_live hsorted t
  rw [hlive] at heq
  rcases stale with _ | ⟨s, _ | ⟨s', stale⟩⟩
  · exact absurd heq hkept
  · exact congrArg List.length heq
  · -- the second of them is left out
    have hsub : ((s :: stale) ++ live (seconds 60) t ts).Sublist (lastMinute ts) := by
      rw [heq]
      exact ((List.sublist_cons_self s' stale).cons_cons s).append_right _
    have hlive' : live (seconds 60) t ((s :: stale) ++ live (seconds 60) t ts) =
        live (seconds 60) t ts := by
      have hold : live (seconds 60) t (s :: stale) = [] :=
        live_eq_nil_of_sublist ((List.sublist_cons_self s' stale).cons_cons s) (live_eq_nil hstale)
      rw [live, List.filter_append, ← live, hold, List.nil_append, live, List.filter_filter]
      simp only [Bool.and_self]
    have hspan' : span ((s :: stale) ++ live (seconds 60) t ts) = span (lastMinute ts) := by
      rw [span, span, heq, List.getLast?_append_of_ne_nil _ hne,
        List.getLast?_append_of_ne_nil _ hne]
      rfl
    have hself := hall ts (List.Sublist.refl ts) rfl
    have hfewer := hall _ (hsub.trans (lastMinute_sublist ts)) hlive'
    rw [ShowsSame, lastMinute_of_sublist h hsub, hlive', hspan'] at hfewer
    rcases hself with hself | hself | ⟨htwo, hself⟩
    · exact absurd hself hkept
    · exact absurd hself hspan
    rcases hfewer with hfewer | hfewer | ⟨-, hfewer⟩
    · have hlen := congrArg List.length hfewer
      rw [List.length_append, List.length_cons] at hlen
      omega
    · exact absurd hfewer hspan
    · -- the same span for two numbers of requests is nothing
      have hlen := congrArg List.length heq
      have hzero : span (live (seconds 60) t ts) = 0 := by
        rw [hfewer, hlen] at hself
        simp only [List.length_append, List.length_cons, Nat.cast_add, Nat.cast_one] at hself
        linarith
      rw [hzero, mul_zero, mul_eq_zero] at hfewer
      rcases hfewer with hfewer | hfewer
      · omega
      · exact absurd hfewer hspan

/-- Whichever of the times before the minute before `t` are left out, the two minutes show the
    same. -/
theorem forall_showsSame_iff (h : ts.Pairwise (· ≤ ·)) (hlater : ∀ r ∈ ts, r ≤ t) :
    (∀ ts', ts'.Sublist ts → live (seconds 60) t ts' = live (seconds 60) t ts →
      ShowsSame t ts') ↔ Unaffected t ts := by
  by_cases hnil : live (seconds 60) t ts = []
  · rw [Unaffected, if_pos hnil]
    constructor
    · intro hall r hr r' hr' hle
      exact sub_lt_of_showsSame h hnil hall hr hr' hle
    · intro hclose ts' hsub _
      -- what is left is from the minute before its last request, so it came within a millisecond
      have hts' := h.sublist hsub
      refine .inr (.inl (span_eq_zero_of_close (hts'.sublist (lastMinute_sublist ts')) ?_))
      intro r hr r' hr'
      have hkept := (lastMinute_sublist ts').trans hsub
      exact hclose r (hkept.subset hr) r' (hkept.subset hr') (sub_le_of_mem_lastMinute hts' hr hr')
  · refine ⟨fun hall => ?_, fun hunaffected ts' hsub hlive =>
      showsSame_of_sublist h hlater hnil hunaffected hsub hlive⟩
    rw [Unaffected, if_neg hnil]
    by_cases hkept : lastMinute ts = live (seconds 60) t ts
    · exact .inl hkept
    · by_cases hspan : span (lastMinute ts) = 0
      · exact .inr (.inl hspan)
      · have hone := length_lastMinute_of_showsSame h hlater hnil hspan hkept hall
        rcases hall ts (List.Sublist.refl ts) rfl with hsame | hzero | ⟨htwo, hmul⟩
        · exact absurd hsame hkept
        · exact absurd hzero hspan
        · refine .inr (.inr ⟨hone, htwo, ?_⟩)
          rw [hmul, hone]
          push_cast
          ring

/-! ### When the reported rate is that of the minute before -/

/-- Of requests recorded before `t`, the reported rate reflects those in the minute before `t`
    exactly if that minute shows what the one before the last request does, whichever of the
    requests before are left out. -/
theorem reflectsRecent_iff_forall (hclock : (readings calls).Pairwise (· ≤ ·))
    (hlater : ∀ r ∈ readings calls, r ≤ t) : ReflectsRecent start t calls ↔
      ∀ calls', calls'.Sublist calls → recent t calls' = recent t calls →
        ShowsSame t (readings calls') := by
  -- the rate of a shorter history is that of the recent requests exactly if they show the same
  have hsame {calls'} (hsub : calls'.Sublist calls) (hrecent : recent t calls' = recent t calls) :
      qpsAt start calls' t = rate (readings (recent t calls)) ↔ ShowsSame t (readings calls') := by
    have hreadings : (readings calls').Sublist (readings calls) := hsub.filterMap _
    have hclock' := hclock.sublist hreadings
    have hlater' : ∀ r ∈ readings calls', r ≤ t := fun r hr => hlater r (hreadings.subset hr)
    rw [qpsAt_eq_rate hclock', ← hrecent, readings_recent]
    exact rate_eq_iff (hclock'.sublist (lastMinute_sublist _)) (live_sublist_lastMinute hlater')
  have hfilter : (recent t calls).Sublist calls := List.filter_sublist
  have hself : qpsAt start (recent t calls) t = rate (readings (recent t calls)) := by
    rw [qpsAt_eq_rate (hclock.sublist (hfilter.filterMap _)), readings_recent,
      lastMinute_live hlater]
  constructor
  · intro h calls' hsub hrecent
    rw [← hsame hsub hrecent, ← hself, h.removed calls' hsub hrecent,
      h.removed _ hfilter (recent_recent t calls)]
  · intro h
    have hwhole := (hsame (List.Sublist.refl _) rfl).2 (h calls (List.Sublist.refl _) rfl)
    refine ⟨fun hfew => ?_, fun calls' hsub hrecent => ?_⟩
    · rw [hwhole, rate, if_pos (span_eq_zero hfew)]
    · rw [hwhole, (hsame hsub hrecent).2 (h calls' hsub hrecent)]

/-- Of requests recorded before `t`, the reported rate reflects those in the minute before `t`
    exactly if those before that minute do not matter to it. -/
theorem reflectsRecent_iff (hclock : (readings calls).Pairwise (· ≤ ·))
    (hlater : ∀ r ∈ readings calls, r ≤ t) :
    ReflectsRecent start t calls ↔ Unaffected t (readings calls) := by
  rw [reflectsRecent_iff_forall hclock hlater, ← forall_showsSame_iff hclock hlater]
  constructor
  · intro h ts hsub hlive
    obtain ⟨calls', hcalls', hrecent, rfl⟩ := exists_readings_eq hsub hlive
    exact h calls' hcalls' hrecent
  · intro h calls' hsub hrecent
    refine h (readings calls') (hsub.filterMap _) ?_
    rw [← readings_recent, ← readings_recent, hrecent]

/-- Two requests within a second. -/
def twoCalls : List MetricsCall := [.recordRequest 5 0, .recordRequest 7 (seconds 1)]

/-- Asked for soon after, the rate is that of the minute before. -/
theorem reflectsRecent_soon : ReflectsRecent 0 (seconds 2) twoCalls := by
  refine (reflectsRecent_iff (by decide) (by decide)).2 ?_
  rw [Unaffected, if_neg (by decide)]
  exact .inl (by decide)

/-- An hour later, the rate is still the one of these two requests. -/
theorem not_reflectsRecent_later : ¬ReflectsRecent 0 (seconds 3600) twoCalls := by
  intro h
  exact absurd (h.few (by decide)) (by decide +kernel)

end Metrics

end IpServer
