import IpServer.Http.Gate

/-!
# Requests at the same time

The threads of the pool handle requests at the same time. They meet in the rate limiter, whose
calls run under its lock: a request calls `is_allowed`, and if it is not admitted, `get_remaining`.
Before, between and after its calls, other requests are handled, and the limiter is cleaned up
(`serving`).

* `run_alone`: a request that is not interrupted is served as by `serve`.
* `standing_run`: what a request has passed when it gets work done, wherever the others are.
* `limited_of_run`: in every order of steps, work is done for accepted keys only, and no client
  gets more requests worked on within a minute than it may.
-/

namespace IpServer.IPGeoHTTPServer

open Handling SlidingWindow

/-- What a request has come to with the answer of `is_allowed`, if it asks for one. -/
inductive Verdict
  /-- it has its response -/
  | rejected
  /-- its handler goes on -/
  | proceeds (clientIp : String)
  /-- it is over the limit, and to be told so -/
  | limited (clientIp : String)

variable (lib : Libraries) (srv : IPGeoHTTPServer) (surr : Surroundings) (req : Request)

/-- `prepare_request`, up to the answer of `is_allowed`. -/
def checkRequest : Handling Verdict := do
  if !(← authenticateRequest lib srv req) then return .rejected
  else
    let clientIp := getRealClientIp req
    if clientIp = "" then
      sendErrorResponse lib.json 400 "Bad Request" "Unable to determine source IP address"
      return .rejected
    else if !srv.enableRateLimiter then return .proceeds clientIp
    else if ← isAllowed surr clientIp then return .proceeds clientIp
    else return .limited clientIp

/-- The rest of `prepare_request`, for a client over its limit. -/
def rejectLimited (clientIp : String) : Handling Unit := do
  sendJsonResponse lib.json (limitJson (← getRemaining surr clientIp)) 429
  setHeader "Retry-After" "60"

/-- `prepare_request` is made of its two parts. -/
theorem prepareRequest_eq : prepareRequest lib srv surr req = (do
    match ← checkRequest lib srv surr req with
    | .rejected => return none
    | .proceeds clientIp => return some clientIp
    | .limited clientIp =>
      rejectLimited lib surr clientIp
      return none) := by
  rw [prepareRequest, checkRequest, bind_assoc]
  refine congrArg (authenticateRequest lib srv req >>= ·) (funext fun authenticated => ?_)
  cases authenticated with
  | false => rfl
  | true =>
    simp only [Bool.not_true, Bool.false_eq_true, if_false]
    by_cases hip : getRealClientIp req = ""
    · simp only [if_pos hip, bind_assoc, pure_bind]
    · simp only [if_neg hip]
      by_cases hlimiter : srv.enableRateLimiter = true
      · simp only [hlimiter, Bool.not_true, Bool.false_eq_true, if_false, bind_assoc]
        refine congrArg (isAllowed surr (getRealClientIp req) >>= ·) (funext fun allowed => ?_)
        cases allowed with
        | true => simp only [if_true, pure_bind]
        | false =>
          simp only [Bool.false_eq_true, if_false, pure_bind, rejectLimited, bind_assoc]
      · simp only [hlimiter, Bool.not_false, if_true, pure_bind]

/-- A route up to the answer of `is_allowed`. The password routes do not ask for one. -/
def checkRoute : Route → Handling Verdict
  | .lookupGet | .lookupPost => checkRequest lib srv surr req
  | .passwordGet | .passwordPost => return .proceeds (getRealClientIp req)

/-- What a route does for a request that may go on. -/
def proceed : Route → String → Handling Unit
  | .lookupGet, clientIp => lookupGet lib srv surr req clientIp
  | .lookupPost, _ => lookupPost lib srv surr req
  | .passwordGet, _ => PasswordHandler.handleGet lib.json lib.toDouble surr req
  | .passwordPost, _ =>
    PasswordHandler.handlePost lib.json lib.toDouble srv.maxBatchSize surr req

/-- The rest of a route. -/
def afterCheck (route : Route) : Verdict → Handling Unit
  | .rejected => return ()
  | .proceeds clientIp => proceed lib srv surr req route clientIp
  | .limited clientIp => rejectLimited lib surr clientIp

/-- A route is made of its two parts. -/
theorem handle_eq (route : Route) : handle lib srv surr req route =
    checkRoute lib srv surr req route >>= afterCheck lib srv surr req route := by
  have hclient (rest : String → Handling Unit) : withClient lib srv surr req rest =
      checkRequest lib srv surr req >>= fun
        | .rejected => return ()
        | .proceeds clientIp => rest clientIp
        | .limited clientIp => rejectLimited lib surr clientIp := by
    rw [withClient, prepareRequest_eq, bind_assoc]
    refine congrArg (checkRequest lib srv surr req >>= ·) (funext fun verdict => ?_)
    cases verdict with
    | rejected | proceeds clientIp => rfl
    | limited clientIp =>
      simp only [bind_assoc, pure_bind]
      exact bind_pure _
  cases route with
  | lookupGet =>
    rw [handle, handleLookupGet, hclient]
    refine congrArg (checkRequest lib srv surr req >>= ·) (funext fun verdict => ?_)
    cases verdict with
    | rejected | proceeds | limited => rfl
  | lookupPost =>
    rw [handle, handleLookupPost, hclient]
    refine congrArg (checkRequest lib srv surr req >>= ·) (funext fun verdict => ?_)
    cases verdict with
    | rejected | proceeds | limited => rfl
  | passwordGet | passwordPost => rfl

variable {lib srv surr req} {w : World}

/-- What the first part of a lookup can come to, and the world after it. -/
inductive Checked (lib : Libraries) (srv : IPGeoHTTPServer) (surr : Surroundings) (req : Request)
    (w : World) : Verdict → World → Prop
  | unauthorized {res : Response} (hauth : srv.enableApiAuth = true)
    (hkey : ¬Authorized lib srv req) (hstatus : res.status = 401) :
    Checked lib srv surr req w .rejected { w with res }
  | unknown {res : Response} (hkey : srv.enableApiAuth = true → Authorized lib srv req) :
    Checked lib srv surr req w .rejected { w with res }
  | unlimited (hkey : srv.enableApiAuth = true → Authorized lib srv req)
    (hlimiter : srv.enableRateLimiter = false) :
    Checked lib srv surr req w (.proceeds (getRealClientIp req)) w
  | admitted (hkey : srv.enableApiAuth = true → Authorized lib srv req)
    (hallowed : (w.limiter.isAllowed (getRealClientIp req) surr.now surr.pruned).1 = true) :
    Checked lib srv surr req w (.proceeds (getRealClientIp req))
      (w.call (.isAllowed (getRealClientIp req) surr.now surr.pruned))
  | limited (hkey : srv.enableApiAuth = true → Authorized lib srv req)
    (hip : getRealClientIp req ≠ "") (hlimiter : srv.enableRateLimiter = true) :
    Checked lib srv surr req w (.limited (getRealClientIp req))
      (w.call (.isAllowed (getRealClientIp req) surr.now surr.pruned))

theorem checkRequest_cases : ∃ verdict w', (checkRequest lib srv surr req).run w = .ok verdict w' ∧
    Checked lib srv surr req w verdict w' := by
  rw [checkRequest, EStateM.run_bind]
  obtain ⟨hkey, hrun⟩ | ⟨hauth, hkey, res, hrun, hstatus⟩ :=
    @authenticateRequest_cases lib srv req w
  · simp only [hrun, Bool.not_true, Bool.false_eq_true, if_false]
    split
    · simp (disch := exact Json.validUtf8_of_ascii (by decide)) only [EStateM.run_bind,
        run_sendErrorResponse]
      exact ⟨_, _, rfl, .unknown hkey⟩
    · next hip =>
      split
      · next hlimiter => exact ⟨_, _, rfl, .unlimited hkey (by simpa using hlimiter)⟩
      · next hlimiter =>
        rw [EStateM.run_bind, run_isAllowed]
        simp only
        split
        · next hallowed => exact ⟨_, _, rfl, .admitted hkey hallowed⟩
        · exact ⟨_, _, rfl, .limited hkey hip (by simpa using hlimiter)⟩
  · rw [hrun]
    exact ⟨_, _, rfl, .unauthorized hauth hkey hstatus⟩

/-- A client over its limit is told so, by one more call of the limiter. -/
theorem run_rejectLimited (clientIp : String) : ∃ res,
    (rejectLimited lib surr clientIp).run w =
      .ok () { w.call (.getRemaining clientIp surr.remaining) with res } := by
  obtain ⟨body, hbody⟩ := @dump_limitJson lib (w.limiter.getRemaining clientIp surr.remaining).1
  rw [rejectLimited, EStateM.run_bind, run_getRemaining]
  simp only [EStateM.run_bind, run_sendJsonResponse, hbody]
  exact ⟨_, rfl⟩

theorem Checked.tracked {verdict : Verdict} {w' : World}
    (h : Checked lib srv surr req w verdict w') : Tracked w w' := by
  cases h with
  | unauthorized | unknown | unlimited => exact ⟨[], (List.append_nil _).symm, rfl⟩
  | admitted | limited => exact tracked_call _

theorem tracked_checkRoute (route : Route) :
    Guarantees Tracked (checkRoute lib srv surr req route) := by
  have hcheck : Guarantees Tracked (checkRequest lib srv surr req) := fun w => by
    obtain ⟨verdict, w', hrun, hchecked⟩ := @checkRequest_cases lib srv surr req w
    rw [hrun]
    exact hchecked.tracked
  cases route with
  | lookupGet | lookupPost => exact hcheck
  | passwordGet | passwordPost => exact .pure _

/-- A request that may go on does not call the limiter again. -/
theorem leaves_proceed (route : Route) (clientIp : String) : Guarantees
    (Leaves fun event => event.limiterOp? = none) (proceed lib srv surr req route clientIp) := by
  cases route with
  | lookupGet => exact leaves_lookupGet clientIp
  | lookupPost => exact leaves_lookupPost
  | passwordGet =>
    exact PasswordHandler.guarantees_handleGet (fun _ _ _ => leaves_sendJsonResponse _ _)
      fun _ h => leaves_emit h
  | passwordPost =>
    exact PasswordHandler.guarantees_handlePost (fun _ _ _ => leaves_sendJsonResponse _ _)
      fun _ h => leaves_emit h

theorem tracked_afterCheck (route : Route) (verdict : Verdict) :
    Guarantees Tracked (afterCheck lib srv surr req route verdict) := by
  cases verdict with
  | rejected => exact .pure _
  | proceeds clientIp => exact (leaves_proceed route clientIp).mono fun _ _ => Leaves.tracked
  | limited clientIp =>
    intro w
    obtain ⟨res, hrun⟩ := @run_rejectLimited lib surr w clientIp
    rw [afterCheck, hrun]
    exact tracked_call (.getRemaining clientIp surr.remaining)

/-! ### Serving -/

/-- A request, and what it meets. -/
structure Incoming where
  route : Route
  req : Request
  surr : Surroundings

/-- Where a request is. -/
inductive Phase
  | waiting
  /-- with what it has come to, its response and its calls so far -/
  | checked (verdict : Verdict) (res : Response) (events : List Event)
  | answered (outcome : Outcome)

/-- Where a request is after its first part. -/
def Phase.ofCheck : EStateM.Result Exn World Verdict → Phase
  | .ok verdict w => .checked verdict w.res w.events
  | .error e w => .answered ⟨.error e, w.limiter, w.events⟩

/-- Any number of requests, and the limiter they share. -/
structure Serving (ι : Type*) where
  limiter : RateLimiter
  phase : ι → Phase

/-- A request takes its next part, or the limiter is cleaned up. -/
inductive ServingInput (ι : Type*)
  | step (i : ι)
  | cleanup (now : String → TimePoint)

variable {ι : Type*} (lib srv) (asked : ι → Incoming)

/-- The first part of a request, from a limiter on. -/
def begun (i : ι) (l : RateLimiter) : EStateM.Result Exn World Verdict :=
  (checkRoute lib srv (asked i).surr (asked i).req (asked i).route).run ⟨corsResponse, l, []⟩

/-- The rest of it. -/
def finished (i : ι) (verdict : Verdict) (w : World) : EStateM.Result Exn World Unit :=
  (afterCheck lib srv (asked i).surr (asked i).req (asked i).route verdict).run w

/-- The requests `asked`, served at the same time. -/
def serving [DecidableEq ι] : Machine (Serving ι) (ServingInput ι) Unit := fun s input =>
  ((), match input with
    | .cleanup now => { s with limiter := s.limiter.cleanup now }
    | .step i =>
      match s.phase i with
      | .waiting =>
        let r := begun lib srv asked i s.limiter
        ⟨(endState r).limiter, Function.update s.phase i (.ofCheck r)⟩
      | .checked verdict res events =>
        let r := finished lib srv asked i verdict ⟨res, s.limiter, events⟩
        ⟨(endState r).limiter, Function.update s.phase i (.answered (.ofResult r))⟩
      | .answered _ => s)

/-- The calls of the limiter in a step. -/
def servingOps (s : Serving ι) : ServingInput ι → List LimiterOp
  | .cleanup now => [.cleanup now]
  | .step i =>
    match s.phase i with
    | .waiting => (endState (begun lib srv asked i s.limiter)).events.filterMap Event.limiterOp?
    | .checked verdict res events =>
      ((endState (finished lib srv asked i verdict ⟨res, s.limiter, events⟩)).events.drop
        events.length).filterMap Event.limiterOp?
    | .answered _ => []

/-- No request has begun. -/
def Serving.new (ι : Type*) (l : RateLimiter) : Serving ι := ⟨l, fun _ => .waiting⟩

/-! ### What has been passed -/

/-- The routes that run `prepare_request`. -/
def isLookup : Route → Bool
  | .lookupGet | .lookupPost => true
  | .passwordGet | .passwordPost => false

/-- The admission of a lookup of `client` in a step, with the request it is for. -/
def granted (client : String) (s : Serving ι) : ServingInput ι → List (ι × Admission TimePoint)
  | .cleanup _ => []
  | .step i =>
    match s.phase i, begun lib srv asked i s.limiter with
    | .waiting, .ok (.proceeds _) _ =>
      if getRealClientIp (asked i).req = client ∧ isLookup (asked i).route = true then
        [(i, ⟨(asked i).surr.now,
          s.limiter.pruningReading client (asked i).surr.now (asked i).surr.pruned⟩)]
      else []
    | _, _ => []

/-- The key of a request and its admission, as far as it has got: work is done only with both. -/
def Standing (i : ι) (logged : Prop) : Phase → Prop
  | .waiting => True
  | .checked .rejected res events =>
    (srv.enableApiAuth = true → ¬Authorized lib srv (asked i).req → res.status = 401) ∧
      ∀ event ∈ events, event.isWork = false
  | .checked (.limited _) _ events =>
    (srv.enableApiAuth = true → Authorized lib srv (asked i).req) ∧
      ∀ event ∈ events, event.isWork = false
  | .checked (.proceeds _) _ _ =>
    (srv.enableApiAuth = true → Authorized lib srv (asked i).req) ∧
      (srv.enableRateLimiter = true → logged)
  | .answered o =>
    (srv.enableApiAuth = true → o.worked = true → Authorized lib srv (asked i).req) ∧
    (srv.enableApiAuth = true → ¬Authorized lib srv (asked i).req →
      ∃ res, o.response = .ok res ∧ res.status = 401) ∧
    (srv.enableRateLimiter = true → o.worked = true → logged)

variable {lib srv asked} {i : ι} {logged logged' : Prop}

/-- What is logged stays logged. -/
theorem Standing.mono {phase : Phase} (h : Standing lib srv asked i logged phase)
    (hmono : logged → logged') : Standing lib srv asked i logged' phase := by
  cases phase with
  | waiting => trivial
  | checked verdict res events =>
    cases verdict with
    | rejected | limited => exact h
    | proceeds => exact ⟨h.1, fun hlimiter => hmono (h.2 hlimiter)⟩
  | answered o => exact ⟨h.1, h.2.1, fun hlimiter hworked => hmono (h.2.2 hlimiter hworked)⟩

/-- The first part of a lookup. -/
theorem begun_cases (hroute : isLookup (asked i).route = true) (l : RateLimiter) :
    ∃ verdict w', begun lib srv asked i l = .ok verdict w' ∧
      Checked lib srv (asked i).surr (asked i).req ⟨corsResponse, l, []⟩ verdict w' := by
  rw [begun]
  cases h : (asked i).route with
  | lookupGet | lookupPost => exact checkRequest_cases
  | passwordGet | passwordPost =>
    rw [h] at hroute
    exact absurd hroute Bool.false_ne_true

/-- A lookup that may go on has its key accepted and, if there is a limiter, is logged. -/
theorem standing_begun (hroute : isLookup (asked i).route = true) {l : RateLimiter}
    (hlogged : ∀ clientIp w', begun lib srv asked i l = .ok (.proceeds clientIp) w' → logged) :
    Standing lib srv asked i logged (.ofCheck (begun lib srv asked i l)) := by
  obtain ⟨verdict, w', hbegun, hchecked⟩ :=
    @begun_cases lib srv ι asked i hroute l
  have hlogged := hlogged
  rw [hbegun] at hlogged ⊢
  cases hchecked with
  | unauthorized hauth hkey hstatus => exact ⟨fun _ _ => hstatus, List.forall_mem_nil _⟩
  | unknown hkey => exact ⟨fun hauth hnot => absurd (hkey hauth) hnot, List.forall_mem_nil _⟩
  | limited hkey => exact ⟨hkey, List.forall_mem_singleton.2 rfl⟩
  | unlimited hkey => exact ⟨hkey, fun _ => hlogged _ _ rfl⟩
  | admitted hkey => exact ⟨hkey, fun _ => hlogged _ _ rfl⟩

/-- Nothing is worked on but by a request that may go on. -/
theorem standing_finished {verdict : Verdict} {res : Response} {events : List Event}
    {l : RateLimiter} (h : Standing lib srv asked i logged (.checked verdict res events)) :
    Standing lib srv asked i logged
      (.answered (.ofResult (finished lib srv asked i verdict ⟨res, l, events⟩))) := by
  have hidle {o : Outcome} (hevents : ∀ event ∈ o.events, event.isWork = false) :
      ¬o.worked = true := by
    rw [Outcome.worked, Bool.not_eq_true]
    exact List.any_eq_false.2 fun event hevent => by simp [hevents event hevent]
  cases verdict with
  | rejected =>
    obtain ⟨hstatus, hevents⟩ := h
    exact ⟨fun _ hworked => absurd hworked (hidle hevents),
      fun hauth hnot => ⟨res, rfl, hstatus hauth hnot⟩,
      fun _ hworked => absurd hworked (hidle hevents)⟩
  | limited clientIp =>
    obtain ⟨hkey, hevents⟩ := h
    obtain ⟨res', hrun⟩ :=
      @run_rejectLimited lib (asked i).surr ⟨res, l, events⟩ clientIp
    rw [finished, afterCheck, hrun]
    have hevents' : ∀ event ∈ events ++ [.limiter (.getRemaining clientIp
        (asked i).surr.remaining)], event.isWork = false :=
      List.forall_mem_append.2 ⟨hevents, List.forall_mem_singleton.2 rfl⟩
    exact ⟨fun hauth _ => hkey hauth, fun hauth hnot => absurd (hkey hauth) hnot,
      fun _ hworked => absurd hworked (hidle hevents')⟩
  | proceeds clientIp =>
    exact ⟨fun hauth _ => h.1 hauth, fun hauth hnot => absurd (h.1 hauth) hnot,
      fun hlimiter _ => h.2 hlimiter⟩

/-- A lookup that may go on is granted what it asks for. -/
theorem mem_granted {s : Serving ι} {clientIp : String} {w' : World}
    (hroute : isLookup (asked i).route = true) (hphase : s.phase i = .waiting)
    (hbegun : begun lib srv asked i s.limiter = .ok (.proceeds clientIp) w') :
    ∃ a, (i, a) ∈ granted lib srv asked (getRealClientIp (asked i).req) s (.step i) := by
  refine ⟨⟨(asked i).surr.now, s.limiter.pruningReading (getRealClientIp (asked i).req)
    (asked i).surr.now (asked i).surr.pruned⟩, ?_⟩
  simp only [granted, hphase, hbegun, hroute, and_self, if_true]
  exact List.mem_singleton_self _

/-- What is granted is granted to a request, at its readings. -/
theorem eq_of_mem_granted {s : Serving ι} {client : String} {a : Admission TimePoint}
    {input : ServingInput ι}
    (h : (i, a) ∈ granted lib srv asked client s input) : a.recorded = (asked i).surr.now ∧
      (a.pruned = (asked i).surr.now ∨ a.pruned = (asked i).surr.pruned) := by
  cases input with
  | cleanup now => exact absurd h List.not_mem_nil
  | step j =>
    rw [granted] at h
    split at h
    · split at h
      · obtain ⟨rfl, rfl⟩ := Prod.mk.inj (List.mem_singleton.1 h)
        refine ⟨rfl, ?_⟩
        rw [RateLimiter.pruningReading]
        split
        · exact .inr rfl
        · exact .inl rfl
      · exact absurd h List.not_mem_nil
    · exact absurd h List.not_mem_nil

/-- What is granted in a step was admitted in it. -/
theorem granted_sublist_step (hlimiter : srv.enableRateLimiter = true) (client : String)
    (s : Serving ι) (input : ServingInput ι) :
    ((granted lib srv asked client s input).map Prod.snd).Sublist
      (s.limiter.admissions client (servingOps lib srv asked s input)) := by
  cases input with
  | cleanup now => exact List.nil_sublist _
  | step i =>
    cases hphase : s.phase i with
    | checked | answered =>
      simp only [granted, hphase, List.map_nil]
      exact List.nil_sublist _
    | waiting =>
      by_cases h : getRealClientIp (asked i).req = client ∧ isLookup (asked i).route = true
      · obtain ⟨rfl, hroute⟩ := h
        obtain ⟨verdict, w', hbegun, hchecked⟩ := @begun_cases lib srv ι asked i hroute s.limiter
        simp only [granted, servingOps, hphase, hbegun, hroute, and_self, if_true]
        cases hchecked with
        | unauthorized | unknown | limited => exact List.nil_sublist _
        | unlimited hkey hnone => exact absurd (hnone.symm.trans hlimiter) Bool.false_ne_true
        | admitted hkey hallowed =>
          have hadmitted := RateLimiter.admission?_of_admitted hallowed
          simp only [endState, World.call, List.nil_append, List.filterMap_cons, Event.limiterOp?,
            List.filterMap_nil, RateLimiter.admissions, Machine.emitted_cons, Machine.emitted_nil,
            hadmitted, Option.toList_some]
          exact .refl _
      · have hnil : granted lib srv asked client s (.step i) = [] := by
          simp only [granted, hphase]
          split
          · exact if_neg h
          · rfl
        rw [hnil]
        exact List.nil_sublist _

/-- The calls that a request makes of the limiter, and the readings they take. -/
theorem mem_servingOps {s : Serving ι} {op : LimiterOp}
    (h : op ∈ servingOps lib srv asked s (.step i)) :
    op = .isAllowed (getRealClientIp (asked i).req) (asked i).surr.now (asked i).surr.pruned ∨
      ∃ ip, op = .getRemaining ip (asked i).surr.remaining := by
  cases hphase : s.phase i with
  | waiting =>
    simp only [servingOps, hphase] at h
    cases hroute : isLookup (asked i).route with
    | true =>
      obtain ⟨verdict, w', hbegun, hchecked⟩ := @begun_cases lib srv ι asked i hroute s.limiter
      rw [hbegun] at h
      cases hchecked with
      | unauthorized | unknown | unlimited => exact absurd h List.not_mem_nil
      | admitted | limited => exact .inl (List.mem_singleton.1 h)
    | false =>
      rw [begun] at h
      cases hcase : (asked i).route with
      | lookupGet | lookupPost =>
        rw [hcase] at hroute
        exact absurd hroute.symm Bool.false_ne_true
      | passwordGet | passwordPost =>
        rw [hcase] at h
        exact absurd h List.not_mem_nil
  | checked verdict res events =>
    simp only [servingOps, hphase, finished] at h
    cases verdict with
    | rejected =>
      rw [show (endState (EStateM.run (afterCheck lib srv _ _ _ .rejected)
        ⟨res, s.limiter, events⟩)).events = events from rfl, List.drop_length] at h
      exact absurd h List.not_mem_nil
    | proceeds clientIp =>
      obtain ⟨-, new, hnew, hnone⟩ := @leaves_proceed lib srv (asked i).surr (asked i).req
        (asked i).route clientIp ⟨res, s.limiter, events⟩
      rw [afterCheck, hnew, List.drop_left, List.filterMap_eq_nil_iff.2 hnone] at h
      exact absurd h List.not_mem_nil
    | limited clientIp =>
      obtain ⟨res', hrun⟩ :=
        @run_rejectLimited lib (asked i).surr ⟨res, s.limiter, events⟩ clientIp
      rw [afterCheck, hrun] at h
      simp only [endState, World.call, List.drop_left] at h
      exact .inr ⟨clientIp, List.mem_singleton.1 h⟩
  | answered o =>
    simp only [servingOps, hphase] at h
    exact absurd h List.not_mem_nil

/-! ### Runs -/

variable [DecidableEq ι] {s : Serving ι}

/-- A request that is not interrupted is served as by `serve`. -/
theorem run_alone (h : s.phase i = .waiting) :
    let o := serve lib srv (asked i).surr (asked i).req (asked i).route s.limiter
    (serving lib srv asked).run s [.step i, .step i] =
      ⟨o.limiter, Function.update s.phase i (.answered o)⟩ := by
  intro o
  have ho : o = .ofResult ((checkRoute lib srv (asked i).surr (asked i).req (asked i).route >>=
      afterCheck lib srv (asked i).surr (asked i).req (asked i).route).run
        ⟨corsResponse, s.limiter, []⟩) := by
    rw [← handle_eq]
    rfl
  rw [EStateM.run_bind] at ho
  simp only [Machine.run_cons, Machine.run_nil, serving, h, Function.update_self]
  cases hbegun : begun lib srv asked i s.limiter with
  | ok verdict w =>
    have ho : o = .ofResult (finished lib srv asked i verdict w) := by
      rw [ho, show EStateM.run _ _ = _ from hbegun]
      rfl
    simp only [Phase.ofCheck, endState, Function.update_idem, ho, Outcome.limiter_ofResult]
  | error e w =>
    have ho : o = ⟨.error e, w.limiter, w.events⟩ := by
      rw [ho, show EStateM.run _ _ = _ from hbegun]
      rfl
    simp only [Phase.ofCheck, endState, ho]

/-- The limiter after a step is what the calls made of it. -/
theorem limiter_step (s : Serving ι) (input : ServingInput ι) :
    ((serving lib srv asked s input).2).limiter =
      RateLimiter.step.run s.limiter (servingOps lib srv asked s input) := by
  cases input with
  | cleanup now => rfl
  | step i =>
    cases hphase : s.phase i with
    | waiting =>
      obtain ⟨new, hnew, hlimiter⟩ := @tracked_checkRoute lib srv (asked i).surr
        (asked i).req (asked i).route ⟨corsResponse, s.limiter, []⟩
      simp only [serving, servingOps, hphase, begun, hnew, hlimiter, List.nil_append]
    | checked verdict res events =>
      obtain ⟨new, hnew, hlimiter⟩ := @tracked_afterCheck lib srv (asked i).surr
        (asked i).req (asked i).route verdict ⟨res, s.limiter, events⟩
      simp only [serving, servingOps, hphase, finished, hnew, hlimiter, List.drop_left]
    | answered o => simp only [serving, servingOps, hphase, Machine.run_nil]

/-- Where a lookup stands, with what the steps so far have granted. -/
theorem standing_run (l : RateLimiter) (inputs : List (ServingInput ι))
    (hroute : isLookup (asked i).route = true) :
    Standing lib srv asked i (∃ a, (i, a) ∈ (serving lib srv asked).emitted
        (granted lib srv asked (getRealClientIp (asked i).req)) (.new ι l) inputs)
      (((serving lib srv asked).run (.new ι l) inputs).phase i) := by
  induction inputs using List.reverseRecOn with
  | nil => trivial
  | append_singleton inputs input ih =>
    rw [Machine.run_concat]
    simp only [Machine.emitted_append, Machine.emitted_cons, Machine.emitted_nil, List.append_nil,
      List.mem_append]
    set s := (serving lib srv asked).run (.new ι l) inputs
    have hold : Standing lib srv asked i (∃ a, (i, a) ∈ (serving lib srv asked).emitted
        (granted lib srv asked (getRealClientIp (asked i).req)) (.new ι l) inputs ∨
          (i, a) ∈ granted lib srv asked (getRealClientIp (asked i).req) s input) (s.phase i) :=
      ih.mono fun ⟨a, ha⟩ => ⟨a, .inl ha⟩
    cases input with
    | cleanup now => exact hold
    | step j =>
      by_cases hj : i = j
      · subst hj
        cases hphase : s.phase i with
        | waiting =>
          simp only [serving, hphase, Function.update_self]
          exact standing_begun hroute fun clientIp w' hbegun =>
            (mem_granted hroute hphase hbegun).imp fun a ha => .inr ha
        | checked verdict res events =>
          rw [hphase] at hold
          simp only [serving, hphase, Function.update_self]
          exact standing_finished hold
        | answered o =>
          rw [hphase] at hold
          simp only [serving, hphase]
          exact hold
      -- the step of another request
      · cases hphase : s.phase j with
        | waiting | checked | answered =>
          simp only [serving, hphase, Function.update_of_ne hj]
          exact hold

/-- The calls of the limiter in a run without cleanups. -/
theorem mem_emitted_servingOps {inputs : List (ServingInput ι)}
    (hsteps : ∀ input ∈ inputs, ∃ i, input = .step i) {op : LimiterOp}
    (h : op ∈ (serving lib srv asked).emitted (servingOps lib srv asked) s inputs) :
    ∃ i, op = .isAllowed (getRealClientIp (asked i).req) (asked i).surr.now
        (asked i).surr.pruned ∨
      ∃ ip, op = .getRemaining ip (asked i).surr.remaining := by
  obtain ⟨pre, input, post, hinputs, hop⟩ := Machine.exists_of_mem_emitted _ h
  obtain ⟨i, rfl⟩ := hsteps input (hinputs ▸ List.mem_append_right pre List.mem_cons_self)
  exact ⟨i, mem_servingOps hop⟩

/-- What is granted in a run was admitted in it. -/
theorem granted_sublist (hlimiter : srv.enableRateLimiter = true) (client : String)
    (s : Serving ι) (inputs : List (ServingInput ι)) :
    (((serving lib srv asked).emitted (granted lib srv asked client) s inputs).map
      Prod.snd).Sublist (s.limiter.admissions client
        ((serving lib srv asked).emitted (servingOps lib srv asked) s inputs)) := by
  induction inputs generalizing s with
  | nil => exact List.nil_sublist _
  | cons input inputs ih =>
    rw [RateLimiter.admissions, Machine.emitted_cons, Machine.emitted_cons, Machine.emitted_append,
      List.map_append, ← limiter_step]
    exact (granted_sublist_step hlimiter client s input).append (ih _)

/-- In every order of steps, and with any cleanups in between, a lookup gets work done only with an
    accepted key, if keys are asked for, and without one is answered with 401. If there is a
    limiter, then of the lookups of a client that is not evicted, no more get work done whose calls
    of `is_allowed` are made within a minute than the client may make. -/
theorem limited_of_run (lib : Libraries) (config : ServerConfig) (keysFile : Option String)
    (lookupHandler macLookupHandler : Option LookupHandler) (asked : ι → Incoming)
    (inputs : List (ServingInput ι)) :
    let srv := new lib.sha256 config keysFile lookupHandler macLookupHandler
    let start := Serving.new ι (newLimiter config)
    let phase := ((serving lib srv asked).run start inputs).phase
    let ops := (serving lib srv asked).emitted (servingOps lib srv asked) start inputs
    (∀ i o, isLookup (asked i).route = true → phase i = .answered o →
      config.enableApiAuth = true →
      (o.worked = true → Authorized lib srv (asked i).req) ∧
      (¬Authorized lib srv (asked i).req → ∃ res, o.response = .ok res ∧ res.status = 401)) ∧
    (config.enableRateLimiter = true → ∀ client lo, RateLimiter.Clocked lo ops →
      RateLimiter.step.Along (fun l op => ¬l.Evicts op client) (newLimiter config) ops →
      ∀ t (working : Finset ι),
        (∀ i ∈ working, isLookup (asked i).route = true ∧
          getRealClientIp (asked i).req = client ∧ t ≤ (asked i).surr.now ∧
          (asked i).surr.now ≤ t + seconds 60 ∧ (asked i).surr.pruned ≤ t + seconds 60 ∧
          ∃ o, phase i = .answered o ∧ o.worked = true) →
        working.card ≤ config.maxRequestsPerMinute.toNat) := by
  intro srv start phase ops
  have hstanding {i : ι} {o : Outcome} (hroute : isLookup (asked i).route = true)
      (hphase : phase i = .answered o) : Standing lib srv asked i (∃ a, (i, a) ∈
        (serving lib srv asked).emitted (granted lib srv asked (getRealClientIp (asked i).req))
          start inputs) (.answered o) := by
    rw [← hphase]
    exact standing_run (newLimiter config) inputs hroute
  refine ⟨fun i o hroute hphase hauth => ?_, fun hlimiter client lo hclock hev t working h => ?_⟩
  · have hanswered := hstanding hroute hphase
    exact ⟨hanswered.1 hauth, hanswered.2.1 hauth⟩
  · have hle := RateLimiter.length_admissions_le hclock hev t
    have hsub := @granted_sublist lib srv ι asked _ hlimiter client start inputs
    set log := (serving lib srv asked).emitted (granted lib srv asked client) start inputs
    let within := fun a : Admission TimePoint =>
      decide (t ≤ a.recorded ∧ a.pruned ≤ t + seconds 60)
    -- each of the requests is in the log, with an admission in the minute
    have hmem : working ⊆ ((log.filter (within ∘ Prod.snd)).map Prod.fst).toFinset := by
      intro i hi
      obtain ⟨hroute, rfl, hnow, hnow', hpruned, o, hphase, hworked⟩ := h i hi
      obtain ⟨a, ha⟩ := (hstanding hroute hphase).2.2 hlimiter hworked
      obtain ⟨pre, input, post, -, hgranted⟩ := Machine.exists_of_mem_emitted _ ha
      obtain ⟨hrecorded, hreading⟩ := eq_of_mem_granted hgranted
      refine List.mem_toFinset.2 (List.mem_map.2 ⟨(i, a), List.mem_filter.2 ⟨ha, ?_⟩, rfl⟩)
      refine decide_eq_true ⟨hrecorded ▸ hnow, ?_⟩
      rcases hreading with heq | heq
      · exact heq ▸ hnow'
      · exact heq ▸ hpruned
    calc working.card
        ≤ ((log.filter (within ∘ Prod.snd)).map Prod.fst).toFinset.card :=
          Finset.card_le_card hmem
      _ ≤ ((log.filter (within ∘ Prod.snd)).map Prod.fst).length := List.toFinset_card_le _
      _ = ((log.map Prod.snd).filter within).length := by
          rw [List.filter_map, List.length_map, List.length_map]
      _ ≤ _ := (hsub.filter within).length_le
      _ ≤ config.maxRequestsPerMinute.toNat := hle

/-- The keyed request, made twice at the same time. -/
def keyedBoth (_ : Fin 2) : Incoming := ⟨.lookupGet, keyedRequest, .sample⟩

/-- The first one begins, and then the second one is done before it goes on. -/
def overtaking : List (ServingInput (Fin 2)) := [.step 0, .step 1, .step 1, .step 0]

/-- What comes of the two. -/
def overtaken : Fin 2 → Phase :=
  ((serving .sample keyedServer keyedBoth).run (.new (Fin 2) (newLimiter keyedConfig))
    overtaking).phase

/-- Work has been done for a request. -/
def Phase.worked : Phase → Bool
  | .answered o => o.worked
  | _ => false

theorem Phase.worked_eq_true {phase : Phase} (h : phase.worked = true) :
    ∃ o, phase = .answered o ∧ o.worked = true := by
  cases phase with
  | waiting | checked => exact absurd h Bool.false_ne_true
  | answered o => exact ⟨o, rfl, h⟩

theorem limited_of_run_overtaking :
    (overtaken 0).worked = true ∧ ¬(overtaken 1).worked = true := by
  have hworked : (overtaken 0).worked = true := by decide +kernel
  refine ⟨hworked, fun hworked' => ?_⟩
  have hlimited := (limited_of_run .sample keyedConfig none (some fun _ _ => .ok ⟨.null, false⟩)
    none keyedBoth overtaking).2 rfl "10.0.0.1" 0
  have hsteps : ∀ input ∈ overtaking, ∃ i, input = .step i := by
    simp [overtaking]
  have hops {op : LimiterOp} (h : op ∈ (serving .sample keyedServer keyedBoth).emitted
      (servingOps .sample keyedServer keyedBoth) (.new (Fin 2) (newLimiter keyedConfig))
      overtaking) : op = .isAllowed "10.0.0.1" 0 0 ∨ ∃ ip, op = .getRemaining ip 0 :=
    (mem_emitted_servingOps hsteps h).elim fun _ => id
  have hle : (Finset.univ : Finset (Fin 2)).card ≤ 1 := by
    refine hlimited (.of_still fun op hop => ?_) ?_ 0 Finset.univ fun i _ => ?_
    · obtain rfl | ⟨ip, rfl⟩ := hops hop
      · exact ⟨le_rfl, le_rfl, le_rfl⟩
      · exact ⟨le_rfl, le_rfl⟩
    · refine RateLimiter.not_evicts_of_caller 1 60 (by decide) fun op hop ip hcaller => ?_
      obtain rfl | ⟨ip', rfl⟩ := hops hop
      · exact (Option.some_inj.1 hcaller).symm
      · exact absurd hcaller (Option.some_ne_none ip).symm
    -- if the second one were worked on, both would be, within the minute
    · have hboth : ∀ i, (overtaken i).worked = true := Fin.forall_fin_two.2 ⟨hworked, hworked'⟩
      have hminute : (0 : TimePoint) ≤ 0 + seconds 60 := by decide
      exact ⟨rfl, rfl, le_rfl, hminute, hminute, Phase.worked_eq_true (hboth i)⟩
  exact absurd hle (by decide)

end IpServer.IPGeoHTTPServer
