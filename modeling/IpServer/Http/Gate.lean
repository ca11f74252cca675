import IpServer.Http.Effects
import IpServer.RateLimiter.SlidingLog

/-!
# Who gets work done

A request should get a handler or the generator to work only with an accepted key,
if keys are asked for, and only after the rate limiter has admitted its client, if
there is a limiter (`Gated`). The lookup routes see to that. The password routes do
not: they are `Gated` only where there is nothing to see to (`Unexposed`).

* `gated_iff`: which requests are gated.
* `served_sublist`: in a run of requests that are all gated, what a client gets served was
  admitted by the limiter.
* `gate_of_run`: in every run, the gated requests are the unexposed ones; and if all are, no
  client is served more often within a minute than it may be.
* `not_gated_passwordGet`: a password for anyone.
-/

namespace IpServer.IPGeoHTTPServer

open Handling SlidingWindow

variable (lib : Libraries) (srv : IPGeoHTTPServer) (surr : Surroundings) (req : Request)

/-- Work is done only for a key that is accepted and a client that is admitted. -/
structure Gated (limiter : RateLimiter) (o : Outcome) : Prop where
  authorized : srv.enableApiAuth = true → o.worked = true → Authorized lib srv req
  unauthorized : srv.enableApiAuth = true → ¬Authorized lib srv req →
    ∃ res, o.response = .ok res ∧ res.status = 401
  admitted : srv.enableRateLimiter = true → o.worked = true →
    (limiter.isAllowed (getRealClientIp req) surr.now surr.pruned).1 = true ∧
      ∃ rest, o.events = .limiter (.isAllowed (getRealClientIp req) surr.now surr.pruned) :: rest

/-- The parameters, or the body, are such that the generator is called. -/
def ReachesGenerator : Route → Prop
  | .passwordGet => ∃ length, PasswordHandler.lengthParam req = .ok length
  | .passwordPost => ∃ body, lib.json.parse req.body = .ok body ∧
      1 ≤ PasswordHandler.readInt body "count" 1 ∧
      PasswordHandler.readInt body "count" 1 ≤ srv.maxBatchSize
  | _ => False

/-- The request is a lookup, or it has a key if one is asked for and does not get as far as the
    generator if there is a limiter. -/
def Unexposed (route : Route) : Prop :=
  route = .lookupGet ∨ route = .lookupPost ∨
    (srv.enableApiAuth = true → Authorized lib srv req) ∧
    (srv.enableRateLimiter = true → ¬ReachesGenerator lib srv req route)

variable {lib srv surr req} {limiter : RateLimiter} {route : Route}

/-! ### The lookup routes -/

theorem gated_withClient {rest : String → Handling Unit} (hrest : ∀ clientIp, Guarantees
      (Leaves fun event => event.limiterOp? = none) (rest clientIp)) :
    Gated lib srv surr req limiter
      (.ofResult ((withClient lib srv surr req rest).run ⟨corsResponse, limiter, []⟩)) := by
  obtain ⟨w', hprepared, hrun⟩ | ⟨clientIp, w', hprepared, hrun⟩ :=
    @run_withClient lib srv surr req ⟨corsResponse, limiter, []⟩ rest
  · rw [hrun]
    cases hprepared with
    | unauthorized hauth hkey hstatus =>
      exact ⟨fun _ h => absurd h Bool.false_ne_true, fun _ _ => ⟨_, rfl, hstatus⟩,
        fun _ h => absurd h Bool.false_ne_true⟩
    | unknown hkey hip hstatus =>
      exact ⟨fun hauth _ => hkey hauth, fun hauth hnot => absurd (hkey hauth) hnot,
        fun _ h => absurd h Bool.false_ne_true⟩
    | limited hkey hip hlimiter hdenied hstatus =>
      exact ⟨fun hauth _ => hkey hauth, fun hauth hnot => absurd (hkey hauth) hnot,
        fun _ h => absurd h Bool.false_ne_true⟩
  -- what comes after the client is known does not call the limiter
  · obtain ⟨-, new, hnew, -⟩ := hrest clientIp w'
    rw [hrun]
    cases hprepared with
    | unlimited hkey hip hlimiter =>
      exact ⟨fun hauth _ => hkey hauth, fun hauth hnot => absurd (hkey hauth) hnot,
        fun h => absurd (hlimiter.symm.trans h) Bool.false_ne_true⟩
    | admitted hkey hip hlimiter hallowed =>
      exact ⟨fun hauth _ => hkey hauth, fun hauth hnot => absurd (hkey hauth) hnot,
        fun _ _ => ⟨hallowed, new, by rw [Outcome.events_ofResult, hnew]; rfl⟩⟩

/-! ### The password routes -/

/-- The password routes never call the limiter. -/
theorem limiterOp?_of_password (h : route = .passwordGet ∨ route = .passwordPost) :
    ∀ event ∈ (serve lib srv surr req route limiter).events, event.limiterOp? = none := by
  have hleaves : Guarantees (Leaves fun event => event.limiterOp? = none)
      (handle lib srv surr req route) := by
    rcases h with rfl | rfl
    · exact PasswordHandler.guarantees_handleGet (fun _ _ _ => leaves_sendJsonResponse _ _)
        fun _ h => leaves_emit h
    · exact PasswordHandler.guarantees_handlePost (fun _ _ _ => leaves_sendJsonResponse _ _)
        fun _ h => leaves_emit h
  obtain ⟨-, new, hnew, hP⟩ := hleaves ⟨corsResponse, limiter, []⟩
  rw [serve, Outcome.events_ofResult, hnew]
  exact hP

/-- The password routes never answer with 401. -/
theorem status_of_password (h : route = .passwordGet ∨ route = .passwordPost) {res : Response}
    (hres : (serve lib srv surr req route limiter).response = .ok res) : res.status ≠ 401 := by
  have hstatus : Guarantees (StatusIn {200, 400, 500}) (handle lib srv surr req route) := by
    have hsend (data : Json) (status : ℤ) (h : status ∈ [200, 400, 500]) :
        Guarantees (StatusIn {200, 400, 500}) (sendJsonResponse lib.json data status) :=
      guarantees_sendJsonResponse (statusIn_setStatus (by simpa using h)) statusIn_setContent data
    rcases h with rfl | rfl
    · exact PasswordHandler.guarantees_handleGet hsend fun event _ => statusIn_emit event
    · exact PasswordHandler.guarantees_handlePost hsend fun event _ => statusIn_emit event
  rw [← Outcome.response_ofResult hres]
  rintro heq
  have hmem := hstatus ⟨corsResponse, limiter, []⟩ (.inl rfl)
  rw [heq] at hmem
  simp at hmem

/-- Without work there is none from the start on. -/
theorem not_worked_of_leaves {r : EStateM.Result Exn World Unit}
    (h : Leaves (fun event => event.isWork = false) ⟨corsResponse, limiter, []⟩ (endState r)) :
    ¬(Outcome.ofResult r).worked = true := by
  obtain ⟨-, new, hnew, hP⟩ := h
  rw [Outcome.worked, Outcome.events_ofResult, hnew, Bool.not_eq_true]
  exact List.any_eq_false.2 fun event hevent => by simp [hP event hevent]

/-- The password routes do work exactly if they get as far as the generator. -/
theorem worked_iff_of_password (h : route = .passwordGet ∨ route = .passwordPost) :
    (serve lib srv surr req route limiter).worked = true ↔
      ReachesGenerator lib srv req route := by
  have hget : ∀ e, Guarantees (Leaves fun event => event.isWork = false)
      (PasswordHandler.catchGet lib.json e) := PasswordHandler.leaves_catchGet rfl
  have hpost : ∀ e, Guarantees (Leaves fun event => event.isWork = false)
      (PasswordHandler.catchPost lib.json e) := PasswordHandler.leaves_catchPost rfl
  rcases h with rfl | rfl
  · rw [serve, handle]
    cases hlength : PasswordHandler.lengthParam req with
    | error e =>
      refine iff_of_false ?_ fun ⟨length, hok⟩ => ?_
      · rw [PasswordHandler.run_handleGet_of_error hlength]
        exact not_worked_of_leaves (hget e _)
      · rw [hlength] at hok
        cases hok
    | ok length =>
      obtain ⟨new, hnew⟩ :=
        @PasswordHandler.events_handleGet lib.json lib.toDouble surr req _ length hlength
      refine iff_of_true ?_ ⟨length, hlength⟩
      rw [Outcome.worked, Outcome.events_ofResult, hnew]
      rfl
  · -- the count is checked before the generator is asked
    rw [serve, handle]
    cases hbody : lib.json.parse req.body with
    | error what =>
      refine iff_of_false ?_ fun ⟨body, hok, _⟩ => ?_
      · rw [PasswordHandler.run_handlePost_of_error hbody]
        exact not_worked_of_leaves (hpost _ _)
      · rw [hbody] at hok
        cases hok
    | ok body =>
      by_cases hcount : 1 ≤ PasswordHandler.readInt body "count" 1 ∧
          PasswordHandler.readInt body "count" 1 ≤ srv.maxBatchSize
      · obtain ⟨new, hnew⟩ := PasswordHandler.events_handlePost hbody hcount.1 hcount.2
        refine iff_of_true ?_ ⟨body, hbody, hcount⟩
        rw [Outcome.worked, Outcome.events_ofResult, hnew]
        rfl
      · refine iff_of_false ?_ fun ⟨body', hok, hcount'⟩ => ?_
        · have hcount : PasswordHandler.readInt body "count" 1 < 1 ∨
              srv.maxBatchSize < PasswordHandler.readInt body "count" 1 := by omega
          obtain ⟨message, -, hrun⟩ := PasswordHandler.run_handlePost_of_count hbody hcount
          rw [hrun]
          exact not_worked_of_leaves (Guarantees.tryCatch (leaves_sendJsonResponse _ _) hpost _)
        · rw [hbody] at hok
          exact hcount (Except.ok.inj hok ▸ hcount')

/-- Which requests are gated. -/
theorem gated_iff (lib : Libraries) (srv : IPGeoHTTPServer) (surr : Surroundings) (req : Request)
    (route : Route) (limiter : RateLimiter) :
    Gated lib srv surr req limiter (serve lib srv surr req route limiter) ↔
      Unexposed lib srv req route := by
  have hpassword (h : route = .passwordGet ∨ route = .passwordPost) :
      Gated lib srv surr req limiter (serve lib srv surr req route limiter) ↔
        (srv.enableApiAuth = true → Authorized lib srv req) ∧
        (srv.enableRateLimiter = true → ¬ReachesGenerator lib srv req route) := by
    constructor
    · rintro ⟨hauthorized, hunauthorized, hadmitted⟩
      refine ⟨fun hauth => ?_, fun hlimiter hreach => ?_⟩
      · by_contra hkey
        obtain ⟨res, hres, hstatus⟩ := hunauthorized hauth hkey
        exact status_of_password h hres hstatus
      · obtain ⟨-, rest, hrest⟩ := hadmitted hlimiter ((worked_iff_of_password h).2 hreach)
        have hop := limiterOp?_of_password h _ (hrest ▸ List.mem_cons_self)
        exact absurd hop (by simp [Event.limiterOp?])
    · rintro ⟨hkey, hreach⟩
      exact ⟨fun hauth _ => hkey hauth, fun hauth hnot => absurd (hkey hauth) hnot,
        fun hlimiter hworked => absurd ((worked_iff_of_password h).1 hworked) (hreach hlimiter)⟩
  cases route with
  | lookupGet => exact iff_of_true (gated_withClient leaves_lookupGet) (.inl rfl)
  | lookupPost => exact iff_of_true (gated_withClient fun _ => leaves_lookupPost) (.inr (.inl rfl))
  | passwordGet => rw [hpassword (.inl rfl), Unexposed]; simp
  | passwordPost => rw [hpassword (.inr rfl), Unexposed]; simp

/-! ### Runs -/

/-- What happens to the server: a request, or a cleanup of the limiter. -/
inductive ServerInput
  | request (route : Route) (req : Request) (surr : Surroundings)
  | cleanup (now : String → TimePoint)

variable (lib srv)

/-- The server as a machine, whose state is the limiter. -/
def step : Machine RateLimiter ServerInput (Option Outcome)
  | l, .request route req surr =>
    (some (serve lib srv surr req route l), (serve lib srv surr req route l).limiter)
  | l, .cleanup now => (none, l.cleanup now)

/-- The calls of the limiter. -/
def limiterOps (l : RateLimiter) : ServerInput → List LimiterOp
  | .request route req surr => (serve lib srv surr req route l).events.filterMap Event.limiterOp?
  | .cleanup now => [.cleanup now]

/-- The admission of a request for which work was done, if it is one of the client. -/
def served (client : String) (l : RateLimiter) : ServerInput → List (Admission TimePoint)
  | .request route req surr =>
    if (serve lib srv surr req route l).worked ∧ getRealClientIp req = client then
      [⟨surr.now, l.pruningReading client surr.now surr.pruned⟩]
    else []
  | .cleanup _ => []

variable {lib srv}

/-- The limiter after a step is what the calls made of it. -/
theorem step_eq (l : RateLimiter) (input : ServerInput) :
    (step lib srv l input).2 = RateLimiter.step.run l (limiterOps lib srv l input) := by
  cases input with
  | request route req surr =>
    obtain ⟨new, hnew, hlimiter⟩ := @tracked_handle lib srv surr req route ⟨corsResponse, l, []⟩
    rw [step, limiterOps, serve, Outcome.limiter_ofResult, Outcome.events_ofResult, hnew, hlimiter]
    rfl
  | cleanup now => rfl

/-- A lookup calls the limiter for its client only, at its own readings. -/
theorem limiterOp_of_withClient {rest : String → Handling Unit} (hrest : ∀ clientIp, Guarantees
      (Leaves fun event => event.limiterOp? = none) (rest clientIp)) {event : Event}
    (hevent : event ∈ (endState
      ((withClient lib srv surr req rest).run ⟨corsResponse, limiter, []⟩)).events)
    {op : LimiterOp} (hop : event.limiterOp? = some op) :
    op = .isAllowed (getRealClientIp req) surr.now surr.pruned ∨
      op = .getRemaining (getRealClientIp req) surr.remaining := by
  have hcall {op' : LimiterOp} (h : event = .limiter op') : op' = op :=
    Option.some_inj.1 ((congrArg Event.limiterOp? h).symm.trans hop)
  obtain ⟨w', hprepared, hrun⟩ | ⟨clientIp, w', hprepared, hrun⟩ :=
    @run_withClient lib srv surr req ⟨corsResponse, limiter, []⟩ rest
  · rw [hrun] at hevent
    cases hprepared with
    | unauthorized | unknown => exact absurd hevent List.not_mem_nil
    | limited =>
      obtain h | h : _ ∨ _ := by simpa [endState, World.call] using hevent
      · exact .inl (hcall h).symm
      · exact .inr (hcall h).symm
  · obtain ⟨-, new, hnew, hnone⟩ := hrest clientIp w'
    rw [hrun, hnew] at hevent
    rcases List.mem_append.1 hevent with hevent | hevent
    · cases hprepared with
      | unlimited => exact absurd hevent List.not_mem_nil
      | admitted => exact .inl (hcall (List.mem_singleton.1 hevent)).symm
    · exact absurd ((hnone event hevent).symm.trans hop) (Option.some_ne_none op).symm

/-- What a request calls of the limiter. -/
theorem eq_of_mem_limiterOps {l : RateLimiter} {op : LimiterOp}
    (h : op ∈ limiterOps lib srv l (.request route req surr)) :
    op = .isAllowed (getRealClientIp req) surr.now surr.pruned ∨
      op = .getRemaining (getRealClientIp req) surr.remaining := by
  obtain ⟨event, hevent, hop⟩ := List.mem_filterMap.1 h
  have hpassword (h : route = .passwordGet ∨ route = .passwordPost) : False :=
    absurd ((limiterOp?_of_password h event hevent).symm.trans hop) (Option.some_ne_none op).symm
  cases route with
  | lookupGet =>
    rw [serve, Outcome.events_ofResult] at hevent
    exact limiterOp_of_withClient leaves_lookupGet hevent hop
  | lookupPost =>
    rw [serve, Outcome.events_ofResult] at hevent
    exact limiterOp_of_withClient (fun _ => leaves_lookupPost) hevent hop
  | passwordGet => exact (hpassword (.inl rfl)).elim
  | passwordPost => exact (hpassword (.inr rfl)).elim

/-- What a gated request of a client gets served was admitted. -/
theorem served_sublist_step (hlimiter : srv.enableRateLimiter = true) (client : String)
    (l : RateLimiter) {input : ServerInput}
    (h : ∀ route req surr, input = .request route req surr →
      Gated lib srv surr req l (serve lib srv surr req route l)) :
    (served lib srv client l input).Sublist (l.admissions client (limiterOps lib srv l input)) := by
  cases input with
  | cleanup now => exact List.nil_sublist _
  | request route req surr =>
    rw [served]
    split
    · next hworked =>
      obtain ⟨hworked, rfl⟩ := hworked
      obtain ⟨hallowed, rest, hrest⟩ := (h route req surr rfl).admitted hlimiter hworked
      rw [limiterOps, hrest]
      simp only [List.filterMap_cons, Event.limiterOp?, RateLimiter.admissions,
        Machine.emitted_cons, RateLimiter.admission?_of_admitted hallowed, Option.toList_some]
      exact List.sublist_append_left _ _
    · exact List.nil_sublist _

/-- In a run of gated requests, what a client gets served was admitted. -/
theorem served_sublist (hlimiter : srv.enableRateLimiter = true) (client : String)
    (l : RateLimiter) {inputs : List ServerInput}
    (h : ∀ route req surr, .request route req surr ∈ inputs → Unexposed lib srv req route) :
    ((step lib srv).emitted (served lib srv client) l inputs).Sublist
      (l.admissions client ((step lib srv).emitted (limiterOps lib srv) l inputs)) := by
  induction inputs generalizing l with
  | nil => exact List.nil_sublist _
  | cons input inputs ih =>
    rw [RateLimiter.admissions, Machine.emitted_cons, Machine.emitted_cons, Machine.emitted_append,
      ← step_eq]
    refine (served_sublist_step hlimiter client l fun route req surr heq => ?_).append
      (ih _ fun route req surr hmem => h route req surr (List.mem_cons_of_mem _ hmem))
    exact (gated_iff lib srv surr req route l).2 (h route req surr (heq ▸ List.mem_cons_self))

/-- In a run of gated requests, no client that is not evicted is served more often within a
    minute than it may be. -/
theorem length_served_le {maxRequests : ℤ} {maxIpRecords : ℕ} {inputs : List ServerInput}
    {client : String} {lo : TimePoint} (hlimiter : srv.enableRateLimiter = true)
    (h : ∀ route req surr, .request route req surr ∈ inputs → Unexposed lib srv req route)
    (hclock : RateLimiter.Clocked lo ((step lib srv).emitted (limiterOps lib srv)
      (.new maxRequests 60 maxIpRecords) inputs))
    (hev : RateLimiter.step.Along (fun l op => ¬l.Evicts op client)
      (.new maxRequests 60 maxIpRecords) ((step lib srv).emitted (limiterOps lib srv)
        (.new maxRequests 60 maxIpRecords) inputs)) (t : TimePoint) :
    (((step lib srv).emitted (served lib srv client) (.new maxRequests 60 maxIpRecords)
      inputs).filter fun a => decide (t ≤ a.recorded ∧ a.pruned ≤ t + seconds 60)).length ≤
      maxRequests.toNat := by
  have hsub := served_sublist hlimiter client (.new maxRequests 60 maxIpRecords) h
  set ops := (step lib srv).emitted (limiterOps lib srv) (.new maxRequests 60 maxIpRecords) inputs
  rw [← List.append_nil ops] at hclock
  obtain ⟨mid, htracks, -⟩ := RateLimiter.tracks_run (RateLimiter.inv_new _ _ _)
    (RateLimiter.tracks_new _ _ _ lo client) hclock hev
  obtain ⟨hmax, hwindow, -⟩ := RateLimiter.run_params (.new maxRequests 60 maxIpRecords) ops
  have hle := htracks.paced.length_within_le htracks.sorted t
  rw [hmax, hwindow, List.nil_append] at hle
  exact ((hsub.filter _).length_le).trans hle

/-- In every run of the server, the gated requests are the unexposed ones. If all of them are,
    and there is a limiter, then no client that is not evicted is served more often within a
    minute than it may be. -/
theorem gate_of_run (lib : Libraries) (config : ServerConfig) (keysFile : Option String)
    (lookupHandler macLookupHandler : Option LookupHandler) (inputs : List ServerInput) :
    let srv := new lib.sha256 config keysFile lookupHandler macLookupHandler
    (∀ pre route req surr post, inputs = pre ++ .request route req surr :: post →
      (Gated lib srv surr req ((step lib srv).run (newLimiter config) pre)
        (serve lib srv surr req route ((step lib srv).run (newLimiter config) pre)) ↔
      Unexposed lib srv req route)) ∧
    ((∀ route req surr, .request route req surr ∈ inputs → Unexposed lib srv req route) →
      config.enableRateLimiter = true → ∀ client lo,
      RateLimiter.Clocked lo
        ((step lib srv).emitted (limiterOps lib srv) (newLimiter config) inputs) →
      RateLimiter.step.Along (fun l op => ¬l.Evicts op client) (newLimiter config)
        ((step lib srv).emitted (limiterOps lib srv) (newLimiter config) inputs) →
      ∀ t, (((step lib srv).emitted (served lib srv client) (newLimiter config) inputs).filter
        fun a => decide (t ≤ a.recorded ∧ a.pruned ≤ t + seconds 60)).length ≤
        config.maxRequestsPerMinute.toNat) := by
  intro srv
  refine ⟨fun pre route req surr post _ => gated_iff lib srv surr req route _, ?_⟩
  intro h hlimiter client lo hclock hev t
  exact length_served_le hlimiter h hclock hev t

/-- A request without any headers or parameters. -/
def bareRequest : Request := ⟨fun _ => "", fun _ => "", "", "10.0.0.1"⟩

/-- A server that asks for the key "secret", allows one lookup a minute, and knows nothing of any
    address. -/
def keyedConfig : ServerConfig :=
  { enableApiAuth := true, defaultApiKey := "secret", maxRequestsPerMinute := 1 }

def keyedServer : IPGeoHTTPServer :=
  new Libraries.sample.sha256 keyedConfig none (some fun _ _ => .ok ⟨.null, false⟩) none

/-- A request with that key. -/
def keyedRequest : Request :=
  { bareRequest with header := fun name => if name = "Authorization" then "Bearer secret" else "" }

/-- It is made twice, with all clocks at `0`. -/
def keyedTwice : List ServerInput :=
  List.replicate 2 (.request .lookupGet keyedRequest .sample)

theorem gate_of_run_keyedTwice :
    let step := step .sample keyedServer
    let start := newLimiter keyedConfig
    (Gated .sample keyedServer .sample keyedRequest (step.run start (keyedTwice.take 1))
      (serve .sample keyedServer .sample keyedRequest .lookupGet
        (step.run start (keyedTwice.take 1)))) ∧
    ((step.emitted (served .sample keyedServer "10.0.0.1") start keyedTwice).filter fun a =>
      decide ((0 : TimePoint) ≤ a.recorded ∧ a.pruned ≤ 0 + seconds 60)).length ≤ 1 := by
  obtain ⟨hgated, hserved⟩ := gate_of_run .sample keyedConfig none
    (some fun _ _ => .ok ⟨.null, false⟩) none keyedTwice
  have hinput : ∀ input ∈ keyedTwice, input = .request .lookupGet keyedRequest .sample :=
    fun input => List.eq_of_mem_replicate
  have hops : ∀ op ∈ (step .sample keyedServer).emitted (limiterOps .sample keyedServer)
      (newLimiter keyedConfig) keyedTwice,
      op = .isAllowed "10.0.0.1" 0 0 ∨ op = .getRemaining "10.0.0.1" 0 := by
    intro op hop
    obtain ⟨pre, input, post, hinputs, hcalled⟩ := Machine.exists_of_mem_emitted _ hop
    obtain rfl := hinput input (hinputs ▸ List.mem_append_right pre List.mem_cons_self)
    exact eq_of_mem_limiterOps hcalled
  refine ⟨(hgated _ .lookupGet _ .sample [] rfl).2 (.inl rfl), hserved ?_ rfl _ 0 ?_ ?_ 0⟩
  · rintro route req surr hmem
    obtain ⟨rfl, -, -⟩ := ServerInput.request.inj (hinput _ hmem)
    exact .inl rfl
  · refine .of_still fun op hop => ?_
    obtain rfl | rfl := hops op hop
    · exact ⟨le_rfl, le_rfl, le_rfl⟩
    · exact ⟨le_rfl, le_rfl⟩
  · refine RateLimiter.not_evicts_of_caller 1 60 (by decide) fun op hop ip hcaller => ?_
    obtain rfl | rfl := hops op hop
    · exact (Option.some_inj.1 hcaller).symm
    · exact absurd hcaller (Option.some_ne_none ip).symm

/-- A server that asks for the key "secret". -/
def guarded : IPGeoHTTPServer :=
  new Libraries.sample.sha256 { enableApiAuth := true, defaultApiKey := "secret" } none none none

/-- Without a key, a password is generated all the same. -/
theorem not_gated_passwordGet :
    ((serve .sample guarded .sample bareRequest .passwordGet (newLimiter {})).response.map
      (·.status)).toOption = some 200 ∧
    ¬Gated .sample guarded .sample bareRequest (newLimiter {})
      (serve .sample guarded .sample bareRequest .passwordGet (newLimiter {})) := by
  have hreach : ReachesGenerator .sample guarded bareRequest .passwordGet := ⟨16, rfl⟩
  refine ⟨by decide +kernel, fun h => ?_⟩
  obtain ⟨apiAuth, key, -, hkey, -⟩ :=
    h.authorized rfl ((worked_iff_of_password (.inl rfl)).2 hreach)
  exact absurd hkey.symm (by simp [bareRequest])

end IpServer.IPGeoHTTPServer
