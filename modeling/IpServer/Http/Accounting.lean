import IpServer.Http.Batch
import IpServer.Library.Interleaving

/-!
# Requests and errors

What a request adds to the metrics: first the requests that it records, then an error,
if the exception that ends it is caught by a clause that records one. Neither depends on
the other: a handler that throws at once leaves an error without a request.

* `accounts_serve`: what comes of a request, in these terms.
* `sound_iff`: when the statistics make sense, in every interleaving of some requests.
-/

namespace IpServer

namespace IPGeoHTTPServer

open Handling Json

variable (lib : Libraries) (srv : IPGeoHTTPServer) (surr : Surroundings) (req : Request)

/-! ### What is tried -/

/-- What is done with what the generator made: the number of requests recorded, and the exception
    that ends it, if one does. -/
def triedAnswer {α : Type} (made : Except Exn α) (json : α → Json) : ℕ × Option Exn :=
  match made with
  | .error e => (0, some e)
  | .ok made => (1, thrown? (lib.json.dump (json made)))

/-- A single lookup. -/
def triedGet (clientIp : String) : ℕ × Option Exn :=
  let isMac := decide (req.param "mac" ≠ "")
  if req.param "mac" ≠ "" ∧ req.param "ip" ≠ "" then (0, none)
  else if !isValidFormat lib isMac (queryOf req clientIp) then (0, none)
  else
    match srv.handlerFor isMac with
    | none => (0, none)
    | some handler => triedAnswer lib (handler (surr.moment 0) (queryOf req clientIp)) (·.data)

/-- The lookups of the items of a batch. -/
def triedBatch (isMac : Bool) (items : List Json) : ℕ × Option Exn :=
  match srv.handlerFor isMac with
  | none => (0, none)
  | some handler =>
    if (items.length : ℤ) > srv.maxBatchSize then (0, none)
    else
      let batch := Futures.collected (lookups surr handler 0 (accepted lib isMac items))
      (batch.1.length, batch.2.or (thrown? (lib.json.dump (.array (batch.1.map (·.data))))))

/-- A batch of lookups. -/
def triedPost : ℕ × Option Exn :=
  match lib.json.parse req.body with
  | .error what => (0, some (.json what))
  | .ok body =>
    match arrayAt body "ips", arrayAt body "macs" with
    | some ips, none => triedBatch lib srv surr false ips
    | none, some macs => triedBatch lib srv surr true macs
    | _, _ => (0, none)

/-- A password. -/
def triedPasswordGet : ℕ × Option Exn :=
  match PasswordHandler.lengthParam req with
  | .error e => (0, some e)
  | .ok length =>
    triedAnswer lib (surr.generator.generate (PasswordHandler.configOfParams req length))
      (PasswordHandler.passwordJson lib.toDouble)

/-- A batch of passwords. -/
def triedPasswordPost : ℕ × Option Exn :=
  match lib.json.parse req.body with
  | .error what => (0, some (.json what))
  | .ok body =>
    let count := PasswordHandler.readInt body "count" 1
    if count < 1 ∨ srv.maxBatchSize < count then (0, none)
    else
      triedAnswer lib (surr.generator.generateBatch (PasswordHandler.configOfBody body) count)
        (PasswordHandler.passwordsJson lib.toDouble)

/-- Whether the catch clauses of a route record an error: none does on an exception that it cannot
    report. -/
def recordsError : Route → Exn → Bool
  | .lookupGet, .json what | .lookupGet, .invalidArgument what | .lookupGet, .std what =>
    validUtf8 what
  | .lookupPost, .invalidArgument what | .lookupPost, .std what => validUtf8 what
  | .passwordGet, .json what | .passwordGet, .std what => validUtf8 what
  | .passwordPost, .std what => validUtf8 what
  | _, _ => false

variable {lib srv surr req} {w : World} {n m : ℕ} {thrown : Option Exn} {err : Bool}

/-- What is tried records `n` requests, and ends with an exception or returns. -/
def Tries {α : Type} (t : ℕ × Option Exn) (w : World) (r : EStateM.Result Exn World α) : Prop :=
  Counts t.1 w (endState r) ∧
    match r with
    | .ok _ _ => t.2 = none
    | .error e _ => t.2 = some e

/-- A handler records `n` requests, and then an error if `err` holds. -/
def Accounts (n : ℕ) (err : Bool) (w : World) (r : EStateM.Result Exn World Unit) : Prop :=
  ∃ w', Counts n w w' ∧ (endState r).events =
    w'.events ++ if err then [.metrics .recordError] else []

theorem Counts.accounts {w' : World} {r : EStateM.Result Exn World Unit} (h : Counts n w w')
    (hr : Accounts m err w' r) : Accounts (n + m) err w r := by
  obtain ⟨w'', hcounts, hevents⟩ := hr
  exact ⟨w'', h.trans hcounts, hevents⟩

theorem Counts.tries {α : Type} {w' : World} {t : ℕ × Option Exn}
    {r : EStateM.Result Exn World α} (h : Counts n w w') (hr : Tries t w' r) :
    Tries (n + t.1, t.2) w r :=
  ⟨h.trans hr.1, hr.2⟩

/-- What is tried is accounted for by what catches its exception. -/
theorem Tries.accounts {x : Handling Unit} {t : ℕ × Option Exn} (h : Tries t w (x.run w))
    {handler : Exn → Handling Unit} {err : Exn → Bool}
    (hhandler : ∀ e w', Accounts 0 (err e) w' ((handler e).run w')) :
    Accounts t.1 (t.2.any err) w ((tryCatch x handler).run w) := by
  obtain ⟨hcounts, hthrown⟩ := h
  rw [run_tryCatch]
  cases hrun : x.run w with
  | ok a w' =>
    rw [hrun] at hcounts hthrown
    rw [hthrown]
    exact ⟨w', hcounts, (List.append_nil _).symm⟩
  | error e w' =>
    rw [hrun] at hcounts hthrown
    rw [hthrown]
    exact hcounts.accounts (hhandler e w')

/-- The first part of what is tried has thrown an exception. -/
theorem Tries.of_error {α β : Type} {x : Handling β} {f : β → Handling α} {e : Exn} {w' : World}
    (h : Counts n w w') (hrun : x.run w = .error e w') : Tries (n, some e) w ((x >>= f).run w) := by
  rw [EStateM.run_bind, hrun]
  exact ⟨h, rfl⟩

/-- An error response that can be sent leaves the metrics alone. -/
theorem tries_sendErrorResponse {status : ℤ} {error message : String}
    (herror : validUtf8 error = true) (hmessage : validUtf8 message = true) :
    Tries (0, none) w ((sendErrorResponse lib.json status error message).run w) := by
  rw [run_sendErrorResponse status herror hmessage]
  exact ⟨.of_events_eq rfl, rfl⟩

theorem tries_sendJsonResponse (data : Json) (status : ℤ) :
    Tries (0, thrown? (lib.json.dump data)) w ((sendJsonResponse lib.json data status).run w) := by
  rw [run_sendJsonResponse]
  cases lib.json.dump data with
  | ok body => exact ⟨.of_events_eq rfl, rfl⟩
  | error e => exact ⟨.of_events_eq rfl, rfl⟩

theorem tries_setContent (data : Json) (contentType : String) :
    Tries (0, thrown? (lib.json.dump data)) w
      ((ofExcept (lib.json.dump data) >>= fun body => setContent body contentType).run w) := by
  cases lib.json.dump data with
  | ok body => exact ⟨.of_events_eq rfl, rfl⟩
  | error e => exact ⟨.of_events_eq rfl, rfl⟩

/-- What a call makes is recorded before it is sent. -/
theorem tries_answer {α : Type} {event : Event} (hrequest : event.isRequest = false)
    (herror : event.isError = false) (made : Except Exn α) (json : α → Json)
    (send : Json → Handling Unit) (hsend : ∀ (data : Json) (w : World),
      Tries (0, thrown? (lib.json.dump data)) w ((send data).run w)) :
    Tries (triedAnswer lib made json) w ((emit event >>= fun _ => ofExcept made >>= fun made =>
      recordRequest surr 0 >>= fun _ => send (json made)).run w) := by
  have hcall : Counts 0 w { w with events := w.events ++ [event] } :=
    ⟨[event], rfl, by simp [hrequest], by simp [herror]⟩
  rw [EStateM.run_bind, run_emit]
  dsimp only
  cases made with
  | error e =>
    rw [EStateM.run_bind, run_ofExcept_error]
    exact ⟨hcall, rfl⟩
  | ok made =>
    rw [EStateM.run_bind, run_ofExcept_ok]
    dsimp only
    rw [EStateM.run_bind, run_recordRequest]
    have hrecorded := recorded_request { w with events := w.events ++ [event] }
      (surr.elapsed 0) (surr.recorded 0)
    exact (hcall.trans hrecorded.counts).tries (hsend _ _)

/-! ### What catches an exception -/

theorem accounts_internalError (what : String) :
    Accounts 0 (validUtf8 what) w ((internalError lib.json what).run w) := by
  obtain ⟨hvalid, res, hrun⟩ | ⟨hvalid, e, res, hrun⟩ := @run_internalError lib.json w what
  · rw [hrun, hvalid]
    exact ⟨w, .refl w, rfl⟩
  · rw [hrun, Bool.eq_false_iff.2 hvalid]
    exact ⟨w, .refl w, (List.append_nil _).symm⟩

theorem accounts_sendErrorResponse (status : ℤ) (error message : String) :
    Accounts 0 false w ((sendErrorResponse lib.json status error message).run w) :=
  ⟨_, (@tries_sendJsonResponse lib w (errorJson error message) status).1,
    (List.append_nil _).symm⟩

theorem accounts_throw (e : Exn) : Accounts 0 false w ((throw e : Handling Unit).run w) :=
  ⟨w, .refl w, (List.append_nil _).symm⟩

theorem accounts_catchGet (e : Exn) :
    Accounts 0 (recordsError .lookupGet e) w ((catchGet lib e).run w) := by
  cases e with
  | foreign => exact accounts_throw _
  | json what | invalidArgument what | std what =>
    have hkey : validUtf8 "error" = true := validUtf8_of_ascii (by decide)
    have hdump : (∃ text, lib.json.dump (Json.null.set "error" (.string what)) = .ok text) ↔
        validUtf8 what = true := by
      rw [JsonLibrary.dump_eq_ok]
      simp [Json.set, isUtf8Text, areUtf8Members, hkey]
    rw [catchGet, recordsError]
    simp only [Exn.what?, EStateM.run_bind, run_setStatus]
    cases htext : lib.json.dump (Json.null.set "error" (.string what)) with
    | ok text =>
      rw [hdump.1 ⟨text, htext⟩]
      exact ⟨w, .refl w, rfl⟩
    | error e =>
      have hnot : validUtf8 what = false := by
        rw [Bool.eq_false_iff]
        intro hvalid
        obtain ⟨text, hok⟩ := hdump.2 hvalid
        cases htext.symm.trans hok
      rw [hnot]
      exact ⟨w, .refl w, (List.append_nil _).symm⟩

theorem accounts_catchPost (e : Exn) :
    Accounts 0 (recordsError .lookupPost e) w ((catchPost lib e).run w) := by
  cases e with
  | json what => exact accounts_sendErrorResponse _ _ _
  | foreign => exact accounts_throw _
  | invalidArgument what | std what => exact accounts_internalError what

theorem accounts_catchPasswordGet (e : Exn) :
    Accounts 0 (recordsError .passwordGet e) w ((PasswordHandler.catchGet lib.json e).run w) := by
  cases e with
  | invalidArgument what => exact accounts_sendErrorResponse _ _ _
  | foreign => exact accounts_throw _
  | json what | std what => exact accounts_internalError what

theorem accounts_catchPasswordPost (e : Exn) :
    Accounts 0 (recordsError .passwordPost e) w ((PasswordHandler.catchPost lib.json e).run w) := by
  cases e with
  | json what | invalidArgument what => exact accounts_sendErrorResponse _ _ _
  | foreign => exact accounts_throw _
  | std what => exact accounts_internalError what

/-! ### The routes -/

theorem accounts_lookupGet (clientIp : String) :
    Accounts (triedGet lib srv surr req clientIp).1
      ((triedGet lib srv surr req clientIp).2.any (recordsError .lookupGet)) w
      ((lookupGet lib srv surr req clientIp).run w) := by
  rw [lookupGet, triedGet]
  split
  · exact accounts_sendErrorResponse _ _ _
  · refine Tries.accounts ?_ fun e w' => accounts_catchGet e
    split
    · exact tries_sendErrorResponse validUtf8_badRequest (validUtf8_invalidFormat _)
    · cases srv.handlerFor (decide (req.param "mac" ≠ "")) with
      | none =>
        exact tries_sendErrorResponse validUtf8_internalServerError (validUtf8_notConfigured _)
      | some handler =>
        exact tries_answer rfl rfl (handler (surr.moment 0) (queryOf req clientIp)) (·.data)
          (fun data => ofExcept (lib.json.dump data) >>= fun body =>
            setContent body "application/json") fun data w => tries_setContent data _

/-- A batch is tried, query by query. -/
theorem tries_lookupBatch (isMac : Bool) (items : List Json) :
    Tries (triedBatch lib srv surr isMac items) w
      ((lookupBatch lib srv surr isMac items).run w) := by
  rw [lookupBatch, triedBatch]
  cases srv.handlerFor isMac with
  | none => exact tries_sendErrorResponse validUtf8_internalServerError (validUtf8_notConfigured _)
  | some handler =>
    dsimp only
    split
    · obtain ⟨text, htext⟩ := @dump_batchJson lib srv items.length
      have h := @tries_sendJsonResponse lib w (srv.batchJson items.length) 400
      rw [htext] at h
      exact h
    · obtain ⟨w', hrecorded, hrun⟩ :=
        @run_lookupAll surr w handler isMac (accepted lib isMac items)
      generalize Futures.collected (lookups surr handler 0 (accepted lib isMac items)) = batch
        at hrecorded hrun ⊢
      obtain ⟨results, thrown⟩ := batch
      cases thrown with
      | some e => exact .of_error hrecorded.counts hrun
      | none =>
        rw [EStateM.run_bind, hrun]
        exact hrecorded.counts.tries (tries_setContent (.array (results.map (·.data))) _)

theorem accounts_lookupPost :
    Accounts (triedPost lib srv surr req).1
      ((triedPost lib srv surr req).2.any (recordsError .lookupPost)) w
      ((lookupPost lib srv surr req).run w) := by
  rw [lookupPost, triedPost]
  refine Tries.accounts ?_ fun e w' => accounts_catchPost e
  cases lib.json.parse req.body with
  | error what => exact .of_error (.refl w) (run_ofExcept_error _)
  | ok body =>
    rw [Except.mapError, EStateM.run_bind, run_ofExcept_ok]
    dsimp only
    cases arrayAt body "ips" with
    | none =>
      cases arrayAt body "macs" with
      | none => exact tries_sendErrorResponse validUtf8_badRequest (validUtf8_of_ascii (by decide))
      | some macs => exact tries_lookupBatch true macs
    | some ips =>
      cases arrayAt body "macs" with
      | none => exact tries_lookupBatch false ips
      | some macs =>
        exact tries_sendErrorResponse validUtf8_badRequest (validUtf8_of_ascii (by decide))

theorem accounts_passwordGet :
    Accounts (triedPasswordGet lib surr req).1
      ((triedPasswordGet lib surr req).2.any (recordsError .passwordGet)) w
      ((PasswordHandler.handleGet lib.json lib.toDouble surr req).run w) := by
  rw [PasswordHandler.handleGet, triedPasswordGet]
  refine Tries.accounts ?_ fun e w' => accounts_catchPasswordGet e
  cases PasswordHandler.lengthParam req with
  | error e => exact .of_error (.refl w) (run_ofExcept_error _)
  | ok length =>
    rw [EStateM.run_bind, run_ofExcept_ok]
    dsimp only
    exact tries_answer rfl rfl
      (surr.generator.generate (PasswordHandler.configOfParams req length))
      (PasswordHandler.passwordJson lib.toDouble) (sendJsonResponse lib.json · 200)
      fun data w => tries_sendJsonResponse data 200

theorem accounts_passwordPost :
    Accounts (triedPasswordPost lib srv surr req).1
      ((triedPasswordPost lib srv surr req).2.any (recordsError .passwordPost)) w
      ((PasswordHandler.handlePost lib.json lib.toDouble srv.maxBatchSize surr req).run w) := by
  rw [PasswordHandler.handlePost, triedPasswordPost]
  refine Tries.accounts ?_ fun e w' => accounts_catchPasswordPost e
  cases lib.json.parse req.body with
  | error what => exact .of_error (.refl w) (run_ofExcept_error _)
  | ok body =>
    rw [Except.mapError, EStateM.run_bind, run_ofExcept_ok]
    dsimp only
    by_cases hmin : PasswordHandler.readInt body "count" 1 < 1
    · rw [if_pos hmin, if_pos (.inl hmin)]
      exact tries_sendErrorResponse validUtf8_badRequest (validUtf8_of_ascii (by decide))
    · rw [if_neg hmin]
      by_cases hmax : srv.maxBatchSize < PasswordHandler.readInt body "count" 1
      · rw [if_pos hmax, if_pos (.inr hmax)]
        refine tries_sendErrorResponse validUtf8_badRequest ?_
        rw [validUtf8_append (by decide), validUtf8_toString_int]
      · rw [if_neg hmax, if_neg (not_or.2 ⟨hmin, hmax⟩)]
        exact tries_answer rfl rfl
          (surr.generator.generateBatch (PasswordHandler.configOfBody body)
            (PasswordHandler.readInt body "count" 1))
          (PasswordHandler.passwordsJson lib.toDouble) (sendJsonResponse lib.json · 200)
          fun data w => tries_sendJsonResponse data 200

/-! ### Calls -/

/-- A request, with its route and what it meets. -/
structure Call where
  route : Route
  req : Request
  surr : Surroundings
  limiter : RateLimiter

variable (lib srv) (call : Call)

/-- The client that `prepare_request` gives, if it does. -/
def Call.client : Option String :=
  match (prepareRequest lib srv call.surr call.req).run ⟨corsResponse, call.limiter, []⟩ with
  | .ok clientIp _ => clientIp
  | .error _ _ => none

/-- What is tried for a call: the number of requests recorded, and the exception that ends it, if
    one does. -/
def Call.tried : ℕ × Option Exn :=
  match call.route with
  | .lookupGet =>
    (call.client lib srv).elim (0, none) (triedGet lib srv call.surr call.req)
  | .lookupPost =>
    (call.client lib srv).elim (0, none) fun _ => triedPost lib srv call.surr call.req
  | .passwordGet => triedPasswordGet lib call.surr call.req
  | .passwordPost => triedPasswordPost lib srv call.surr call.req

/-- The number of requests that a call records. -/
def Call.requests : ℕ := (call.tried lib srv).1

/-- The call ends with an exception that is recorded. -/
def Call.fails : Bool := (call.tried lib srv).2.any (recordsError call.route)

/-- The atomic steps of a call on the metrics. -/
def Call.ops : List MetricsOp :=
  ((serve lib srv call.surr call.req call.route call.limiter).events.filterMap
    Event.metricsCall?).flatMap MetricsCall.ops

variable {lib srv call}

theorem accounts_withClient {rest : String → Handling Unit} {t : String → ℕ × Option Exn}
    {err : Exn → Bool} (hrest : ∀ clientIp w, Accounts (t clientIp).1 ((t clientIp).2.any err) w
      ((rest clientIp).run w)) :
    let tried := (call.client lib srv).elim (0, none) t
    Accounts tried.1 (tried.2.any err) ⟨corsResponse, call.limiter, []⟩
      ((withClient lib srv call.surr call.req rest).run ⟨corsResponse, call.limiter, []⟩) := by
  obtain ⟨clientIp, w', hrun, hprepared⟩ := @prepareRequest_cases lib srv call.surr call.req
    ⟨corsResponse, call.limiter, []⟩
  have hclient : call.client lib srv = clientIp := by rw [Call.client, hrun]
  rw [withClient, EStateM.run_bind, hrun, hclient]
  cases clientIp with
  | none => exact ⟨w', hprepared.counts, (List.append_nil _).symm⟩
  | some clientIp =>
    have h := hprepared.counts.accounts (hrest clientIp w')
    rw [Nat.zero_add] at h
    exact h

/-- What comes of a call: the requests it records, and then an error if it fails. -/
theorem accounts_serve : Accounts (call.requests lib srv) (call.fails lib srv)
    ⟨corsResponse, call.limiter, []⟩
    ((handle lib srv call.surr call.req call.route).run ⟨corsResponse, call.limiter, []⟩) := by
  obtain ⟨route, req, surr, limiter⟩ := call
  cases route with
  | lookupGet => exact accounts_withClient fun clientIp w => accounts_lookupGet clientIp
  | lookupPost => exact accounts_withClient fun _ w => accounts_lookupPost
  | passwordGet => exact accounts_passwordGet
  | passwordPost => exact accounts_passwordPost

/-- The atomic steps of some events, counted. -/
theorem countP_ops (events : List Event) :
    let ops := (events.filterMap Event.metricsCall?).flatMap MetricsCall.ops
    ops.countP MetricsOp.isRequest = events.countP Event.isRequest ∧
      ops.countP MetricsOp.isError = events.countP Event.isError := by
  induction events with
  | nil => exact ⟨rfl, rfl⟩
  | cons event events ih =>
    obtain ⟨hrequests, herrors⟩ := ih
    cases event with
    | metrics mcall =>
      rw [List.filterMap_cons, Event.metricsCall?]
      dsimp only
      rw [List.flatMap_cons, List.countP_append, List.countP_append, hrequests, herrors,
        List.countP_cons, List.countP_cons]
      cases mcall with
      | recordRequest => exact ⟨Nat.add_comm _ _, Nat.add_comm _ _⟩
      | recordError => exact ⟨Nat.add_comm _ _, Nat.add_comm _ _⟩
    | limiter | lookup | generate | generateBatch => exact ⟨hrequests, herrors⟩

/-- The steps of a call: those of the requests it records, and then an error if it fails. -/
theorem Call.ops_eq : ∃ pre, call.ops lib srv =
    pre ++ (if call.fails lib srv then [.countError] else []) ∧
      pre.countP MetricsOp.isRequest = call.requests lib srv ∧
      pre.countP MetricsOp.isError = 0 := by
  obtain ⟨w', ⟨new, hnew, hrequests, herrors⟩, hevents⟩ := @accounts_serve lib srv call
  rw [List.nil_append] at hnew
  obtain ⟨hrequests', herrors'⟩ := countP_ops new
  refine ⟨_, ?_, hrequests'.trans hrequests, herrors'.trans herrors⟩
  rw [Call.ops, serve, Outcome.events_ofResult, hevents, hnew, List.filterMap_append,
    List.flatMap_append]
  split
  · rfl
  · rfl

/-- However far a call is, it has counted no more errors than requests, if it counts a request
    before it fails. -/
theorem Call.countP_le (h : call.fails lib srv = true → 0 < call.requests lib srv)
    {steps : List MetricsOp} (hsteps : steps <+: call.ops lib srv) :
    steps.countP MetricsOp.isError ≤ steps.countP MetricsOp.isRequest := by
  obtain ⟨pre, hops, hrequests, herrors⟩ := @Call.ops_eq lib srv call
  rw [hops] at hsteps
  have hpre (hsteps : steps <+: pre) :
      steps.countP MetricsOp.isError ≤ steps.countP MetricsOp.isRequest := by
    have hle := hsteps.sublist.countP_le (p := MetricsOp.isError)
    omega
  split at hsteps
  · next hfails =>
    rcases List.prefix_concat_iff.1 hsteps with rfl | hsteps
    · have hpos := h hfails
      rw [List.countP_append, List.countP_append, hrequests, herrors]
      exact hpos
    · exact hpre hsteps
  · rw [List.append_nil] at hsteps
    exact hpre hsteps

/-- A call that does not fail counts no error. -/
theorem Call.countP_isError (h : call.fails lib srv = false) :
    (call.ops lib srv).countP MetricsOp.isError = 0 := by
  obtain ⟨pre, hops, -, herrors⟩ := @Call.ops_eq lib srv call
  rw [hops, h, if_neg Bool.false_ne_true, List.append_nil, herrors]

/-- A call counts the requests that it records. -/
theorem Call.countP_isRequest :
    (call.ops lib srv).countP MetricsOp.isRequest = call.requests lib srv := by
  obtain ⟨pre, hops, hrequests, -⟩ := @Call.ops_eq lib srv call
  rw [hops, List.countP_append, hrequests]
  split
  · rfl
  · rfl

/-- A call that fails counts one error. -/
theorem Call.countP_isError_of_fails (h : call.fails lib srv = true) :
    (call.ops lib srv).countP MetricsOp.isError = 1 := by
  obtain ⟨pre, hops, -, herrors⟩ := @Call.ops_eq lib srv call
  rw [hops, if_pos h, List.countP_append, herrors]
  rfl

/-! ### Runs -/

variable {n : ℕ} (calls : Fin n → Call) (start now : TimePoint)

/-- The statistics, where the parts of the metrics are read after the runs `r₁` to `r₄`. -/
def statsOf (r₁ r₂ r₃ r₄ : List (Fin n × MetricsOp)) : Metrics.Stats :=
  let after (run : List (Fin n × MetricsOp)) := Metrics.step.run (.new start) (run.map Prod.snd)
  Metrics.getStats (after r₁) (after r₂) (after r₃) (after r₄) now

/-- An error has been recorded in a run. -/
def Failed (run : List (Fin n × MetricsOp)) : Prop := .countError ∈ run.map Prod.snd

theorem totalRequests_statsOf (r₁ r₂ r₃ r₄ : List (Fin n × MetricsOp)) :
    (statsOf start now r₁ r₂ r₃ r₄).totalRequests =
      UInt64.ofNat ((r₁.map Prod.snd).countP MetricsOp.isRequest) :=
  (Metrics.totalRequests_run _).trans (UInt64.zero_add _)

theorem totalErrors_statsOf (r₁ r₂ r₃ r₄ : List (Fin n × MetricsOp)) :
    (statsOf start now r₁ r₂ r₃ r₄).totalErrors =
      UInt64.ofNat ((r₂.map Prod.snd).countP MetricsOp.isError) :=
  (Metrics.totalErrors_run _).trans (UInt64.zero_add _)

variable {calls start now}

/-- The statistics make sense if no more errors than requests have been counted. -/
theorem sound_statsOf {r₁ r₂ r₃ r₄ : List (Fin n × MetricsOp)} {failed : Prop}
    (hle : (r₂.map Prod.snd).countP MetricsOp.isError ≤
      (r₁.map Prod.snd).countP MetricsOp.isRequest)
    (hlt : (r₁.map Prod.snd).countP MetricsOp.isRequest < 2 ^ 64)
    (hpos : failed → 0 < (r₂.map Prod.snd).countP MetricsOp.isError) :
    (statsOf start now r₁ r₂ r₃ r₄).Sound failed := by
  have hrequests := totalRequests_statsOf start now r₁ r₂ r₃ r₄
  have herrors := totalErrors_statsOf start now r₁ r₂ r₃ r₄
  refine Metrics.sound_getStats ?_ fun hfailed => ?_
  · change (statsOf start now r₁ r₂ r₃ r₄).totalErrors ≤
      (statsOf start now r₁ r₂ r₃ r₄).totalRequests
    rw [hrequests, herrors, UInt64.le_iff_toNat_le, UInt64.toNat_ofNat_of_lt' (hle.trans_lt hlt),
      UInt64.toNat_ofNat_of_lt' hlt]
    exact hle
  · change 0 < (statsOf start now r₁ r₂ r₃ r₄).totalErrors
    rw [herrors, UInt64.lt_iff_toNat_lt, UInt64.toNat_ofNat_of_lt' (hle.trans_lt hlt)]
    exact hpos hfailed

/-- When the statistics make sense. If they are read at one moment, in which fewer than `2 ^ 64`
    requests have been counted: in every interleaving, exactly if every call that fails has counted
    a request. If requests go on while they are read: in every interleaving, exactly if no call
    fails. -/
theorem sound_iff (lib : Libraries) (srv : IPGeoHTTPServer) {n : ℕ} (calls : Fin n → Call)
    (start now : TimePoint) :
    (∑ i, (calls i).requests lib srv < 2 ^ 64 →
      ((∀ run, Interleaves (fun i => (calls i).ops lib srv) run →
          (statsOf start now run run run run).Sound (Failed run)) ↔
        ∀ i, (calls i).fails lib srv = true → 0 < (calls i).requests lib srv)) ∧
    ((∀ a b c d, Interleaves (fun i => (calls i).ops lib srv) (a ++ b ++ c ++ d) →
        (statsOf start now a (a ++ b) (a ++ b ++ c) (a ++ b ++ c ++ d)).Sound (Failed a)) ↔
      ∀ i, (calls i).fails lib srv = false) := by
  have hsteps (i : Fin n) (steps : List MetricsOp) : (steps.map (i, ·)).map Prod.snd = steps := by
    rw [List.map_map]
    exact List.map_id steps
  have halone (i : Fin n) : Interleaves (fun i => (calls i).ops lib srv)
      (((calls i).ops lib srv).map (i, ·)) :=
    Interleaves.of_single (List.prefix_refl _)
  refine ⟨fun hlt => ⟨fun h i hfails => ?_, fun h run hrun => ?_⟩, fun h i => ?_,
    fun h a b c d hrun => ?_⟩
  · have hsound := (h _ (halone i)).errors_le
    rw [totalRequests_statsOf, totalErrors_statsOf, hsteps, Call.countP_isRequest,
      Call.countP_isError_of_fails hfails] at hsound
    by_contra hnot
    rw [Nat.eq_zero_of_not_pos hnot] at hsound
    exact absurd hsound (by decide)
  · have hle := hrun.countP_le (p := MetricsOp.isError) (q := MetricsOp.isRequest)
      fun i steps hsteps => Call.countP_le (h i) hsteps
    have hsum := hrun.countP_le_sum MetricsOp.isRequest
    simp only [Call.countP_isRequest] at hsum
    refine sound_statsOf hle (hsum.trans_lt hlt) fun hfailed => ?_
    exact List.countP_pos_iff.2 ⟨_, hfailed, rfl⟩
  · by_contra hfails
    rw [Bool.not_eq_false] at hfails
    -- the call runs between the reading of the requests and that of the errors
    have hsingle := halone i
    rw [← List.append_nil (((calls i).ops lib srv).map _)] at hsingle
    have hsound := (h [] _ [] [] (by rwa [List.append_nil])).errors_le
    rw [totalRequests_statsOf, totalErrors_statsOf, List.nil_append, hsteps,
      Call.countP_isError_of_fails hfails, List.map_nil, List.countP_nil] at hsound
    exact absurd hsound (by decide)
  · have hnone := hrun.of_append.of_append.countP_le_sum MetricsOp.isError
    simp only [Call.countP_isError (h _), Finset.sum_const_zero, Nat.le_zero] at hnone
    have herrors := totalErrors_statsOf start now a (a ++ b) (a ++ b ++ c) (a ++ b ++ c ++ d)
    rw [hnone] at herrors
    refine Metrics.sound_getStats ?_ fun hfailed => ?_
    · exact herrors.trans_le (UInt64.le_iff_toNat_le.2 (Nat.zero_le _))
    · rw [List.map_append, List.countP_append] at hnone
      have hpos : 0 < (a.map Prod.snd).countP MetricsOp.isError :=
        List.countP_pos_iff.2 ⟨_, hfailed, rfl⟩
      omega

/-- A request for a password whose length does not fit an `int`. -/
def outOfRange : Call where
  route := .passwordGet
  req := ⟨fun _ => "", fun key => if key = "length" then "99999999999" else "", "", "10.0.0.1"⟩
  surr := .sample
  limiter := newLimiter {}

/-- After that request alone there is one error, and no request. -/
theorem outOfRange_unsound :
    ∃ run, Interleaves (fun _ : Fin 1 => outOfRange.ops Libraries.sample ignorant) run ∧
      ¬(statsOf 0 0 run run run run).Sound (Failed run) := by
  have htried : outOfRange.tried Libraries.sample ignorant = (0, some (.std "stoi")) := by
    rfl
  have hfails : outOfRange.fails Libraries.sample ignorant = true := by
    rw [Call.fails, htried]
    exact validUtf8_of_ascii (by decide)
  refine ⟨(outOfRange.ops Libraries.sample ignorant).map (0, ·),
    Interleaves.of_single (List.prefix_refl _), fun hsound => ?_⟩
  have hle := hsound.errors_le
  rw [totalRequests_statsOf, totalErrors_statsOf, List.map_map, Function.comp_def, List.map_id',
    Call.countP_isRequest, Call.countP_isError_of_fails hfails, Call.requests, htried] at hle
  exact absurd hle (by decide)

end IPGeoHTTPServer

end IpServer
