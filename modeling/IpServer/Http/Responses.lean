import IpServer.Http.Concurrent
import IpServer.Http.Endpoints
import IpServer.Library.Triple

/-!
# What a response looks like

Whichever way a handler takes, also when the serialisation of what it found fails halfway and the
exception is caught, the response it returns with is `WellFormed`: it has the headers for other
origins first and then those that belong to its status, and its content is a JSON document, which
names the error unless the status is 200. Where an exception escapes the handler instead, as when
the text of the error is not UTF-8, it is the HTTP library that answers, and nothing is said here.

* `triple_checkRoute`, `triple_afterCheck`: what the parts of a route start with and leave.
* `wellFormed_respond`: the response to any request.
* `wellFormed_of_run`: the responses of handlers that serve requests at the same time.
-/

namespace IpServer

namespace Response

/-- The headers that belong to a status. Not every 401 comes with a challenge. -/
def statusHeaders (status : ℤ) (challenge : Bool) : List (String × String) :=
  if status = 429 then [("Retry-After", "60")]
  else if status = 401 ∧ challenge = true then [("WWW-Authenticate", "Bearer")]
  else []

/-- The response can be told apart by its status, and read as JSON. -/
structure WellFormed (lib : JsonLibrary) (res : Response) : Prop where
  status_mem : res.status ∈ ({200, 400, 401, 429, 500} : Set ℤ)
  headers_eq : ∃ challenge,
    res.headers = IPGeoHTTPServer.corsResponse.headers ++ statusHeaders res.status challenge
  contentType_eq : res.contentType = "application/json"
  body_eq : ∃ data, lib.dump data = .ok res.body ∧
    (res.status ≠ 200 → ∃ error, data.get? "error" = some (.string error))

end Response

namespace IPGeoHTTPServer

open Handling

variable {lib : Libraries} {srv : IPGeoHTTPServer} {surr : Surroundings} {req : Request}

/-- Nothing has been done to the response. -/
def Fresh (w : World) : Prop := w.res = corsResponse

/-- The response has no headers yet but those for other origins. -/
def Started (w : World) : Prop := w.res.headers = corsResponse.headers

/-- The response is well formed. -/
def Sent (lib : Libraries) (w : World) : Prop := w.res.WellFormed lib.json

theorem fresh_start (l : RateLimiter) : Fresh ⟨corsResponse, l, []⟩ := rfl

theorem Fresh.started {w : World} (h : Fresh w) : Started w := congrArg Response.headers h

/-! ### Sending -/

/-- A document is sent as it is, with its status, or not at all. -/
theorem triple_sendJsonResponse (data : Json) (status : ℤ) :
    Triple Started (sendJsonResponse lib.json data status)
      (fun _ w => Started w ∧ w.res.status = status ∧ w.res.contentType = "application/json" ∧
        lib.json.dump data = .ok w.res.body) Started := by
  refine ⟨fun w hw => ?_⟩
  rw [run_sendJsonResponse]
  cases hdump : lib.json.dump data with
  | ok body => exact ⟨hw, rfl, rfl, rfl⟩
  | error e => exact hw

/-- A response with one of the statuses that no headers belong to. -/
theorem wellFormed_of_started {w : World} {data : Json} (hw : Started w)
    (hstatus : w.res.status ∈ ({200, 400, 500} : Set ℤ))
    (htype : w.res.contentType = "application/json") (hbody : lib.json.dump data = .ok w.res.body)
    (herror : w.res.status ≠ 200 → ∃ error, data.get? "error" = some (.string error)) :
    Sent lib w where
  status_mem := by
    rcases hstatus with h | h | h
    · exact .inl h
    · exact .inr (.inl h)
    · exact .inr (.inr (.inr (.inr h)))
  headers_eq := by
    refine ⟨false, ?_⟩
    rw [Response.statusHeaders, if_neg, if_neg fun h => Bool.false_ne_true h.2, List.append_nil]
    · exact hw
    · rcases hstatus with h | h | h
      all_goals
        rw [h]
        decide
  contentType_eq := htype
  body_eq := ⟨data, hbody, herror⟩

theorem get?_error_errorJson (error message : String) :
    (errorJson error message).get? "error" = some (.string error) := by
  rw [errorJson_eq]
  rfl

/-- An error without headers of its own. -/
theorem triple_sendErrorResponse (error message : String) {status : ℤ}
    (hstatus : status ∈ ({400, 500} : Set ℤ)) :
    Triple Started (sendErrorResponse lib.json status error message) (fun _ => Sent lib)
      Started := by
  refine (triple_sendJsonResponse _ status).mono (fun _ => id) ?_ fun _ => id
  rintro - w ⟨hw, rfl, htype, hbody⟩
  exact wellFormed_of_started hw (.inr hstatus) htype hbody fun _ =>
    ⟨error, get?_error_errorJson error message⟩

/-- A document is sent with the status of success. -/
theorem triple_sendData (data : Json) :
    Triple Started (sendJsonResponse lib.json data 200) (fun _ => Sent lib) Started := by
  refine (triple_sendJsonResponse data 200).mono (fun _ => id) ?_ fun _ => id
  rintro - w ⟨hw, hstatus, htype, hbody⟩
  exact wellFormed_of_started hw (.inl hstatus) htype hbody fun hne => absurd hstatus hne

/-- A document is made the content of a response to which nothing has been done. -/
theorem triple_setContent (data : Json) :
    Triple Fresh (do setContent (← ofExcept (lib.json.dump data)) "application/json")
      (fun _ => Sent lib) Started := by
  refine .bind (Q := fun body w => Fresh w ∧ lib.json.dump data = .ok body)
    (.ofExcept (fun body hbody w hw => ⟨hw, hbody⟩) fun _ _ _ hw => hw.started) fun body => ?_
  refine .modify fun w ⟨hw, hbody⟩ => ?_
  refine wellFormed_of_started hw.started (.inl ?_) rfl hbody fun hne => absurd ?_ hne
  all_goals exact congrArg Response.status hw

/-- A call does nothing to the response. -/
theorem triple_emit {P E : World → Prop} (event : Event)
    (h : ∀ w events, P w → P { w with events }) : Triple P (emit event) (fun _ => P) E := by
  refine ⟨fun w hw => ?_⟩
  rw [run_emit]
  exact h w _ hw

theorem triple_internalError (what : String) :
    Triple Started (internalError lib.json what) (fun _ => Sent lib) Started := by
  rw [internalError]
  refine .bind (triple_sendErrorResponse "Internal Server Error" what (.inr rfl)) fun _ => ?_
  exact triple_emit (.metrics .recordError) fun w events hw => hw

/-! ### Before a lookup -/

/-- The answer to a request without an accepted key. -/
theorem triple_unauthorized (message : String) :
    Triple Started (sendErrorResponse lib.json 401 "Unauthorized" message)
      (fun _ w => Sent lib w ∧ Started w ∧ w.res.status = 401) Started := by
  refine (triple_sendJsonResponse _ 401).mono (fun _ => id) ?_ fun _ => id
  rintro - w ⟨hw, hstatus, htype, hbody⟩
  refine ⟨⟨?_, ⟨false, ?_⟩, htype, ⟨_, hbody, fun _ =>
    ⟨"Unauthorized", get?_error_errorJson "Unauthorized" message⟩⟩⟩, hw, hstatus⟩
  · exact .inr (.inr (.inl hstatus))
  · rw [hstatus]
    exact Eq.trans hw (List.append_nil _).symm

/-- The challenge that comes after it. -/
theorem triple_challenge :
    Triple (fun w => Sent lib w ∧ Started w ∧ w.res.status = 401)
      (setHeader "WWW-Authenticate" "Bearer") (fun _ => Sent lib) Started := by
  refine ⟨fun w ⟨hsent, hw, hstatus⟩ => ?_⟩
  rw [run_setHeader]
  refine ⟨hsent.status_mem, ⟨true, ?_⟩, hsent.contentType_eq, hsent.body_eq⟩
  dsimp only
  rw [hstatus, show w.res.headers = corsResponse.headers from hw]
  rfl

/-- Whether a request may go on, it says; if not, the response is there. -/
def Decided (lib : Libraries) (goesOn : Bool) (w : World) : Prop :=
  if goesOn then Fresh w else Sent lib w

theorem triple_authenticateRequest :
    Triple Fresh (authenticateRequest lib srv req) (Decided lib) Started := by
  have hchallenged (message : String) : Triple Fresh (do
      sendErrorResponse lib.json 401 "Unauthorized" message
      setHeader "WWW-Authenticate" "Bearer"
      return false) (Decided lib) Started :=
    .bind ((triple_unauthorized message).mono (fun _ => Fresh.started) (fun _ _ => id) fun _ => id)
      fun _ => .bind triple_challenge fun _ => .pure fun _ hw => hw
  rw [authenticateRequest]
  split
  · exact .pure fun _ hw => hw
  · split
    · exact .pure fun _ hw => hw
    · dsimp only
      split
      · exact hchallenged _
      · split
        · exact hchallenged _
        · split
          · refine .bind ((triple_unauthorized _).mono (fun _ => Fresh.started) (fun _ _ => id)
              fun _ => id) fun _ => .pure fun _ hw => hw.1
          · exact .pure fun _ hw => hw

/-- What the verdict on a request says of its response. -/
def Judged (lib : Libraries) (verdict : Verdict) (w : World) : Prop :=
  match verdict with
  | .rejected => Sent lib w
  | .proceeds _ | .limited _ => Fresh w

theorem triple_checkRequest :
    Triple Fresh (checkRequest lib srv surr req) (Judged lib) Started := by
  rw [checkRequest]
  refine .bind triple_authenticateRequest fun authenticated => ?_
  cases authenticated with
  | false => exact .pure fun _ hw => hw
  | true =>
    simp only [Bool.not_true, Bool.false_eq_true, if_false]
    split
    · refine .bind ((triple_sendErrorResponse "Bad Request" _ (.inl rfl)).mono
        (fun _ => Fresh.started) (fun _ _ => id) fun _ => id) fun _ => .pure fun _ hw => hw
    · split
      · exact .pure fun _ hw => hw
      · refine .bind (Q := fun _ => Fresh) ⟨fun w hw => hw⟩ fun allowed => ?_
        split
        · exact .pure fun _ hw => hw
        · exact .pure fun _ hw => hw

theorem triple_checkRoute (route : Route) :
    Triple Fresh (checkRoute lib srv surr req route) (Judged lib) Started := by
  cases route with
  | lookupGet | lookupPost => exact triple_checkRequest
  | passwordGet | passwordPost => exact .pure fun _ hw => hw

/-- A client over its limit is told when to come back. -/
theorem triple_rejectLimited (clientIp : String) :
    Triple Fresh (rejectLimited lib surr clientIp) (fun _ => Sent lib) Started := by
  rw [rejectLimited]
  refine .bind (Q := fun _ => Started) ⟨fun w hw => Fresh.started hw⟩ fun remaining => ?_
  refine .bind (triple_sendJsonResponse _ 429) fun _ => ⟨fun w hsent => ?_⟩
  obtain ⟨hw, hstatus, htype, hbody⟩ := hsent
  rw [run_setHeader]
  refine ⟨.inr (.inr (.inr (.inl hstatus))), ⟨false, ?_⟩, htype, ⟨_, hbody, fun _ =>
    ⟨"Rate limit exceeded", rfl⟩⟩⟩
  dsimp only
  rw [hstatus, show w.res.headers = corsResponse.headers from hw]
  rfl

/-! ### The work -/

/-- Looking up leaves the response alone. -/
theorem triple_of_silent {α : Type} {x : Handling α}
    (h : Guarantees (fun w w' : World => w'.res = w.res) x) :
    Triple Fresh x (fun _ => Fresh) Started :=
  (Triple.of_guarantees h fun _ _ hw hres => Eq.trans hres hw).mono (fun _ => id) (fun _ _ => id)
    fun _ => Fresh.started

/-- A document is made the content of an error response. -/
theorem triple_catchGet (e : Exn) :
    Triple Started (catchGet lib e) (fun _ => Sent lib) fun _ => True := by
  rw [catchGet]
  split
  · exact .throw fun _ _ => trivial
  · next what hwhat =>
    refine .bind (Q := fun _ w => Started w ∧ w.res.status = 500) ⟨fun w hw => ⟨hw, rfl⟩⟩
      fun _ => ?_
    refine .bind (Q := fun body w => (Started w ∧ w.res.status = 500) ∧
      lib.json.dump (Json.null.set "error" (.string what)) = .ok body)
      (.ofExcept (fun body hbody w hw => ⟨hw, hbody⟩) fun _ _ _ _ => trivial) fun body => ?_
    refine .bind (Q := fun _ => Sent lib) ⟨fun w hdumped => ?_⟩ fun _ =>
      triple_emit _ fun _ _ hw => hw
    obtain ⟨⟨hw, hstatus⟩, hbody⟩ := hdumped
    rw [run_setContent]
    exact wellFormed_of_started hw (.inr (.inr hstatus)) rfl hbody fun _ => ⟨what, rfl⟩

theorem triple_catchPost (e : Exn) :
    Triple Started (catchPost lib e) (fun _ => Sent lib) fun _ => True := by
  cases e with
  | json what =>
    exact (triple_sendErrorResponse "Bad Request" _ (.inl rfl)).mono (fun _ => id) (fun _ _ => id)
      fun _ _ => trivial
  | invalidArgument what | std what =>
    exact (triple_internalError what).mono (fun _ => id) (fun _ _ => id) fun _ _ => trivial
  | foreign => exact .throw fun _ _ => trivial

/-- An error that is sent in place of an answer. -/
theorem triple_rejection (error message : String) {status : ℤ}
    (hstatus : status ∈ ({400, 500} : Set ℤ)) :
    Triple Fresh (sendErrorResponse lib.json status error message) (fun _ => Sent lib) Started :=
  (triple_sendErrorResponse error message hstatus).mono (fun _ => Fresh.started) (fun _ _ => id)
    fun _ => id

theorem triple_lookupGet (clientIp : String) :
    Triple Fresh (lookupGet lib srv surr req clientIp) (fun _ => Sent lib) fun _ => True := by
  rw [lookupGet]
  split
  · exact (triple_rejection "Bad Request" _ (.inl rfl)).mono (fun _ => id) (fun _ _ => id)
      fun _ _ => trivial
  · refine .tryCatch ?_ triple_catchGet
    split
    · exact triple_rejection "Bad Request" _ (.inl rfl)
    · split
      · exact triple_rejection "Internal Server Error" _ (.inr rfl)
      · refine .bind (triple_emit _ fun _ _ hw => hw) fun _ => ?_
        refine .bind (Q := fun _ => Fresh)
          (.ofExcept (fun _ _ _ hw => hw) fun _ _ _ => Fresh.started) fun result => ?_
        exact .bind (triple_emit _ fun _ _ hw => hw) fun _ => triple_setContent result.data

instance : IsPreorder World fun w w' : World => w'.res = w.res where
  refl _ := rfl
  trans _ _ _ h h' := h'.trans h

theorem triple_lookupBatch (isMac : Bool) (items : List Json) :
    Triple Fresh (lookupBatch lib srv surr isMac items) (fun _ => Sent lib) Started := by
  rw [lookupBatch]
  split
  · exact triple_rejection "Internal Server Error" _ (.inr rfl)
  · next handler hhandler =>
    split
    · refine (triple_sendJsonResponse _ 400).mono (fun _ => Fresh.started) ?_ fun _ => id
      rintro - w ⟨hw, hstatus, htype, hbody⟩
      exact wellFormed_of_started hw (.inr (.inl hstatus)) htype hbody fun _ =>
        ⟨"Batch size exceeds maximum limit", rfl⟩
    · have hemit (event : Event) (_ : event.limiterOp? = none) :
          Guarantees (fun w w' : World => w'.res = w.res) (emit event) := .modify fun _ => rfl
      refine .bind (triple_of_silent ?_) fun results => triple_setContent _
      rw [lookupAll]
      split
      · exact guarantees_lookupLoop hemit _ _ _ _
      · exact guarantees_lookupAsync hemit _ _ _

theorem triple_lookupPost :
    Triple Fresh (lookupPost lib srv surr req) (fun _ => Sent lib) fun _ => True := by
  refine .tryCatch (.bind (Q := fun _ => Fresh)
    (.ofExcept (fun _ _ _ hw => hw) fun _ _ _ => Fresh.started) fun body => ?_) triple_catchPost
  split
  · exact triple_rejection "Bad Request" _ (.inl rfl)
  · exact triple_rejection "Bad Request" _ (.inl rfl)
  · exact triple_lookupBatch false _
  · exact triple_lookupBatch true _

/-- The catch clauses of the password routes send errors. -/
theorem triple_catchPassword (e : Exn) :
    Triple Started (PasswordHandler.catchGet lib.json e) (fun _ => Sent lib) (fun _ => True) ∧
      Triple Started (PasswordHandler.catchPost lib.json e) (fun _ => Sent lib) fun _ => True := by
  have herror (message : String) : Triple Started
      (sendErrorResponse lib.json 400 "Bad Request" message) (fun _ => Sent lib) fun _ => True :=
    (triple_sendErrorResponse "Bad Request" message (.inl rfl)).mono (fun _ => id) (fun _ _ => id)
      fun _ _ => trivial
  have hinternal (what : String) : Triple Started (internalError lib.json what)
      (fun _ => Sent lib) fun _ => True :=
    (triple_internalError what).mono (fun _ => id) (fun _ _ => id) fun _ _ => trivial
  cases e with
  | json what => exact ⟨hinternal what, herror _⟩
  | invalidArgument what => exact ⟨herror _, herror _⟩
  | std what => exact ⟨hinternal what, hinternal what⟩
  | foreign => exact ⟨.throw fun _ _ => trivial, .throw fun _ _ => trivial⟩

/-- What is generated is sent. -/
theorem triple_answer {α : Type} (event : Event) (made : Except Exn α) (json : α → Json) :
    Triple Fresh (do
      emit event
      let result ← ofExcept made
      recordRequest surr 0
      sendJsonResponse lib.json (json result) 200) (fun _ => Sent lib) Started := by
  refine .bind (triple_emit event fun _ _ hw => hw) fun _ => ?_
  refine .bind (Q := fun _ => Fresh)
    (.ofExcept (fun _ _ _ hw => hw) fun _ _ _ => Fresh.started) fun result => ?_
  refine .bind (triple_emit _ fun _ _ hw => hw) fun _ => ?_
  exact (triple_sendData _).mono (fun _ => Fresh.started) (fun _ _ => id) fun _ => id

theorem triple_passwordGet : Triple Fresh (PasswordHandler.handleGet lib.json lib.toDouble surr req)
    (fun _ => Sent lib) fun _ => True :=
  .tryCatch (.bind (Q := fun _ => Fresh)
    (.ofExcept (fun _ _ _ hw => hw) fun _ _ _ => Fresh.started) fun _ => triple_answer _ _ _)
    fun e => (triple_catchPassword e).1

theorem triple_passwordPost : Triple Fresh
    (PasswordHandler.handlePost lib.json lib.toDouble srv.maxBatchSize surr req)
    (fun _ => Sent lib) fun _ => True := by
  refine .tryCatch (.bind (Q := fun _ => Fresh)
    (.ofExcept (fun _ _ _ hw => hw) fun _ _ _ => Fresh.started) fun body => ?_)
    fun e => (triple_catchPassword e).2
  dsimp only
  split
  · exact triple_rejection "Bad Request" _ (.inl rfl)
  · split
    · exact triple_rejection "Bad Request" _ (.inl rfl)
    · exact triple_answer _ _ _

/-- A request that may go on gets a response, or an exception escapes. -/
theorem triple_proceed (route : Route) (clientIp : String) :
    Triple Fresh (proceed lib srv surr req route clientIp) (fun _ => Sent lib) fun _ => True := by
  cases route with
  | lookupGet => exact triple_lookupGet clientIp
  | lookupPost => exact triple_lookupPost
  | passwordGet => exact triple_passwordGet
  | passwordPost => exact triple_passwordPost

theorem triple_afterCheck (route : Route) (verdict : Verdict) :
    Triple (Judged lib verdict) (afterCheck lib srv surr req route verdict) (fun _ => Sent lib)
      fun _ => True := by
  cases verdict with
  | rejected => exact .pure fun _ hw => hw
  | proceeds clientIp => exact triple_proceed route clientIp
  | limited clientIp =>
    exact (triple_rejectLimited clientIp).mono (fun _ => id) (fun _ _ => id) fun _ _ => trivial

theorem triple_handle (route : Route) :
    Triple Fresh (handle lib srv surr req route) (fun _ => Sent lib) fun _ => True := by
  rw [handle_eq]
  exact .bind ((triple_checkRoute route).mono (fun _ => id) (fun _ _ => id) fun _ _ => trivial)
    (triple_afterCheck route)

/-! ### Any request -/

theorem triple_handleEndpoint {e : Endpoint} (he : e ≠ .preflight) (readings : Readings) :
    Triple Fresh (handleEndpoint lib srv surr readings req e) (fun _ => Sent lib)
      fun _ => True := by
  cases e with
  | root => exact (triple_setContent info).mono (fun _ => id) (fun _ _ => id) fun _ _ => trivial
  | health =>
    exact (triple_setContent (healthJson lib readings)).mono (fun _ => id) (fun _ _ => id)
      fun _ _ => trivial
  | work route => exact triple_handle route
  | preflight => exact absurd rfl he

/-- What a handler has sent is well formed. -/
theorem wellFormed_ofResult {x : Handling Unit} {w : World}
    (h : Triple Fresh x (fun _ => Sent lib) fun _ => True) (hw : Fresh w) {res : Response}
    (hres : (Outcome.ofResult (x.run w)).response = .ok res) : res.WellFormed lib.json := by
  cases hrun : x.run w with
  | ok _ w' =>
    rw [hrun] at hres
    exact Except.ok.inj hres ▸ h.of_ok hw hrun
  | error e w' =>
    rw [hrun] at hres
    cases hres

/-- The response to a request is well formed, unless nothing is to be done for it: then it has no
    content, but the headers for other origins. -/
theorem wellFormed_respond {readings : Readings} {method : Method} {path : String}
    {limiter : RateLimiter} {res : Response}
    (h : (respond lib srv surr readings req method path limiter).response = .ok res) :
    res.WellFormed lib.json ∨
      endpoint path method = some .preflight ∧ res = corsResponse ∨
      endpoint path method = none ∧ res = { corsResponse with status := 404 } := by
  rw [respond] at h
  cases hendpoint : endpoint path method with
  | none =>
    rw [hendpoint] at h
    exact .inr (.inr ⟨rfl, (Except.ok.inj h).symm⟩)
  | some e =>
    rw [hendpoint] at h
    by_cases he : e = .preflight
    · subst he
      exact .inr (.inl ⟨rfl, (Except.ok.inj h).symm⟩)
    · exact .inl (wellFormed_ofResult (triple_handleEndpoint he readings) (fresh_start limiter) h)

/-! ### Requests at the same time -/

/-- The response as far as a request has got: nothing is done to it before it is decided what it is
    to be, and it is well formed when the handler returns. If an exception escapes the handler,
    there is none. -/
def Phase.Proper (lib : Libraries) : Phase → Prop
  | .waiting => True
  | .checked .rejected res _ => res.WellFormed lib.json
  | .checked (.proceeds _) res _ | .checked (.limited _) res _ => res = corsResponse
  | .answered ⟨.ok res, _, _⟩ => res.WellFormed lib.json
  | .answered ⟨.error _, _, _⟩ => True

/-- The response that the handler of a request has returned with, if it has. -/
def Phase.response? : Phase → Option Response
  | .answered o => o.response.toOption
  | _ => none

theorem Phase.Proper.wellFormed {phase : Phase} (h : phase.Proper lib) {res : Response}
    (hres : phase.response? = some res) : res.WellFormed lib.json := by
  cases phase with
  | waiting | checked => exact absurd hres (Option.some_ne_none res).symm
  | answered o =>
    obtain ⟨response, limiter, events⟩ := o
    cases response with
    | error e => exact absurd hres (Option.some_ne_none res).symm
    | ok res' =>
      obtain rfl := Option.some_inj.1 hres
      exact h

variable {ι : Type*} {asked : ι → Incoming}

/-- A check decides what the response is to be. -/
theorem proper_begun (i : ι) (l : RateLimiter) :
    (Phase.ofCheck (begun lib srv asked i l)).Proper lib := by
  cases hbegun : begun lib srv asked i l with
  | error e w => trivial
  | ok verdict w =>
    have hjudged : Judged lib verdict w := (triple_checkRoute _).of_ok (fresh_start l) hbegun
    cases verdict with
    | rejected | proceeds | limited => exact hjudged

/-- The rest makes a response of what was decided. -/
theorem proper_finished {i : ι} {verdict : Verdict} {res : Response} {events : List Event}
    {l : RateLimiter} (h : (Phase.checked verdict res events).Proper lib) :
    (Phase.answered (.ofResult (finished lib srv asked i verdict ⟨res, l, events⟩))).Proper
      lib := by
  have hjudged : Judged lib verdict ⟨res, l, events⟩ := by
    cases verdict with
    | rejected | proceeds | limited => exact h
  cases hfinished : finished lib srv asked i verdict ⟨res, l, events⟩ with
  | error e w => trivial
  | ok _ w => exact (triple_afterCheck _ _).of_ok hjudged hfinished

theorem proper_run [DecidableEq ι] (l : RateLimiter) (inputs : List (ServingInput ι)) (i : ι) :
    (((serving lib srv asked).run (.new ι l) inputs).phase i).Proper lib := by
  have hnew : ∀ i, ((Serving.new ι l).phase i).Proper lib := fun _ => trivial
  refine Machine.run_invariant (I := fun s : Serving ι => ∀ i, (s.phase i).Proper lib) ?_ inputs
    hnew i
  intro s input h i
  cases input with
  | cleanup now => exact h i
  | step j =>
    cases hphase : s.phase j with
    | answered o =>
      simp only [serving, hphase]
      exact h i
    | waiting =>
      simp only [serving, hphase]
      by_cases hi : i = j
      · subst hi
        rw [Function.update_self]
        exact proper_begun i s.limiter
      · rw [Function.update_of_ne hi]
        exact h i
    | checked verdict res events =>
      simp only [serving, hphase]
      by_cases hi : i = j
      · subst hi
        rw [Function.update_self]
        exact proper_finished (hphase ▸ h i)
      · rw [Function.update_of_ne hi]
        exact h i

/-- However the steps of the requests and the cleanups interleave, nothing is done to a response
    before it is decided what it is to be, and every response that a handler returns with is well
    formed. -/
theorem wellFormed_of_run [DecidableEq ι] (lib : Libraries) (srv : IPGeoHTTPServer)
    (asked : ι → Incoming) (l : RateLimiter) (inputs : List (ServingInput ι)) (i : ι) :
    let phase := ((serving lib srv asked).run (.new ι l) inputs).phase i
    phase.Proper lib ∧ ∀ res, phase.response? = some res → res.WellFormed lib.json := by
  intro phase
  have hproper : phase.Proper lib := proper_run l inputs i
  exact ⟨hproper, fun res => hproper.wellFormed⟩

/-- Of two lookups where one a minute is allowed, one finds nothing and one comes too early. -/
theorem wellFormed_of_run_overtaking :
    (∃ res, (overtaken 0).response? = some res ∧ res.status = 200 ∧
      res.WellFormed JsonLibrary.sample) ∧
    ∃ res, (overtaken 1).response? = some res ∧ res.status = 429 ∧
      res.WellFormed JsonLibrary.sample := by
  have hrun := wellFormed_of_run .sample keyedServer keyedBoth (newLimiter keyedConfig) overtaking
  have hstatus : (overtaken 0).response?.map (·.status) = some 200 ∧
      (overtaken 1).response?.map (·.status) = some 429 := by decide +kernel
  obtain ⟨⟨res, hres, hok⟩, ⟨res', hres', hlimited⟩⟩ :=
    hstatus.imp Option.map_eq_some_iff.1 Option.map_eq_some_iff.1
  exact ⟨⟨res, hres, hok, (hrun 0).2 res hres⟩, ⟨res', hres', hlimited, (hrun 1).2 res' hres'⟩⟩

end IPGeoHTTPServer

end IpServer
