import IpServer.Http.Server

/-!
# What the handlers do

* `prepareRequest_cases`: what `prepare_request` can do; `run_withClient`: what then happens.
* `guarantees_lookupGet`, `guarantees_lookupPost`: what a lookup does after it, as far as each
  of its steps does it.
* `tracked_handle`: the limiter after a request is what the calls made of it.
-/

namespace IpServer.IPGeoHTTPServer

open Handling

variable (lib : Libraries) (srv : IPGeoHTTPServer) (surr : Surroundings) (req : Request)

/-! ### Before a lookup -/

/-- The request carries a key that the server accepts. -/
def Authorized : Prop :=
  ∃ apiAuth key, srv.apiAuth = some apiAuth ∧ req.header "Authorization" = "Bearer " ++ key ∧
    apiAuth.isValid lib.sha256 key = true

variable {lib srv surr req} {w : World}

theorem validUtf8_notConfigured (isMac : Bool) : Json.validUtf8 (notConfigured isMac) = true := by
  rw [notConfigured]
  split
  · rw [Json.validUtf8_append (by decide), Json.validUtf8_of_ascii (by decide)]
  · rw [Json.validUtf8_append (by decide), Json.validUtf8_of_ascii (by decide)]

theorem validUtf8_invalidFormat (isMac : Bool) : Json.validUtf8
    (if isMac then "Invalid MAC address format" else "Invalid IP address format") = true := by
  split
  · exact Json.validUtf8_of_ascii (by decide)
  · exact Json.validUtf8_of_ascii (by decide)

/-- A request without an accepted key is answered with 401, if keys are asked for; otherwise
    nothing is done. -/
theorem authenticateRequest_cases :
    ((srv.enableApiAuth = true → Authorized lib srv req) ∧
      (authenticateRequest lib srv req).run w = .ok true w) ∨
    (srv.enableApiAuth = true ∧ ¬Authorized lib srv req ∧
      ∃ res, (authenticateRequest lib srv req).run w = .ok false { w with res } ∧
        res.status = 401) := by
  have hsome := srv.isSome_apiAuth
  rw [authenticateRequest]
  cases hauth : srv.apiAuth with
  | none =>
    rw [hauth, Option.isSome_none] at hsome
    exact .inl ⟨fun h => absurd (hsome.trans h) Bool.false_ne_true, rfl⟩
  | some apiAuth =>
    rw [hauth, Option.isSome_some] at hsome
    have hnot (h : ∀ key, req.header "Authorization" = "Bearer " ++ key →
        ¬apiAuth.isValid lib.sha256 key) : ¬Authorized lib srv req := by
      rintro ⟨apiAuth', key, hauth', hkey, hvalid⟩
      obtain rfl := Option.some_inj.1 (hauth.symm.trans hauth')
      exact h key hkey hvalid
    simp only [← hsome, Bool.not_true, Bool.false_eq_true, if_false, true_and, forall_const]
    -- no header, one without the scheme, one with another key
    split
    · next hempty =>
      refine .inr ⟨hnot fun key hkey => ?_, ?_⟩
      · rw [hempty] at hkey
        exact absurd hkey.symm (by simp)
      · simp (disch := exact Json.validUtf8_of_ascii (by decide)) only [EStateM.run_bind,
          run_sendErrorResponse]
        exact ⟨_, rfl, rfl⟩
    · split
      · next hstart =>
        refine .inr ⟨hnot fun key hkey => ?_, ?_⟩
        · rw [hkey, startsWith_append] at hstart
          exact absurd hstart Bool.false_ne_true
        · simp (disch := exact Json.validUtf8_of_ascii (by decide)) only [EStateM.run_bind,
            run_sendErrorResponse]
          exact ⟨_, rfl, rfl⟩
      · next hstart =>
        rw [Bool.not_eq_true', Bool.not_eq_false, startsWith_iff] at hstart
        split
        · next hvalid =>
          refine .inr ⟨hnot fun key hkey => ?_, ?_⟩
          · rw [hkey, substrFrom_append] at hvalid
            simpa using hvalid
          · simp (disch := exact Json.validUtf8_of_ascii (by decide)) only [EStateM.run_bind,
              run_sendErrorResponse]
            exact ⟨_, rfl, rfl⟩
        · next hvalid =>
          -- the key is the rest of the header
          exact .inl ⟨⟨apiAuth, _, hauth, hstart, by simpa using hvalid⟩, rfl⟩

/-- What `prepare_request` can do: the client it gives, if it gives one, and the world after it. -/
inductive Prepared (lib : Libraries) (srv : IPGeoHTTPServer) (surr : Surroundings) (req : Request)
    (w : World) : Option String → World → Prop
  | unauthorized {res : Response} (hauth : srv.enableApiAuth = true)
    (hkey : ¬Authorized lib srv req) (hstatus : res.status = 401) :
    Prepared lib srv surr req w none { w with res }
  | unknown {res : Response} (hkey : srv.enableApiAuth = true → Authorized lib srv req)
    (hip : getRealClientIp req = "") (hstatus : res.status = 400) :
    Prepared lib srv surr req w none { w with res }
  | limited {res : Response} (hkey : srv.enableApiAuth = true → Authorized lib srv req)
    (hip : getRealClientIp req ≠ "") (hlimiter : srv.enableRateLimiter = true)
    (hdenied : (w.limiter.isAllowed (getRealClientIp req) surr.now surr.pruned).1 = false)
    (hstatus : res.status = 429) :
    Prepared lib srv surr req w none { ((w.call
      (.isAllowed (getRealClientIp req) surr.now surr.pruned)).call
      (.getRemaining (getRealClientIp req) surr.remaining)) with res }
  | unlimited (hkey : srv.enableApiAuth = true → Authorized lib srv req)
    (hip : getRealClientIp req ≠ "") (hlimiter : srv.enableRateLimiter = false) :
    Prepared lib srv surr req w (some (getRealClientIp req)) w
  | admitted (hkey : srv.enableApiAuth = true → Authorized lib srv req)
    (hip : getRealClientIp req ≠ "") (hlimiter : srv.enableRateLimiter = true)
    (hallowed : (w.limiter.isAllowed (getRealClientIp req) surr.now surr.pruned).1 = true) :
    Prepared lib srv surr req w (some (getRealClientIp req))
      (w.call (.isAllowed (getRealClientIp req) surr.now surr.pruned))

@[simp] theorem run_isAllowed (ip : String) : (isAllowed surr ip).run w =
    .ok (w.limiter.isAllowed ip surr.now surr.pruned).1
      (w.call (.isAllowed ip surr.now surr.pruned)) := rfl

@[simp] theorem run_getRemaining (ip : String) : (getRemaining surr ip).run w =
    .ok (w.limiter.getRemaining ip surr.remaining).1
      (w.call (.getRemaining ip surr.remaining)) := rfl

theorem dump_limitJson (remaining : ℤ) :
    ∃ body, lib.json.dump (limitJson remaining) = .ok body := by
  rw [limitJson, JsonLibrary.dump_eq_ok]
  refine Json.isUtf8Text_set (Json.isUtf8Text_set rfl ?_ ?_) ?_ rfl
  all_goals exact Json.validUtf8_of_ascii (by decide)

theorem prepareRequest_cases : ∃ clientIp w',
    (prepareRequest lib srv surr req).run w = .ok clientIp w' ∧
      Prepared lib srv surr req w clientIp w' := by
  rw [prepareRequest, EStateM.run_bind]
  obtain ⟨hkey, hrun⟩ | ⟨hauth, hkey, res, hrun, hstatus⟩ :=
    @authenticateRequest_cases lib srv req w
  · simp only [hrun, Bool.not_true, Bool.false_eq_true, if_false]
    split
    · next hip =>
      simp (disch := exact Json.validUtf8_of_ascii (by decide)) only [EStateM.run_bind,
        run_sendErrorResponse]
      exact ⟨_, _, rfl, .unknown hkey hip rfl⟩
    · next hip =>
      split
      · next hlimiter => exact ⟨_, _, rfl, .unlimited hkey hip (by simpa using hlimiter)⟩
      · next hlimiter =>
        have hlimiter : srv.enableRateLimiter = true := by simpa using hlimiter
        rw [EStateM.run_bind, run_isAllowed]
        simp only
        split
        · next hallowed => exact ⟨_, _, rfl, .admitted hkey hip hlimiter hallowed⟩
        · next hallowed =>
          obtain ⟨body, hbody⟩ := @dump_limitJson lib
            ((w.call (.isAllowed (getRealClientIp req) surr.now surr.pruned)).limiter.getRemaining
              (getRealClientIp req) surr.remaining).1
          simp only [EStateM.run_bind, run_getRemaining, run_sendJsonResponse, hbody]
          exact ⟨_, _, rfl, .limited hkey hip hlimiter (by simpa using hallowed) rfl⟩
  · rw [hrun]
    exact ⟨_, _, rfl, .unauthorized hauth hkey hstatus⟩

/-! ### What a lookup does -/

variable {R : World → World → Prop} [IsPreorder World R]

theorem guarantees_catchGet (hset : ∀ status, Guarantees R (setStatus status))
    (hcontent : ∀ body contentType, Guarantees R (setContent body contentType))
    (hemit : ∀ event, event.limiterOp? = none → Guarantees R (emit event)) (e : Exn) :
    Guarantees R (catchGet lib e) := by
  rw [catchGet]
  split
  · exact .throw _
  · exact .bind (hset _) fun _ => .bind (.ofExcept _) fun _ => .bind (hcontent _ _)
      fun _ => hemit _ rfl

theorem guarantees_catchPost (hset : ∀ status, Guarantees R (setStatus status))
    (hcontent : ∀ body contentType, Guarantees R (setContent body contentType))
    (hemit : ∀ event, event.limiterOp? = none → Guarantees R (emit event)) (e : Exn) :
    Guarantees R (catchPost lib e) := by
  cases e with
  | json what => exact guarantees_sendJsonResponse (hset _) hcontent _
  | foreign => exact .throw _
  | invalidArgument what | std what =>
    exact .bind (guarantees_sendJsonResponse (hset _) hcontent _) fun _ => hemit _ rfl

/-- After `prepare_request`, a lookup sets the response, looks addresses up and records. -/
theorem guarantees_lookupGet (hset : ∀ status, Guarantees R (setStatus status))
    (hcontent : ∀ body contentType, Guarantees R (setContent body contentType))
    (hemit : ∀ event, event.limiterOp? = none → Guarantees R (emit event)) (clientIp : String) :
    Guarantees R (lookupGet lib srv surr req clientIp) := by
  rw [lookupGet]
  split
  · exact guarantees_sendJsonResponse (hset _) hcontent _
  · refine .tryCatch ?_ (guarantees_catchGet hset hcontent hemit)
    split
    · exact guarantees_sendJsonResponse (hset _) hcontent _
    · split
      · exact guarantees_sendJsonResponse (hset _) hcontent _
      · exact .bind (hemit _ rfl) fun _ => .bind (.ofExcept _) fun _ => .bind (hemit _ rfl)
          fun _ => .bind (.ofExcept _) fun _ => hcontent _ _

theorem guarantees_lookupLoop
    (hemit : ∀ event, event.limiterOp? = none → Guarantees R (emit event)) (isMac : Bool)
    (handler : LookupHandler) (i : ℕ) (queries : List String) :
    Guarantees R (lookupLoop surr isMac handler i queries) := by
  induction queries generalizing i with
  | nil => exact .pure _
  | cons query queries ih =>
    exact .bind (hemit _ rfl) fun _ => .bind (.ofExcept _) fun _ => .bind (hemit _ rfl) fun _ =>
      .bind (ih (i + 1)) fun _ => .pure _

theorem guarantees_takeResults
    (hemit : ∀ event, event.limiterOp? = none → Guarantees R (emit event)) (i : ℕ)
    (taken : List (LookupResult × ℚ)) : Guarantees R (takeResults surr i taken) := by
  induction taken generalizing i with
  | nil => exact .pure _
  | cons result taken ih =>
    exact .bind (hemit _ rfl) fun _ => .bind (ih (i + 1)) fun _ => .pure _

theorem guarantees_lookupAsync
    (hemit : ∀ event, event.limiterOp? = none → Guarantees R (emit event)) (isMac : Bool)
    (handler : LookupHandler) (queries : List String) :
    Guarantees R (lookupAsync surr isMac handler queries) := by
  refine .bind (.forM (fun _ => hemit _ rfl) queries) fun _ =>
    .bind (guarantees_takeResults hemit 0 _) fun results => ?_
  split
  · exact .pure _
  · exact .throw _

theorem guarantees_lookupBatch (hset : ∀ status, Guarantees R (setStatus status))
    (hcontent : ∀ body contentType, Guarantees R (setContent body contentType))
    (hemit : ∀ event, event.limiterOp? = none → Guarantees R (emit event)) (isMac : Bool)
    (items : List Json) : Guarantees R (lookupBatch lib srv surr isMac items) := by
  rw [lookupBatch]
  split
  · exact guarantees_sendJsonResponse (hset _) hcontent _
  · split
    · exact guarantees_sendJsonResponse (hset _) hcontent _
    · refine .bind ?_ fun _ => .bind (.ofExcept _) fun _ => hcontent _ _
      rw [lookupAll]
      split
      · exact guarantees_lookupLoop hemit _ _ _ _
      · exact guarantees_lookupAsync hemit _ _ _

theorem guarantees_lookupPost (hset : ∀ status, Guarantees R (setStatus status))
    (hcontent : ∀ body contentType, Guarantees R (setContent body contentType))
    (hemit : ∀ event, event.limiterOp? = none → Guarantees R (emit event)) :
    Guarantees R (lookupPost lib srv surr req) := by
  refine .tryCatch (.bind (.ofExcept _) fun body => ?_) (guarantees_catchPost hset hcontent hemit)
  split
  · exact guarantees_sendJsonResponse (hset _) hcontent _
  · exact guarantees_sendJsonResponse (hset _) hcontent _
  · exact guarantees_lookupBatch hset hcontent hemit _ _
  · exact guarantees_lookupBatch hset hcontent hemit _ _

/-- A handler does the rest if `prepare_request` gives a client. -/
theorem run_withClient (rest : String → Handling Unit) :
    (∃ w', Prepared lib srv surr req w none w' ∧
      (withClient lib srv surr req rest).run w = .ok () w') ∨
    (∃ clientIp w', Prepared lib srv surr req w (some clientIp) w' ∧
      (withClient lib srv surr req rest).run w = (rest clientIp).run w') := by
  obtain ⟨clientIp, w', hrun, hprepared⟩ := @prepareRequest_cases lib srv surr req w
  rw [withClient, EStateM.run_bind, hrun]
  cases clientIp with
  | none => exact .inl ⟨w', hprepared, rfl⟩
  | some clientIp => exact .inr ⟨clientIp, w', hprepared, rfl⟩

theorem Prepared.tracked {clientIp : Option String} {w' : World}
    (h : Prepared lib srv surr req w clientIp w') : Tracked w w' := by
  cases h with
  | unauthorized | unknown | unlimited => exact ⟨[], (List.append_nil _).symm, rfl⟩
  | limited =>
    exact IsTrans.trans _ _ _ (tracked_call _)
      (tracked_call (w := w.call _) (.getRemaining _ surr.remaining))
  | admitted => exact tracked_call _

/-- After `prepare_request`, a lookup leaves the limiter alone. -/
theorem leaves_lookupGet (clientIp : String) : Guarantees
    (Leaves fun event => event.limiterOp? = none) (lookupGet lib srv surr req clientIp) :=
  guarantees_lookupGet leaves_setStatus leaves_setContent (fun _ h => leaves_emit h) clientIp

theorem leaves_lookupPost : Guarantees
    (Leaves fun event => event.limiterOp? = none) (lookupPost lib srv surr req) :=
  guarantees_lookupPost leaves_setStatus leaves_setContent fun _ h => leaves_emit h

theorem tracked_withClient {rest : String → Handling Unit} (hrest : ∀ clientIp, Guarantees
      (Leaves fun event => event.limiterOp? = none) (rest clientIp)) :
    Guarantees Tracked (withClient lib srv surr req rest) := by
  intro w
  obtain ⟨w', hprepared, hrun⟩ | ⟨clientIp, w', hprepared, hrun⟩ :=
    @run_withClient lib srv surr req w rest
  · rw [hrun]
    exact hprepared.tracked
  · rw [hrun]
    exact IsTrans.trans _ _ _ hprepared.tracked (hrest clientIp w').tracked

/-- The limiter after a request is what the calls of the request made of it. -/
theorem tracked_handle (route : Route) : Guarantees Tracked (handle lib srv surr req route) := by
  cases route with
  | lookupGet => exact tracked_withClient leaves_lookupGet
  | lookupPost => exact tracked_withClient fun _ => leaves_lookupPost
  | passwordGet =>
    exact (PasswordHandler.guarantees_handleGet (fun data status _ => leaves_sendJsonResponse _ _)
      fun _ h => leaves_emit h).mono fun _ _ => Leaves.tracked
  | passwordPost =>
    exact (PasswordHandler.guarantees_handlePost (fun data status _ => leaves_sendJsonResponse _ _)
      fun _ h => leaves_emit h).mono fun _ _ => Leaves.tracked

/-! ### What comes of a request -/

@[simp] theorem Outcome.events_ofResult (r : EStateM.Result Exn World Unit) :
    (ofResult r).events = (endState r).events := by
  cases r <;> rfl

@[simp] theorem Outcome.limiter_ofResult (r : EStateM.Result Exn World Unit) :
    (ofResult r).limiter = (endState r).limiter := by
  cases r <;> rfl

theorem Outcome.response_ofResult {r : EStateM.Result Exn World Unit} {res : Response}
    (h : (ofResult r).response = .ok res) : (endState r).res = res := by
  cases r with
  | ok _ w => exact Except.ok.inj h
  | error e w => cases h

end IpServer.IPGeoHTTPServer
