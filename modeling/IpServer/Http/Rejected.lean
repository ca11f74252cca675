import IpServer.Http.Accounting

/-!
# Lookups that are rejected

A lookup that is answered with a status from 400 to 499 should have been rejected because of the
request alone, before a handler was called or anything recorded (`Rejection`). For a single
lookup this is so. A batch is answered with 400, too, when its lookups end with an exception of
the JSON library: one that a handler throws, or the one of data that are not UTF-8.

* `Admitted`: the request gets past `prepare_request` (`Admitted.prepared`).
* `quiet_lookupGet`, `quiet_lookupPost`: what is rejected after it is rejected because of the
  request.
* `worked_lookupAll`: when lookups end with an exception, a handler was called.
* `rejectsAlone_iff`: which lookups are rejected because of the request alone.
-/

namespace IpServer.IPGeoHTTPServer

open Handling Json

variable (lib : Libraries) (srv : IPGeoHTTPServer) (surr : Surroundings) (req : Request)
  (limiter : RateLimiter)

/-- The server with other handlers in the place of those that are registered. -/
def withHandlers (f g : LookupHandler) : IPGeoHTTPServer :=
  { srv with
    lookupHandler := srv.lookupHandler.map fun _ => f
    macLookupHandler := srv.macLookupHandler.map fun _ => g }

/-- The calls of the limiter for a lookup that is rejected with a status. -/
def rejectionCalls (status : ℤ) : List LimiterOp :=
  if status = 401 ∨ getRealClientIp req = "" ∨ srv.enableRateLimiter = false then []
  else
    .isAllowed (getRealClientIp req) surr.now surr.pruned ::
      if status = 429 then [.getRemaining (getRealClientIp req) surr.remaining] else []

/-- A lookup that is answered with `res` has no effect but on the limiter, and would be answered so
    with any handlers. -/
structure Rejection (route : Route) (res : Response) : Prop where
  idle : (serve lib srv surr req route limiter).worked = false
  metrics : ∀ m : Metrics, m.after (serve lib srv surr req route limiter).events = m
  calls : (serve lib srv surr req route limiter).events.filterMap Event.limiterOp? =
    rejectionCalls srv surr req res.status
  limiter_eq : (serve lib srv surr req route limiter).limiter =
    RateLimiter.step.run limiter (rejectionCalls srv surr req res.status)
  handlers : ∀ f g, (serve lib (srv.withHandlers f g) surr req route limiter).response = .ok res

/-- If the lookup is answered with a status from 400 to 499, it is a rejection. -/
def RejectsAlone (route : Route) : Prop :=
  ∀ res, (serve lib srv surr req route limiter).response = .ok res →
    400 ≤ res.status → res.status < 500 → Rejection lib srv surr req limiter route res

/-- The request has a key if one is asked for, and a client that the limiter, if there is one,
    admits. -/
structure Admitted : Prop where
  authorized : srv.enableApiAuth = true → Authorized lib srv req
  known : getRealClientIp req ≠ ""
  allowed : srv.enableRateLimiter = true →
    (limiter.isAllowed (getRealClientIp req) surr.now surr.pruned).1 = true

/-- The body asks for a batch, and its lookups end with an exception of the JSON library, of which
    the text can be sent: one that a handler throws, or the one of data that are not UTF-8. -/
def LookupsEndInJson : Prop :=
  ∃ body isMac items what, lib.json.parse req.body = .ok body ∧
    arrayAt body (arrayKey isMac) = some items ∧ arrayAt body (arrayKey !isMac) = none ∧
    (triedBatch lib srv surr isMac items).2 = some (.json what) ∧ validUtf8 what = true

/-- What is answered with a status from 400 to 499 is answered with 400, in another way as well,
    and nothing else is done. -/
def Quiet (x y : Handling Unit) (w : World) : Prop :=
  ∀ w', x.run w = .ok () w' → 400 ≤ w'.res.status → w'.res.status < 500 →
    w'.res.status = 400 ∧ w' = { w with res := w'.res } ∧ y.run w = .ok () w'

variable {lib srv surr req limiter} {w : World} {f g : LookupHandler}

theorem handlerFor_withHandlers (isMac : Bool) : (srv.withHandlers f g).handlerFor isMac =
    (srv.handlerFor isMac).map fun _ => if isMac then g else f := by
  cases isMac with
  | true => rfl
  | false => rfl

/-! ### After the client is known -/

/-- What is sent in another way as well is a rejection. -/
theorem quiet_of_eq {x y : Handling Unit} {w' : World} (hx : x.run w = .ok () w')
    (hy : y.run w = .ok () w') (hstatus : w'.res.status = 400)
    (hw : w' = { w with res := w'.res }) : Quiet x y w := by
  intro w'' hrun _ _
  obtain rfl : w' = w'' := by
    rw [hx] at hrun
    exact (EStateM.Result.ok.inj hrun).2
  exact ⟨hstatus, hw, hy⟩

/-- A message that is sent in another way as well is a rejection, if it can be sent. -/
theorem quiet_of_sent {x y : Handling Unit} {message : String}
    (hx : x.run w = (sendErrorResponse lib.json 400 "Bad Request" message).run w)
    (hy : y.run w = (sendErrorResponse lib.json 400 "Bad Request" message).run w) :
    Quiet x y w := by
  by_cases hmessage : validUtf8 message = true
  · have hsent := @run_sendErrorResponse lib.json w "Bad Request" message 400
      validUtf8_badRequest hmessage
    exact quiet_of_eq (hx.trans hsent) (hy.trans hsent) rfl rfl
  · obtain ⟨e, he⟩ := @run_sendErrorResponse_of_not lib.json w message 400 "Bad Request" hmessage
    intro w' hrun
    rw [hx, he] at hrun
    cases hrun

/-- A response with another status is no rejection. -/
theorem quiet_of_status {x y : Handling Unit}
    (h : ∀ w', x.run w = .ok () w' → w'.res.status ∈ ({200, 500} : Set ℤ)) : Quiet x y w := by
  intro w' hrun hge hlt
  rcases h w' hrun with hstatus | hstatus
  · have h200 : w'.res.status = 200 := hstatus
    omega
  · have h500 : w'.res.status = 500 := hstatus
    omega

theorem status_of_guarantees {x : Handling Unit} {w' : World}
    (h : Guarantees (StatusIn {200, 500}) x) (hres : w.res.status ∈ ({200, 500} : Set ℤ))
    (hrun : x.run w = .ok () w') : w'.res.status ∈ ({200, 500} : Set ℤ) := by
  have hstatus := h w hres
  rwa [hrun] at hstatus

theorem statusIn_sendErrorResponse (error message : String) :
    Guarantees (StatusIn {200, 500}) (sendErrorResponse lib.json 500 error message) :=
  guarantees_sendJsonResponse (statusIn_setStatus (.inr rfl)) statusIn_setContent _

theorem statusIn_catchGet (e : Exn) : Guarantees (StatusIn {200, 500}) (catchGet lib e) := by
  rw [catchGet]
  rcases e.what? with _ | what
  · exact .throw _
  · exact .bind (statusIn_setStatus (.inr rfl)) fun _ => .bind (.ofExcept _) fun _ =>
      .bind (statusIn_setContent _ _) fun _ => statusIn_emit _

/-- A single lookup is rejected because of the request, if it is. -/
theorem quiet_lookupGet (hres : w.res = corsResponse) (clientIp : String) :
    Quiet (lookupGet lib srv surr req clientIp)
      (lookupGet lib (srv.withHandlers f g) surr req clientIp) w := by
  by_cases hboth : req.param "mac" ≠ "" ∧ req.param "ip" ≠ ""
  · refine @quiet_of_sent lib w _ _
      "Cannot specify both 'ip' and 'mac' parameters simultaneously" ?_ ?_
    · rw [lookupGet, if_pos hboth]
    · rw [lookupGet, if_pos hboth]
  · by_cases hvalid :
      isValidFormat lib (decide (req.param "mac" ≠ "")) (queryOf req clientIp) = true
    · -- the handler is called, if there is one: no exception leads to a rejection
      refine quiet_of_status fun w' => status_of_guarantees ?_ (hres ▸ .inl rfl)
      rw [lookupGet, if_neg hboth]
      refine .tryCatch ?_ statusIn_catchGet
      rw [hvalid, Bool.not_true, if_neg Bool.false_ne_true]
      rcases srv.handlerFor (decide (req.param "mac" ≠ "")) with _ | handler
      · exact statusIn_sendErrorResponse _ _
      · exact .bind (statusIn_emit _) fun _ => .bind (.ofExcept _) fun _ =>
          .bind (statusIn_emit _) fun _ => .bind (.ofExcept _) fun _ => statusIn_setContent _ _
    · have hsent := @run_sendErrorResponse lib.json w _ _ 400 validUtf8_badRequest
        (validUtf8_invalidFormat (decide (req.param "mac" ≠ "")))
      have hrun (srv : IPGeoHTTPServer) : (lookupGet lib srv surr req clientIp).run w =
          (sendErrorResponse lib.json 400 "Bad Request" (if decide (req.param "mac" ≠ "") = true
            then "Invalid MAC address format" else "Invalid IP address format")).run w := by
        rw [lookupGet, if_neg hboth, run_tryCatch, Bool.eq_false_iff.2 hvalid, Bool.not_false,
          if_pos rfl, hsent]
      exact quiet_of_sent (hrun srv) (hrun _)

/-! ### Batches -/

/-- An exception that is not one of the JSON library does not lead to a rejection. -/
theorem statusIn_catchPost {e : Exn} (h : ∀ what, e ≠ .json what) :
    Guarantees (StatusIn {200, 500}) (catchPost lib e) := by
  have hinternal (what : String) :
      Guarantees (StatusIn {200, 500}) (internalError lib.json what) :=
    .bind (statusIn_sendErrorResponse _ _) fun _ => statusIn_emit _
  rcases e with what | what | what | _
  · exact absurd rfl (h what)
  · exact hinternal what
  · exact hinternal what
  · exact .throw _

theorem statusIn_lookupAll (isMac : Bool) (handler : LookupHandler) (queries : List String) :
    Guarantees (StatusIn {200, 500}) (lookupAll surr isMac handler queries) := by
  rw [lookupAll]
  split
  · exact guarantees_lookupLoop (fun event _ => statusIn_emit event) _ _ _ _
  · exact guarantees_lookupAsync (fun event _ => statusIn_emit event) _ _ _

/-- A batch is rejected because of its length, if its lookups do not end with an exception of the
    JSON library. -/
theorem quiet_lookupBatch (hres : w.res = corsResponse) {isMac : Bool} {items : List Json}
    (hend : ∀ what, (triedBatch lib srv surr isMac items).2 = some (.json what) →
      ¬validUtf8 what = true) :
    Quiet (tryCatch (lookupBatch lib srv surr isMac items) (catchPost lib))
      (tryCatch (lookupBatch lib (srv.withHandlers f g) surr isMac items) (catchPost lib)) w := by
  rcases hhandler : srv.handlerFor isMac with _ | handler
  · refine quiet_of_status fun w' hrun => ?_
    rw [lookupBatch, hhandler, run_tryCatch] at hrun
    dsimp only at hrun
    rw [run_sendErrorResponse 500 validUtf8_internalServerError
      (validUtf8_notConfigured isMac)] at hrun
    obtain rfl := (EStateM.Result.ok.inj hrun).2
    exact .inr rfl
  · rcases lt_or_ge srv.maxBatchSize (items.length : ℤ) with hlong | hlen
    · -- the batch is too long for any handler
      have hhandler' : (srv.withHandlers f g).handlerFor isMac = some (if isMac then g else f) := by
        rw [handlerFor_withHandlers, hhandler, Option.map_some]
      obtain ⟨text, htext, hrun⟩ :=
        @run_lookupBatch_of_length lib srv surr w handler _ _ hhandler hlong
      obtain ⟨text', htext', hrun'⟩ :=
        @run_lookupBatch_of_length lib (srv.withHandlers f g) surr w _ _ _ hhandler' hlong
      obtain rfl : text = text' := Except.ok.inj (htext.symm.trans htext')
      exact quiet_of_eq hrun hrun' rfl rfl
    · -- the lookups set the status to 200 at most, and a 4xx comes from `catchPost` alone
      have hstatus : Guarantees (StatusIn {200, 500}) (lookupBatch lib srv surr isMac items) := by
        rw [lookupBatch, hhandler]
        dsimp only
        rw [if_neg (not_lt.2 hlen)]
        exact .bind (statusIn_lookupAll _ _ _) fun _ => .bind (.ofExcept _) fun _ =>
          statusIn_setContent _ _
      have hok := hstatus w (hres ▸ .inl rfl)
      obtain ⟨-, hthrown⟩ := @tries_lookupBatch lib srv surr w isMac items
      refine quiet_of_status fun w' hrun => ?_
      rw [run_tryCatch] at hrun
      rcases hbatch : (lookupBatch lib srv surr isMac items).run w with ⟨_, w₁⟩ | ⟨e, w₁⟩
      · rw [hbatch] at hok hrun
        obtain rfl := (EStateM.Result.ok.inj hrun).2
        exact hok
      · rw [hbatch] at hok hrun hthrown
        dsimp only at hrun hthrown
        by_cases hjson : ∃ what, e = .json what
        · -- the text of the exception cannot be sent
          obtain ⟨what, rfl⟩ := hjson
          have hnot : ¬validUtf8 ("Invalid JSON: " ++ what) = true := by
            rw [validUtf8_append (by decide)]
            exact hend what hthrown
          obtain ⟨e, he⟩ := @run_sendErrorResponse_of_not lib.json w₁ _ 400 "Bad Request" hnot
          rw [catchPost, he] at hrun
          cases hrun
        · exact status_of_guarantees (statusIn_catchPost fun what h => hjson ⟨what, h⟩) hok hrun

/-- The body is no JSON, or has no array, or has both: it is rejected. Else it is a batch. -/
theorem quiet_lookupPost (hres : w.res = corsResponse) (hend : ¬LookupsEndInJson lib srv surr req) :
    Quiet (lookupPost lib srv surr req) (lookupPost lib (srv.withHandlers f g) surr req) w := by
  have hbatch {isMac : Bool} {body : Json} {items : List Json}
      (hparse : lib.json.parse req.body = .ok body)
      (harray : arrayAt body (arrayKey isMac) = some items)
      (hother : arrayAt body (arrayKey !isMac) = none) :
      Quiet (lookupPost lib srv surr req) (lookupPost lib (srv.withHandlers f g) surr req) w := by
    have hquiet := @quiet_lookupBatch lib srv surr w f g hres isMac items fun what hwhat hvalid =>
      hend ⟨body, isMac, items, what, hparse, harray, hother, hwhat, hvalid⟩
    intro w' hrun hge hlt
    rw [run_lookupPost hparse harray hother] at hrun ⊢
    exact hquiet w' hrun hge hlt
  rcases hparse : lib.json.parse req.body with what | body
  · have hrun (srv : IPGeoHTTPServer) : (lookupPost lib srv surr req).run w =
        (sendErrorResponse lib.json 400 "Bad Request" ("Invalid JSON: " ++ what)).run w := by
      rw [lookupPost, hparse, Except.mapError, run_tryCatch_bind_error (run_ofExcept_error _),
        catchPost]
    exact quiet_of_sent (hrun srv) (hrun _)
  · have hsent {message : String} (hmessage : validUtf8 message = true) :
        (tryCatch (sendErrorResponse lib.json 400 "Bad Request" message) (catchPost lib)).run w =
          (sendErrorResponse lib.json 400 "Bad Request" message).run w := by
      rw [run_tryCatch, run_sendErrorResponse 400 validUtf8_badRequest hmessage]
    rcases hips : arrayAt body "ips" with _ | ips
    · rcases hmacs : arrayAt body "macs" with _ | macs
      · have hrun (srv : IPGeoHTTPServer) : (lookupPost lib srv surr req).run w =
            (sendErrorResponse lib.json 400 "Bad Request"
              "Missing or invalid 'ips' or 'macs' array in request body").run w := by
          rw [lookupPost, hparse, Except.mapError, run_tryCatch_bind_ok (run_ofExcept_ok body),
            hips, hmacs]
          exact hsent (validUtf8_of_ascii (by decide))
        exact quiet_of_sent (hrun srv) (hrun _)
      · exact @hbatch true _ _ hparse hmacs hips
    · rcases hmacs : arrayAt body "macs" with _ | macs
      · exact @hbatch false _ _ hparse hips hmacs
      · have hrun (srv : IPGeoHTTPServer) : (lookupPost lib srv surr req).run w =
            (sendErrorResponse lib.json 400 "Bad Request"
              "Cannot specify both 'ips' and 'macs' in the same request").run w := by
          rw [lookupPost, hparse, Except.mapError, run_tryCatch_bind_ok (run_ofExcept_ok body),
            hips, hmacs]
          exact hsent (validUtf8_of_ascii (by decide))
        exact quiet_of_sent (hrun srv) (hrun _)

/-! ### A handler is called -/

/-- Once a call is made it is not forgotten. -/
theorem worked_bind {α β : Type} {x : Handling α} {rest : α → Handling β}
    (hx : (endState (x.run w)).events.any Event.isWork = true)
    (hrest : ∀ a, Guarantees (Leaves fun _ => True) (rest a)) :
    (endState ((x >>= rest).run w)).events.any Event.isWork = true := by
  rw [EStateM.run_bind]
  rcases hrun : x.run w with ⟨a, w'⟩ | ⟨e, w'⟩
  · obtain ⟨-, new, hnew, -⟩ := hrest a w'
    rw [hrun] at hx
    dsimp only
    rw [hnew, List.any_append, Bool.or_eq_true]
    exact .inl hx
  · rw [hrun] at hx
    exact hx

theorem worked_emit (isMac : Bool) (query : String) (w : World) :
    (endState ((emit (.lookup isMac query)).run w)).events.any Event.isWork = true := by
  rw [run_emit]
  exact List.any_eq_true.2 ⟨_, List.mem_append_right _ (List.mem_singleton_self _), rfl⟩

/-- Lookups call a handler, if there are any. -/
theorem worked_lookupAll {isMac : Bool} {handler : LookupHandler} {queries : List String}
    (h : queries ≠ []) (w : World) :
    (endState ((lookupAll surr isMac handler queries).run w)).events.any Event.isWork = true := by
  have hemit : ∀ event : Event, event.limiterOp? = none →
      Guarantees (Leaves fun _ => True) (emit event) := fun _ _ => leaves_emit trivial
  rcases queries with _ | ⟨query, queries⟩
  · exact absurd rfl h
  · rw [lookupAll]
    split
    · rw [lookupLoop]
      exact worked_bind (worked_emit isMac query w) fun _ => .bind (.ofExcept _) fun _ =>
        .bind (hemit _ rfl) fun _ => .bind (guarantees_lookupLoop hemit _ _ _ _) fun _ => .pure _
    · rw [lookupAsync, List.forM, bind_assoc]
      refine worked_bind (worked_emit isMac query w) fun _ =>
        .bind (.forM (fun _ => hemit _ rfl) queries) fun _ =>
          .bind (guarantees_takeResults hemit 0 _) fun results => ?_
      split
      · exact .pure _
      · exact .throw _

/-- Only lookups end with an exception. -/
theorem worked_of_thrown {isMac : Bool} {items : List Json} {e : Exn}
    (hend : (triedBatch lib srv surr isMac items).2 = some e) (w : World) :
    (endState ((lookupBatch lib srv surr isMac items).run w)).events.any Event.isWork = true := by
  rw [triedBatch] at hend
  rw [lookupBatch]
  rcases hhandler : srv.handlerFor isMac with _ | handler
  · rw [hhandler] at hend
    cases hend
  · rw [hhandler] at hend
    dsimp only at hend ⊢
    by_cases hlong : (items.length : ℤ) > srv.maxBatchSize
    · rw [if_pos hlong] at hend
      cases hend
    · rw [if_neg hlong] at hend ⊢
      have hsome : accepted lib isMac items ≠ [] := by
        intro hnil
        rw [hnil] at hend
        cases hend
      exact worked_bind (worked_lookupAll hsome w) fun _ => .bind (.ofExcept _) fun _ =>
        leaves_setContent _ _

/-- Lookups that end with an exception of the JSON library are answered with 400, if its text can
    be sent. -/
theorem worked_of_endInJson {isMac : Bool} {items : List Json} {what : String}
    (hend : (triedBatch lib srv surr isMac items).2 = some (.json what))
    (hvalid : validUtf8 what = true) : ∃ w',
      (tryCatch (lookupBatch lib srv surr isMac items) (catchPost lib)).run w = .ok () w' ∧
        w'.res.status = 400 ∧ w'.events.any Event.isWork = true := by
  obtain ⟨-, hthrown⟩ := @tries_lookupBatch lib srv surr w isMac items
  have hworked := worked_of_thrown hend w
  rw [hend] at hthrown
  rcases hbatch : (lookupBatch lib srv surr isMac items).run w with ⟨_, w₁⟩ | ⟨e, w₁⟩
  · rw [hbatch] at hthrown
    cases hthrown
  · rw [hbatch] at hthrown hworked
    obtain rfl : .json what = e := Option.some_inj.1 hthrown
    have hmessage : validUtf8 ("Invalid JSON: " ++ what) = true := by
      rw [validUtf8_append (by decide)]
      exact hvalid
    have hsent := @run_sendErrorResponse lib.json w₁ "Bad Request" _ 400 validUtf8_badRequest
      hmessage
    have hrun : (tryCatch (lookupBatch lib srv surr isMac items) (catchPost lib)).run w = .ok ()
        { w₁ with res := w₁.res.withJson 400 (errorText "Bad Request"
          ("Invalid JSON: " ++ what)) } := by
      rw [run_tryCatch, hbatch]
      exact hsent
    exact ⟨_, hrun, rfl, hworked⟩

/-! ### What comes of a lookup -/

/-- Nothing is done but calls of the limiter. -/
theorem rejection_of_calls {route : Route} {w' : World}
    (hrun : ∀ srv', srv' = srv ∨ (∃ f g, srv' = srv.withHandlers f g) →
      (handle lib srv' surr req route).run ⟨corsResponse, limiter, []⟩ = .ok () w')
    (hevents : w'.events = (rejectionCalls srv surr req w'.res.status).map .limiter)
    (hlimiter : w'.limiter =
      RateLimiter.step.run limiter (rejectionCalls srv surr req w'.res.status)) :
    Rejection lib srv surr req limiter route w'.res := by
  have hserve : serve lib srv surr req route limiter = ⟨.ok w'.res, w'.limiter, w'.events⟩ := by
    rw [serve, hrun srv (.inl rfl)]
    rfl
  constructor
  · rw [hserve, Outcome.worked, hevents, List.any_map, List.any_eq_false]
    intro op _
    exact Bool.false_ne_true
  · intro m
    have hnone : w'.events.filterMap Event.metricsCall? = [] := by
      rw [hevents, List.filterMap_map]
      exact List.filterMap_eq_nil_iff.2 fun _ _ => rfl
    rw [hserve, Metrics.after, hnone]
    rfl
  · rw [hserve, hevents, List.filterMap_map]
    exact List.filterMap_some
  · rw [hserve]
    exact hlimiter
  · intro f g
    rw [serve, hrun _ (.inr ⟨f, g, rfl⟩)]
    rfl

/-- The handlers have no part in what comes before them. -/
theorem withClient_withHandlers (rest : String → Handling Unit) :
    withClient lib (srv.withHandlers f g) surr req rest = withClient lib srv surr req rest := rfl

theorem rejectionCalls_of_none {w' : World}
    (h : Prepared lib srv surr req ⟨corsResponse, limiter, []⟩ none w') :
    w'.events = (rejectionCalls srv surr req w'.res.status).map .limiter ∧
      w'.limiter = RateLimiter.step.run limiter (rejectionCalls srv surr req w'.res.status) := by
  rw [rejectionCalls]
  cases h with
  | unauthorized hauth hkey hstatus =>
    rw [if_pos (.inl hstatus)]
    exact ⟨rfl, rfl⟩
  | unknown hkey hip hstatus =>
    rw [if_pos (.inr (.inl hip))]
    exact ⟨rfl, rfl⟩
  | @limited res hkey hip hlimiter hdenied hstatus =>
    have hstatus : res.status = 429 := hstatus
    simp only [World.call, hstatus, hip, hlimiter, Bool.true_eq_false, or_false, if_true]
    exact ⟨rfl, rfl⟩

theorem rejectionCalls_of_some {w' : World} {clientIp : String}
    (h : Prepared lib srv surr req ⟨corsResponse, limiter, []⟩ (some clientIp) w') :
    w'.events = (rejectionCalls srv surr req 400).map .limiter ∧
      w'.limiter = RateLimiter.step.run limiter (rejectionCalls srv surr req 400) := by
  rw [rejectionCalls]
  cases h with
  | unlimited hkey hip hlimiter =>
    rw [if_pos (.inr (.inr hlimiter))]
    exact ⟨rfl, rfl⟩
  | admitted hkey hip hlimiter hallowed =>
    simp only [hip, hlimiter, Bool.true_eq_false, or_false]
    exact ⟨rfl, rfl⟩

theorem Prepared.admitted_of_some {w' : World} {clientIp : String}
    (h : Prepared lib srv surr req w (some clientIp) w') : Admitted lib srv surr req w.limiter := by
  cases h with
  | unlimited hkey hip hlimiter =>
    exact ⟨hkey, hip, fun h => absurd (hlimiter.symm.trans h) Bool.false_ne_true⟩
  | admitted hkey hip hlimiter hallowed => exact ⟨hkey, hip, fun _ => hallowed⟩

theorem Admitted.prepared (h : Admitted lib srv surr req w.limiter) : ∃ clientIp w',
    (prepareRequest lib srv surr req).run w = .ok (some clientIp) w' := by
  obtain ⟨clientIp, w', hrun, hprepared⟩ := @prepareRequest_cases lib srv surr req w
  rcases clientIp with _ | clientIp
  · cases hprepared with
    | unauthorized hauth hkey hstatus => exact absurd (h.authorized hauth) hkey
    | unknown hkey hip hstatus => exact absurd hip h.known
    | limited hkey hip hlimiter hdenied hstatus =>
      rw [h.allowed hlimiter] at hdenied
      cases hdenied
  · exact ⟨clientIp, w', hrun⟩

/-- If what comes after the client is known is quiet, then a lookup is. -/
theorem rejectsAlone_of_quiet {route : Route} {rest : IPGeoHTTPServer → String → Handling Unit}
    (hhandle : ∀ srv, handle lib srv surr req route = withClient lib srv surr req (rest srv))
    (hquiet : Admitted lib srv surr req limiter → ∀ f g w clientIp, w.res = corsResponse →
      Quiet (rest srv clientIp) (rest (srv.withHandlers f g) clientIp) w) :
    RejectsAlone lib srv surr req limiter route := by
  intro res hres hge hlt
  obtain ⟨clientIp, w', hrun, hprepared⟩ :=
    @prepareRequest_cases lib srv surr req ⟨corsResponse, limiter, []⟩
  rw [serve, hhandle, withClient, EStateM.run_bind, hrun] at hres
  rcases clientIp with _ | clientIp
  · -- it is `prepare_request` that rejects, before any handler is looked at
    obtain rfl : w'.res = res := Except.ok.inj hres
    obtain ⟨hevents, hlimiter⟩ := rejectionCalls_of_none hprepared
    have hnone (rest : String → Handling Unit) :
        (withClient lib srv surr req rest).run ⟨corsResponse, limiter, []⟩ = .ok () w' := by
      rw [withClient, EStateM.run_bind, hrun]
      rfl
    refine rejection_of_calls ?_ hevents hlimiter
    rintro srv' (rfl | ⟨f, g, rfl⟩)
    · rw [hhandle, hnone]
    · rw [hhandle, withClient_withHandlers, hnone]
  · have hsome (rest : String → Handling Unit) :
        (withClient lib srv surr req rest).run ⟨corsResponse, limiter, []⟩ =
          (rest clientIp).run w' := by
      rw [withClient, EStateM.run_bind, hrun]
    dsimp only at hres
    rcases hrest : (rest srv clientIp).run w' with ⟨_, w''⟩ | ⟨e, w''⟩
    · rw [hrest] at hres
      obtain rfl : w''.res = res := Except.ok.inj hres
      have hstart : w'.res = corsResponse := hprepared.some_eq.1
      -- the rejection is the same with any handlers, and does nothing after `prepare_request`
      have hall := fun f g => hquiet hprepared.admitted_of_some f g w' clientIp hstart w'' hrest
        hge hlt
      obtain ⟨hstatus, hw, -⟩ := hall (fun _ _ => .error .foreign) fun _ _ => .error .foreign
      obtain ⟨hevents, hlimiter⟩ := rejectionCalls_of_some hprepared
      refine rejection_of_calls ?_ ?_ ?_
      · rintro srv' (rfl | ⟨f, g, rfl⟩)
        · rw [hhandle, hsome, hrest]
        · rw [hhandle, withClient_withHandlers, hsome, (hall f g).2.2]
      · rw [hstatus, hw]
        exact hevents
      · rw [hstatus, hw]
        exact hlimiter
    · rw [hrest] at hres
      cases hres

/-- A single lookup is rejected because of the request alone. A batch is exactly if the request does
    not get past `prepare_request`, or its lookups do not end with an exception of the JSON library
    of which the text can be sent. -/
theorem rejectsAlone_iff (lib : Libraries) (srv : IPGeoHTTPServer) (surr : Surroundings)
    (req : Request) (limiter : RateLimiter) :
    RejectsAlone lib srv surr req limiter .lookupGet ∧
    (RejectsAlone lib srv surr req limiter .lookupPost ↔
      ¬(Admitted lib srv surr req limiter ∧ LookupsEndInJson lib srv surr req)) := by
  refine ⟨@rejectsAlone_of_quiet lib srv surr req limiter .lookupGet
    (fun srv clientIp => lookupGet lib srv surr req clientIp) (fun _ => rfl)
    fun _ f g w clientIp hres => quiet_lookupGet hres clientIp, fun h => ?_, fun h => ?_⟩
  · rintro ⟨hadmitted, body, isMac, items, what, hparse, harray, hother, hend, hvalid⟩
    obtain ⟨clientIp, w, hrun⟩ :=
      @Admitted.prepared lib srv surr req ⟨corsResponse, limiter, []⟩ hadmitted
    obtain ⟨w', hbatch, hstatus, hworked⟩ := @worked_of_endInJson lib srv surr w _ _ _ hend hvalid
    rw [← run_lookupPost hparse harray hother] at hbatch
    have hserve : serve lib srv surr req .lookupPost limiter =
        ⟨.ok w'.res, w'.limiter, w'.events⟩ := by
      rw [serve, handle, handleLookupPost, withClient, EStateM.run_bind, hrun]
      dsimp only
      rw [hbatch]
      rfl
    -- the status is 400 although a handler was called
    have hidle := (h w'.res (by rw [hserve]) (by omega) (by omega)).idle
    rw [hserve, Outcome.worked, hworked] at hidle
    cases hidle
  · exact @rejectsAlone_of_quiet lib srv surr req limiter .lookupPost
      (fun srv _ => lookupPost lib srv surr req) (fun _ => rfl)
      fun hadmitted f g w clientIp hres => quiet_lookupPost hres fun hend => h ⟨hadmitted, hend⟩

/-- A server without a limiter or keys, whose handler returns a text that is not UTF-8. -/
def garbling : IPGeoHTTPServer :=
  new Libraries.sample.sha256 { enableRateLimiter := false } none
    (some fun _ _ => .ok ⟨.string "\xff", false⟩) none

/-- The text is looked up, and the request is recorded, before the batch is rejected. -/
theorem not_rejectsAlone_garbling :
    ¬RejectsAlone mixedLibraries garbling .sample mixedRequest (newLimiter {}) .lookupPost := by
  intro h
  have hstatus : ((serve mixedLibraries garbling .sample mixedRequest .lookupPost
      (newLimiter {})).response.map (·.status)).toOption = some 400 := by decide +kernel
  have hworked : (serve mixedLibraries garbling .sample mixedRequest .lookupPost
      (newLimiter {})).worked = true := by decide +kernel
  rcases hres : (serve mixedLibraries garbling .sample mixedRequest .lookupPost
      (newLimiter {})).response with e | res
  · rw [hres] at hstatus
    cases hstatus
  · rw [hres] at hstatus
    obtain hstatus : res.status = 400 := Option.some_inj.1 hstatus
    have hidle := (h res hres (by omega) (by omega)).idle
    rw [hworked] at hidle
    cases hidle

end IpServer.IPGeoHTTPServer
