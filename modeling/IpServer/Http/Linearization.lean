import IpServer.Http.Concurrent
import IpServer.Library.Coupling
import IpServer.RateLimiter.Observation

/-!
# One request after the other

Requests that are handled at the same time are answered as if they were handled one after the
other, in the order in which they begin (`begins`), that is, in which they call `is_allowed`. What
comes after that call does not depend on the limiter (`Blind`), except for what a client over its
limit is told to have left: its call of `get_remaining` may come later than that of a request
handled alone, but nobody else can notice it.

* `blind_proceed`: a request that may go on does the same whatever becomes of the limiter.
* `placed_run`: what comes of each request, and the limiter, in every order of steps.
* `linearized`: the requests have an order.
-/

namespace IpServer

/-- The same surroundings, but what remains is asked for as soon as a call has been denied. -/
def Surroundings.atOnce (surr : Surroundings) : Surroundings :=
  { surr with remaining := surr.pruned }

/-- The response to a client over its limit, with what it has left. -/
def Response.limited (res : Response) (body : String) : Response :=
  { res.withJson 429 body with headers := res.headers ++ [("Retry-After", "60")] }

/-- Worlds that differ in the limiter only, with limiters related by `L`. -/
structure SameWorlds (L : RateLimiter → RateLimiter → Prop) (w w' : World) : Prop where
  res_eq : w.res = w'.res
  events_eq : w.events = w'.events
  limiter : L w.limiter w'.limiter

/-- Two computations that do the same, without looking at the limiter. -/
def Blind {α : Type} (x y : Handling α) : Prop :=
  ∀ L, Coupled (SameWorlds L) x y (SameWorlds L) (SameWorlds L)

namespace Blind

open Handling

variable {α β : Type} {x y : Handling α} (lib : JsonLibrary)

theorem pure (a : α) : Blind (pure a : Handling α) (pure a) := fun _ => .pure a fun _ _ h => h

theorem throw (e : Exn) : Blind (throw e : Handling α) (throw e) := fun _ =>
  .throw e fun _ _ h => h

theorem ofExcept (a : Except Exn α) : Blind (ofExcept a : Handling α) (ofExcept a) := fun _ =>
  .ofExcept a

theorem bind {f g : α → Handling β} (hx : Blind x y) (hf : ∀ a, Blind (f a) (g a)) :
    Blind (x >>= f) (y >>= g) := fun L => .bind (hx L) fun a => hf a L

theorem tryCatch {f g : Exn → Handling α} (hx : Blind x y) (hf : ∀ e, Blind (f e) (g e)) :
    Blind (tryCatch x f) (tryCatch y g) := fun L => .tryCatch (hx L) fun e => hf e L

theorem forM {f g : β → Handling PUnit} (h : ∀ b, Blind (f b) (g b)) (bs : List β) :
    Blind (bs.forM f) (bs.forM g) := fun L => .forM (fun b => h b L) bs

/-- A change of the response, or a call. -/
theorem modify {f : World → World} (hlimiter : ∀ w, (f w).limiter = w.limiter)
    (hsame : ∀ w w', w.res = w'.res → w.events = w'.events →
      (f w).res = (f w').res ∧ (f w).events = (f w').events) :
    Blind (modify f) (modify f) := by
  refine fun L => .modify fun w w' h => ?_
  obtain ⟨hres, hevents⟩ := hsame w w' h.res_eq h.events_eq
  refine ⟨hres, hevents, ?_⟩
  rw [hlimiter, hlimiter]
  exact h.limiter

theorem setStatus (status : ℤ) : Blind (setStatus status) (setStatus status) :=
  modify (fun _ => rfl) fun _ _ hres hevents => ⟨by rw [hres], hevents⟩

theorem setHeader (key value : String) : Blind (setHeader key value) (setHeader key value) :=
  modify (fun _ => rfl) fun _ _ hres hevents => ⟨by rw [hres], hevents⟩

theorem setContent (body contentType : String) :
    Blind (setContent body contentType) (setContent body contentType) :=
  modify (fun _ => rfl) fun _ _ hres hevents => ⟨by rw [hres], hevents⟩

theorem emit (event : Event) : Blind (emit event) (emit event) :=
  modify (fun _ => rfl) fun _ _ hres hevents => ⟨hres, by rw [hevents]⟩

theorem sendJsonResponse (data : Json) (status : ℤ) :
    Blind (sendJsonResponse lib data status) (sendJsonResponse lib data status) :=
  .bind (setStatus status) fun _ => .bind (ofExcept _) fun _ => setContent _ _

theorem internalError (what : String) : Blind (internalError lib what) (internalError lib what) :=
  .bind (sendJsonResponse lib _ 500) fun _ => emit _

end Blind

namespace PasswordHandler

variable {lib : JsonLibrary} {toDouble : ℚ → UInt64} {maxBatch : ℤ} {surr : Surroundings}
  {req : Request}

theorem blind_catchGet (e : Exn) : Blind (catchGet lib e) (catchGet lib e) := by
  cases e with
  | invalidArgument what => exact .sendJsonResponse lib _ 400
  | json what | std what => exact .internalError lib what
  | foreign => exact .throw _

theorem blind_catchPost (e : Exn) : Blind (catchPost lib e) (catchPost lib e) := by
  cases e with
  | json what | invalidArgument what => exact .sendJsonResponse lib _ 400
  | std what => exact .internalError lib what
  | foreign => exact .throw _

theorem blind_handleGet :
    Blind (handleGet lib toDouble surr req) (handleGet lib toDouble surr.atOnce req) :=
  .tryCatch (.bind (.ofExcept _) fun _ => .bind (.emit _) fun _ => .bind (.ofExcept _) fun _ =>
    .bind (.emit _) fun _ => .sendJsonResponse lib _ 200) blind_catchGet

theorem blind_handlePost : Blind (handlePost lib toDouble maxBatch surr req)
    (handlePost lib toDouble maxBatch surr.atOnce req) := by
  refine .tryCatch (.bind (.ofExcept _) fun body => ?_) blind_catchPost
  dsimp only
  split
  · exact .sendJsonResponse lib _ 400
  · split
    · exact .sendJsonResponse lib _ 400
    · exact .bind (.emit _) fun _ => .bind (.ofExcept _) fun _ => .bind (.emit _) fun _ =>
        .sendJsonResponse lib _ 200

end PasswordHandler

namespace IPGeoHTTPServer

open Handling

variable {lib : Libraries} {srv : IPGeoHTTPServer} {surr : Surroundings} {req : Request}

/-! ### What does not depend on the limiter -/

theorem blind_authenticateRequest :
    Blind (authenticateRequest lib srv req) (authenticateRequest lib srv req) := by
  rw [authenticateRequest]
  split
  · exact .pure _
  · split
    · exact .pure _
    · dsimp only
      split
      · exact .bind (.sendJsonResponse lib.json _ 401) fun _ => .bind (.setHeader _ _) fun _ =>
          .pure _
      · split
        · exact .bind (.sendJsonResponse lib.json _ 401) fun _ => .bind (.setHeader _ _) fun _ =>
            .pure _
        · split
          · exact .bind (.sendJsonResponse lib.json _ 401) fun _ => .pure _
          · exact .pure _

theorem blind_catchGet (e : Exn) : Blind (catchGet lib e) (catchGet lib e) := by
  rw [catchGet]
  split
  · exact .throw _
  · exact .bind (.setStatus 500) fun _ => .bind (.ofExcept _) fun _ =>
      .bind (.setContent _ _) fun _ => .emit _

theorem blind_catchPost (e : Exn) : Blind (catchPost lib e) (catchPost lib e) := by
  cases e with
  | json what => exact .sendJsonResponse lib.json _ 400
  | invalidArgument what | std what => exact .internalError lib.json what
  | foreign => exact .throw _

theorem blind_lookupGet (clientIp : String) : Blind (lookupGet lib srv surr req clientIp)
    (lookupGet lib srv surr.atOnce req clientIp) := by
  rw [lookupGet, lookupGet]
  split
  · exact .sendJsonResponse lib.json _ 400
  · refine .tryCatch ?_ blind_catchGet
    split
    · exact .sendJsonResponse lib.json _ 400
    · split
      · exact .sendJsonResponse lib.json _ 500
      · exact .bind (.emit _) fun _ => .bind (.ofExcept _) fun _ => .bind (.emit _) fun _ =>
          .bind (.ofExcept _) fun _ => .setContent _ _

theorem blind_lookupLoop (isMac : Bool) (handler : LookupHandler) (i : ℕ)
    (queries : List String) : Blind (lookupLoop surr isMac handler i queries)
      (lookupLoop surr.atOnce isMac handler i queries) := by
  induction queries generalizing i with
  | nil => exact .pure _
  | cons query queries ih =>
    exact .bind (.emit _) fun _ => .bind (.ofExcept _) fun _ => .bind (.emit _) fun _ =>
      .bind (ih (i + 1)) fun _ => .pure _

theorem blind_takeResults (i : ℕ) (taken : List (LookupResult × ℚ)) :
    Blind (takeResults surr i taken) (takeResults surr.atOnce i taken) := by
  induction taken generalizing i with
  | nil => exact .pure _
  | cons result taken ih => exact .bind (.emit _) fun _ => .bind (ih (i + 1)) fun _ => .pure _

theorem blind_lookupAsync (isMac : Bool) (handler : LookupHandler) (queries : List String) :
    Blind (lookupAsync surr isMac handler queries)
      (lookupAsync surr.atOnce isMac handler queries) := by
  refine .bind (.forM (fun _ => .emit _) queries) fun _ =>
    .bind (blind_takeResults 0 _) fun results => ?_
  have hraised : (surr.atOnce.scheduler.final (lookupTasks surr.atOnce handler queries)).raised =
    (surr.scheduler.final (lookupTasks surr handler queries)).raised := rfl
  rw [hraised]
  split
  · exact .pure _
  · exact .throw _

theorem blind_lookupBatch (isMac : Bool) (items : List Json) :
    Blind (lookupBatch lib srv surr isMac items) (lookupBatch lib srv surr.atOnce isMac items) := by
  rw [lookupBatch, lookupBatch]
  split
  · exact .sendJsonResponse lib.json _ 500
  · split
    · exact .sendJsonResponse lib.json _ 400
    · refine .bind ?_ fun _ => .bind (.ofExcept _) fun _ => .setContent _ _
      rw [lookupAll, lookupAll]
      split
      · exact blind_lookupLoop _ _ _ _
      · exact blind_lookupAsync _ _ _

theorem blind_lookupPost :
    Blind (lookupPost lib srv surr req) (lookupPost lib srv surr.atOnce req) := by
  refine .tryCatch (.bind (.ofExcept _) fun body => ?_) blind_catchPost
  split
  · exact .sendJsonResponse lib.json _ 400
  · exact .sendJsonResponse lib.json _ 400
  · exact blind_lookupBatch _ _
  · exact blind_lookupBatch _ _

/-- A request that may go on does the same whatever becomes of the limiter. -/
theorem blind_proceed (route : Route) (clientIp : String) :
    Blind (proceed lib srv surr req route clientIp)
      (proceed lib srv surr.atOnce req route clientIp) := by
  cases route with
  | lookupGet => exact blind_lookupGet clientIp
  | lookupPost => exact blind_lookupPost
  | passwordGet => exact PasswordHandler.blind_handleGet
  | passwordPost => exact PasswordHandler.blind_handlePost

/-! ### Whether `is_allowed` is called -/

/-- The request calls `is_allowed`. -/
structure Asks (lib : Libraries) (srv : IPGeoHTTPServer) (route : Route) (req : Request) :
    Prop where
  lookup : isLookup route = true
  key : srv.enableApiAuth = true → Authorized lib srv req
  client : getRealClientIp req ≠ ""
  limiter : srv.enableRateLimiter = true

variable {route : Route} {w : World}

/-- What a request comes to that asks. -/
def answerOf (surr : Surroundings) (req : Request) (l : RateLimiter) : Verdict :=
  if (l.isAllowed (getRealClientIp req) surr.now surr.pruned).1 then
    .proceeds (getRealClientIp req)
  else .limited (getRealClientIp req)

theorem run_checkRoute_of_asks (h : Asks lib srv route req) :
    (checkRoute lib srv surr req route).run w = .ok (answerOf surr req w.limiter)
      (w.call (.isAllowed (getRealClientIp req) surr.now surr.pruned)) := by
  have hcheck : (checkRequest lib srv surr req).run w = .ok (answerOf surr req w.limiter)
      (w.call (.isAllowed (getRealClientIp req) surr.now surr.pruned)) := by
    rw [checkRequest, EStateM.run_bind]
    obtain ⟨-, hrun⟩ | ⟨hauth, hkey, -⟩ := @authenticateRequest_cases lib srv req w
    · simp only [hrun, Bool.not_true, Bool.false_eq_true, if_false, if_neg h.client, h.limiter]
      rw [EStateM.run_bind, run_isAllowed, answerOf]
      simp only
      split
      · rfl
      · rfl
    · exact absurd (h.key hauth) hkey
  have hlookup := h.lookup
  cases route with
  | lookupGet | lookupPost => exact hcheck
  | passwordGet | passwordPost => exact absurd hlookup Bool.false_ne_true

/-- A request that does not ask is the same whatever becomes of the limiter. -/
theorem blind_checkRoute (h : ¬Asks lib srv route req) :
    Blind (checkRoute lib srv surr req route) (checkRoute lib srv surr.atOnce req route) := by
  have hcheck (hroute : isLookup route = true) :
      Blind (checkRequest lib srv surr req) (checkRequest lib srv surr.atOnce req) := by
    by_cases hkey : srv.enableApiAuth = true → Authorized lib srv req
    · refine .bind blind_authenticateRequest fun authenticated => ?_
      split
      · exact .pure _
      · dsimp only
        split
        · exact .bind (.sendJsonResponse lib.json _ 400) fun _ => .pure _
        · next hip =>
          split
          · exact .pure _
          · next hlimiter => exact absurd ⟨hroute, hkey, hip, by simpa using hlimiter⟩ h
    · -- it is rejected before
      refine fun L => ⟨fun w w' hw => ?_⟩
      have hend := (@blind_authenticateRequest lib srv req L).ends w w' hw
      obtain ⟨hkey', -⟩ | ⟨-, -, res, hrun, -⟩ := @authenticateRequest_cases lib srv req w
      · exact absurd hkey' hkey
      · rw [hrun] at hend
        obtain ⟨w'', hrun', hw''⟩ := hend.of_ok
        rw [checkRequest, checkRequest, EStateM.run_bind, EStateM.run_bind, hrun, hrun']
        exact .ok hw''
  cases route with
  | lookupGet | lookupPost => exact hcheck rfl
  | passwordGet | passwordPost => exact .pure _

/-- A request that does not ask is not over the limit. -/
theorem ne_limited {clientIp : String} {w' : World} (h : ¬Asks lib srv route req) :
    (checkRoute lib srv surr req route).run w ≠ .ok (.limited clientIp) w' := by
  have hcheck (hroute : isLookup route = true) :
      (checkRequest lib srv surr req).run w ≠ .ok (.limited clientIp) w' := by
    intro hlimited
    obtain ⟨verdict, w'', hrun, hchecked⟩ := @checkRequest_cases lib srv surr req w
    rw [hlimited] at hrun
    cases hrun
    cases hchecked with
    | limited hkey hip hlimiter => exact h ⟨hroute, hkey, hip, hlimiter⟩
  cases route with
  | lookupGet | lookupPost => exact hcheck rfl
  | passwordGet | passwordPost =>
    intro hrun
    cases hrun

/-! ### The rest of a request -/

theorem run_rejectLimited_eq {clientIp body : String} (hbody :
      lib.json.dump (limitJson (w.limiter.getRemaining clientIp surr.remaining).1) = .ok body) :
    (rejectLimited lib surr clientIp).run w =
      .ok () { w.call (.getRemaining clientIp surr.remaining) with res := w.res.limited body } := by
  rw [rejectLimited, EStateM.run_bind, run_getRemaining]
  simp only [EStateM.run_bind, run_sendJsonResponse, hbody]
  rfl

/-- The rest of a request only asks the limiter for what remains. -/
theorem afterCheck_asks (verdict : Verdict) (w : World) :
    let w' := endState ((afterCheck lib srv surr req route verdict).run w)
    let ops := (w'.events.drop w.events.length).filterMap Event.limiterOp?
    (∀ op ∈ ops, op.asks = true) ∧ w'.limiter = RateLimiter.step.run w.limiter ops := by
  intro w' ops
  obtain ⟨new, hnew, hlimiter⟩ := @tracked_afterCheck lib srv surr req route verdict w
  have hops : ops = new.filterMap Event.limiterOp? := by
    simp only [ops, w', hnew, List.drop_left]
  refine ⟨?_, hops ▸ hlimiter⟩
  rw [hops]
  cases verdict with
  | rejected =>
    obtain rfl : new = [] := List.self_eq_append_right.1 hnew
    exact List.forall_mem_nil _
  | proceeds clientIp =>
    obtain ⟨-, new', hnew', hnone⟩ :=
      @leaves_proceed lib srv surr req route clientIp w
    obtain rfl := List.append_cancel_left (hnew.symm.trans hnew')
    rw [List.filterMap_eq_nil_iff.2 hnone]
    exact List.forall_mem_nil _
  | limited clientIp =>
    obtain ⟨res, hrun⟩ := @run_rejectLimited lib surr w clientIp
    rw [afterCheck, hrun] at hnew
    obtain rfl := List.append_cancel_left hnew
    exact List.forall_mem_singleton.2 rfl

/-! ### What comes of a request -/

/-- Two outcomes of a request, the same but for what its client, over its limit, is told to have
    left. -/
inductive SameButRemaining (lib : Libraries) : Outcome → Outcome → Prop
  | same {o o' : Outcome} (hresponse : o.response = o'.response) (hevents : o.events = o'.events) :
    SameButRemaining lib o o'
  | limited {o o' : Outcome} (res : Response) (events : List Event) (clientIp : String)
    {now now' : TimePoint} {remaining remaining' : ℤ} {body body' : String}
    (hbody : lib.json.dump (limitJson remaining) = .ok body)
    (hbody' : lib.json.dump (limitJson remaining') = .ok body')
    (hresponse : o.response = .ok (res.limited body))
    (hresponse' : o'.response = .ok (res.limited body'))
    (hevents : o.events = events ++ [.limiter (.getRemaining clientIp now)])
    (hevents' : o'.events = events ++ [.limiter (.getRemaining clientIp now')]) :
    SameButRemaining lib o o'

theorem sameButRemaining_of_sameEnd {L : RateLimiter → RateLimiter → Prop}
    {r r' : EStateM.Result Exn World Unit} (h : SameEnd (SameWorlds L) (SameWorlds L) r r') :
    SameButRemaining lib (.ofResult r') (.ofResult r) := by
  cases h with
  | ok h => exact .same (congrArg Except.ok h.res_eq.symm) h.events_eq.symm
  | error h => exact .same rfl h.events_eq.symm

/-- The rest of a request is the same whatever becomes of the limiter, but for what remains. -/
theorem sameButRemaining_afterCheck (verdict : Verdict) (res : Response) (events : List Event)
    (l l' : RateLimiter) : SameButRemaining lib
      (.ofResult ((afterCheck lib srv surr.atOnce req route verdict).run ⟨res, l', events⟩))
      (.ofResult ((afterCheck lib srv surr req route verdict).run ⟨res, l, events⟩)) := by
  cases verdict with
  | rejected => exact .same rfl rfl
  | proceeds clientIp =>
    exact sameButRemaining_of_sameEnd <| (@blind_proceed lib srv surr req route clientIp
      fun _ _ => True).ends ⟨res, l, events⟩ ⟨res, l', events⟩ ⟨rfl, rfl, trivial⟩
  | limited clientIp =>
    obtain ⟨body, hbody⟩ := @dump_limitJson lib (l.getRemaining clientIp surr.remaining).1
    obtain ⟨body', hbody'⟩ := @dump_limitJson lib (l'.getRemaining clientIp surr.atOnce.remaining).1
    have hrun := @run_rejectLimited_eq lib surr ⟨res, l, events⟩ clientIp body hbody
    have hrun' := @run_rejectLimited_eq lib surr.atOnce ⟨res, l', events⟩ clientIp body' hbody'
    rw [afterCheck, afterCheck, hrun, hrun']
    exact .limited res events clientIp hbody' hbody rfl rfl rfl rfl

variable {ι : Type*} (asked : ι → Incoming)

/-- A request that has come so far will have, or has, the outcome of one that is handled alone. -/
def Follows (lib : Libraries) (srv : IPGeoHTTPServer) (incoming : Incoming) (alone : Outcome) :
    Phase → Prop
  | .waiting => False
  | .checked verdict res events => ∃ l, alone = .ofResult ((afterCheck lib srv
      incoming.surr.atOnce incoming.req incoming.route verdict).run ⟨res, l, events⟩)
  | .answered o => SameButRemaining lib alone o

variable {asked} {i : ι} {l l' : RateLimiter} {lo hi : TimePoint}

/-- The rest of a request keeps two limiters alike, if it is run on one of them. -/
theorem alike_afterCheck (h : RateLimiter.Alike lo l l') (verdict : Verdict) (res : Response)
    (events : List Event) {rest : List LimiterOp} (hclock : RateLimiter.Clocked lo
      (((endState ((afterCheck lib srv surr req route verdict).run ⟨res, l, events⟩)).events.drop
        events.length).filterMap Event.limiterOp? ++ rest)) :
    ∃ hi, RateLimiter.Clocked hi rest ∧ RateLimiter.Alike hi
      (endState ((afterCheck lib srv surr req route verdict).run ⟨res, l, events⟩)).limiter l' := by
  obtain ⟨hasks, hlimiter⟩ := @afterCheck_asks lib srv surr req route verdict ⟨res, l, events⟩
  rw [hlimiter]
  exact h.run_of_asks hasks hclock

/-- A request that is not over the limit leaves the limiter alone after that. -/
theorem limiter_afterCheck {verdict : Verdict} (h : ∀ clientIp, verdict ≠ .limited clientIp)
    (w : World) :
    (endState ((afterCheck lib srv surr req route verdict).run w)).limiter = w.limiter := by
  cases verdict with
  | rejected => rfl
  | proceeds clientIp => exact (leaves_proceed route clientIp w).1
  | limited clientIp => exact absurd rfl (h clientIp)

theorem limiter_afterCheck_limited (clientIp : String) (w : World) :
    (endState ((afterCheck lib srv surr req route (.limited clientIp)).run w)).limiter =
      (w.limiter.getRemaining clientIp surr.remaining).2 := by
  obtain ⟨res, hrun⟩ := @run_rejectLimited lib surr w clientIp
  rw [afterCheck, hrun]
  rfl

/-- A request that begins on one of two limiters that are alike, and one that is handled alone on
    the other. -/
theorem follows_begun (h : RateLimiter.Alike lo l l') (incoming : Incoming)
    {rest : List LimiterOp} (hclock : RateLimiter.Clocked lo ((endState ((checkRoute lib srv
      incoming.surr incoming.req incoming.route).run ⟨corsResponse, l, []⟩)).events.filterMap
        Event.limiterOp? ++ rest)) :
    let r := (checkRoute lib srv incoming.surr incoming.req incoming.route).run
      ⟨corsResponse, l, []⟩
    let alone := serve lib srv incoming.surr.atOnce incoming.req incoming.route l'
    Follows lib srv incoming alone (.ofCheck r) ∧ ∃ hi, RateLimiter.Clocked hi rest ∧
      RateLimiter.Alike hi (endState r).limiter alone.limiter := by
  obtain ⟨route, req, surr⟩ := incoming
  dsimp only at hclock ⊢
  rw [serve, handle_eq, EStateM.run_bind]
  by_cases hasks : Asks lib srv route req
  · -- the verdict is that of both limiters
    rw [run_checkRoute_of_asks hasks] at hclock ⊢
    obtain ⟨hi, hop, hrest⟩ := hclock
    have hle := hop.1.trans hop.2.1
    have hafter := h.isAllowed hle (getRealClientIp req) surr.now
    have hverdict : answerOf surr.atOnce req l' = answerOf surr req l := by
      rw [answerOf, answerOf, h.isAllowed_fst_eq hle]
      rfl
    rw [run_checkRoute_of_asks hasks, hverdict]
    refine ⟨⟨_, rfl⟩, hi, hrest, ?_⟩
    rw [Outcome.limiter_ofResult, answerOf]
    split
    · rw [limiter_afterCheck fun _ => Verdict.noConfusion]
      exact hafter.mono hop.2.2
    · rw [limiter_afterCheck_limited]
      exact (hafter.symm.getRemaining le_rfl (getRealClientIp req)).symm.mono hop.2.2
  · have hend := (@blind_checkRoute lib srv surr req route hasks (RateLimiter.Alike lo)).ends
      ⟨corsResponse, l, []⟩ ⟨corsResponse, l', []⟩ ⟨rfl, rfl, h⟩
    have hne (clientIp : String) (w' : World) :=
      @ne_limited lib srv surr req route ⟨corsResponse, l, []⟩ clientIp w' hasks
    generalize (checkRoute lib srv surr req route).run ⟨corsResponse, l, []⟩ = r,
      (checkRoute lib srv surr.atOnce req route).run ⟨corsResponse, l', []⟩ = r'
      at hend hne hclock ⊢
    obtain ⟨mid, hle, hrest⟩ := hclock.drop
    cases hend with
    | @ok verdict w w' hw =>
      refine ⟨⟨w'.limiter, ?_⟩, mid, hrest, ?_⟩
      · rw [hw.res_eq, hw.events_eq]
      · rw [Outcome.limiter_ofResult, limiter_afterCheck fun clientIp heq => hne clientIp w ?_]
        · exact hw.limiter.mono hle
        · rw [heq]
    | error hw => exact ⟨.same rfl hw.events_eq.symm, mid, hrest, hw.limiter.mono hle⟩

/-! ### Runs -/

section

variable (lib srv asked) (l : RateLimiter)

/-- The requests in the order in which they begin, and the cleanups. -/
def begins (s : Serving ι) : ServingInput ι → List ServerInput
  | .cleanup now => [.cleanup now]
  | .step i =>
    match s.phase i with
    | .waiting => [.request (asked i).route (asked i).req (asked i).surr.atOnce]
    | .checked .. | .answered _ => []

variable [DecidableEq ι]

/-- The limiter of a server that handles them one after the other. -/
def inTurn (inputs : List (ServingInput ι)) : RateLimiter :=
  (step lib srv).run l ((serving lib srv asked).emitted (begins asked) (.new ι l) inputs)

/-- What comes of a request that begins after `inputs`, if it is handled at once. -/
def alone (inputs : List (ServingInput ι)) (i : ι) : Outcome :=
  serve lib srv (asked i).surr.atOnce (asked i).req (asked i).route
    (inTurn lib srv asked l inputs)

/-- A request is waiting, or it has begun at some point, and what comes of it is what would come
    of it if it were handled there at once. -/
def Placed (inputs : List (ServingInput ι)) (i : ι) : Prop :=
  ((serving lib srv asked).run (.new ι l) inputs).phase i = .waiting ∨
    ∃ pre post, inputs = pre ++ .step i :: post ∧
      ((serving lib srv asked).run (.new ι l) pre).phase i = .waiting ∧
      Follows lib srv (asked i) (alone lib srv asked l pre i)
        (((serving lib srv asked).run (.new ι l) inputs).phase i)

end

variable [DecidableEq ι] {start : RateLimiter} {inputs : List (ServingInput ι)}

theorem inTurn_concat (input : ServingInput ι) : inTurn lib srv asked start (inputs ++ [input]) =
    (step lib srv).run (inTurn lib srv asked start inputs)
      (begins asked ((serving lib srv asked).run (.new ι start) inputs) input) := by
  rw [inTurn, Machine.emitted_append, Machine.run_append, Machine.emitted_cons,
    Machine.emitted_nil, List.append_nil]
  rfl

/-- The place of a request that has begun stays. -/
theorem Placed.concat {input : ServingInput ι} (h : Placed lib srv asked start inputs i)
    (hphase : ((serving lib srv asked).run (.new ι start) (inputs ++ [input])).phase i =
      ((serving lib srv asked).run (.new ι start) inputs).phase i) :
    Placed lib srv asked start (inputs ++ [input]) i := by
  rw [Placed, hphase]
  refine h.imp_right ?_
  rintro ⟨pre, post, rfl, hwaiting, hfollows⟩
  exact ⟨pre, post ++ [input], by simp, hwaiting, hfollows⟩

/-- In every order of steps, the requests that have begun have a place, and the limiter is like
    that of a server that handles them one after the other. -/
theorem placed_run {lo : TimePoint} (hinv : start.Inv) (pre post : List (ServingInput ι))
    (hclock : RateLimiter.Clocked lo ((serving lib srv asked).emitted (servingOps lib srv asked)
      (.new ι start) (pre ++ post))) :
    (∀ i, Placed lib srv asked start pre i) ∧ ∃ now,
      RateLimiter.Clocked now ((serving lib srv asked).emitted (servingOps lib srv asked)
        ((serving lib srv asked).run (.new ι start) pre) post) ∧
      RateLimiter.Alike now ((serving lib srv asked).run (.new ι start) pre).limiter
        (inTurn lib srv asked start pre) := by
  induction pre using List.reverseRecOn generalizing post with
  | nil => exact ⟨fun _ => .inl rfl, lo, hclock, .refl hinv lo⟩
  | append_singleton pre input ih =>
    rw [List.append_assoc, List.singleton_append] at hclock
    obtain ⟨hplaced, now, hclock, halike⟩ := ih (input :: post) hclock
    rw [Machine.emitted_cons] at hclock
    rw [inTurn_concat, Machine.run_concat]
    have hrun := (serving lib srv asked).run_concat (.new ι start) pre input
    -- the requests whose phase stays keep their places
    have hstay (j : ι) (hphase : (serving lib srv asked
        ((serving lib srv asked).run (.new ι start) pre) input).2.phase j =
          ((serving lib srv asked).run (.new ι start) pre).phase j) :
        Placed lib srv asked start (pre ++ [input]) j :=
      (hplaced j).concat (by rw [hrun, hphase])
    have hown (j : ι) := hplaced j
    simp only [Placed] at hown
    set s := (serving lib srv asked).run (.new ι start) pre with hs
    cases input with
    | cleanup cleaned =>
      obtain ⟨hi, hop, hrest⟩ := hclock
      exact ⟨fun i => hstay i rfl, hi, hrest, halike.cleanup hop⟩
    | step i =>
      cases hphase : s.phase i with
      | waiting =>
        simp only [servingOps, serving, begins, hphase] at hclock hrun hstay ⊢
        obtain ⟨hfollows, hi, hrest, hafter⟩ := follows_begun halike (asked i) hclock
        refine ⟨fun j => ?_, hi, hrest, hafter⟩
        by_cases hj : j = i
        · subst hj
          refine .inr ⟨pre, [], rfl, hphase, ?_⟩
          rw [hrun]
          simp only [Function.update_self]
          exact hfollows
        · exact hstay j (Function.update_of_ne hj ..)
      | checked verdict res events =>
        simp only [servingOps, serving, begins, hphase] at hclock hrun hstay ⊢
        obtain ⟨hi, hrest, hafter⟩ := alike_afterCheck halike verdict res events hclock
        refine ⟨fun j => ?_, hi, hrest, hafter⟩
        by_cases hj : j = i
        · subst hj
          obtain hwaiting | ⟨pre', post', heq, hwaiting, hfollows⟩ := hown j
          · rw [hphase] at hwaiting
            cases hwaiting
          · rw [hphase] at hfollows
            obtain ⟨l, hl⟩ := hfollows
            refine .inr ⟨pre', post' ++ [.step j], by simp [heq], hwaiting, ?_⟩
            rw [hrun]
            simp only [Function.update_self, Follows]
            rw [hl]
            exact sameButRemaining_afterCheck verdict res events _ _
        · exact hstay j (Function.update_of_ne hj ..)
      | answered o =>
        simp only [servingOps, serving, begins, hphase] at hclock hstay ⊢
        exact ⟨fun j => hstay j trivial, now, hclock, halike⟩

/-- A server that allows one lookup a minute. -/
def strictConfig : ServerConfig := { enableRateLimiter := true, maxRequestsPerMinute := 1 }

def strictServer : IPGeoHTTPServer := new Libraries.sample.sha256 strictConfig none none none

/-- Two lookups by one client, with all clocks at `0`. -/
def askedByOne (_ : Fin 2) : Incoming := ⟨.lookupGet, bareRequest, .sample⟩

end IPGeoHTTPServer

end IpServer
