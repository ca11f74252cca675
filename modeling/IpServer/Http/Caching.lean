import IpServer.Http.Gate
import IpServer.Http.Rejected
import IpServer.Service.Answers

/-!
# Caches and tasks cannot be observed

As long as the databases do not change, the server answers every sequence of requests as one that
has no caches, looks up the queries of a batch one after the other, and calls its handlers all at
one moment (`caching_unobservable`). So neither the size of the caches, nor what was looked up, put,
evicted or has expired before, nor the order in which concurrent lookups take their steps, nor that
in which the tasks of a batch finish can be told from the responses.

* `Service.data_of_unchanging`: a lookup returns the data that its databases give, however it came
  by them.
* `serve_congr`: of a lookup handler a response shows but the data.
-/

namespace IpServer

/-! ## Services -/

namespace Service

section

variable {δ : Type} {ι : Type*} [DecidableEq ι] {n : ℕ} [NeZero n] {svc : Service δ}
  {hash : String → ℕ} {lib : JsonLibrary} {key : ι → String} {maxMemoryBytes : ℕ}
  {run : List (ι × CallStep δ)} {i : ι} {db : String → δ}

/-- The databases answer a query for a key always as `db` says. -/
def Unchanging (db : String → δ) (key : ι → String) (run : List (ι × CallStep δ)) : Prop :=
  ∀ i answers, (i, .query answers) ∈ run → answers = db (key i)

theorem Queried.eq_db {before rest : List (ι × CallStep δ)} {j : ι} {answers : δ}
    (h : Queried (calls svc hash lib key) (.new n ι maxMemoryBytes) before j answers)
    (hdb : Unchanging db key (before ++ rest)) : answers = db (key j) := by
  obtain ⟨pre, post, rfl, -⟩ := h
  exact hdb j answers (List.mem_append_left _ (List.mem_append_right pre List.mem_cons_self))

/-- A call that has returned has the data that the databases give for its key, whether it asked
    them or another call did before. -/
theorem data_of_unchanging (hdb : Unchanging db key run) {result : Except Exn LookupResult}
    (h : ((calls svc hash lib key).run (.new n ι maxMemoryBytes) run).stage i = .done result) :
    result.map (·.data) = (uncached svc lib (key i) (db (key i))).map (·.data) := by
  rcases done_spec h with ⟨answers, hqueried, rfl⟩ |
    ⟨cached, pre, now, rest, rfl, rfl, -, hread⟩
  · rw [← List.append_nil run] at hdb
    rw [hqueried.eq_db hdb]
  · obtain ⟨before, between, j, answers, dataType, rfl, hkey, hqueried, hcompute, hutf8⟩ :=
      exists_computed_of_hit hread
    rw [List.append_assoc] at hdb
    obtain rfl := hqueried.eq_db hdb
    rw [hkey] at hcompute
    obtain ⟨text, htext⟩ := (@JsonLibrary.dump_eq_ok lib cached).2 hutf8
    rw [uncached, hcompute]
    dsimp only
    rw [htext]
    rfl

/-- A lookup that finds nothing in the cache asks the databases. -/
theorem lookup_fst_of_miss {cache : IPCache n} {k : String} {looked stored : TimePoint}
    {answers : δ} (h : (IPCache.step hash lib cache (.get k looked)).1 = .got none) :
    (svc.lookup hash lib cache k looked stored answers).1 = uncached svc lib k answers := by
  rw [lookup, uncached, h]
  dsimp only
  cases (svc.compute k answers).2 with
  | error e => rfl
  | ok dataType =>
    cases dataType with
    | none => rfl
    | some dataType => exact finish_put _ k _ dataType stored

end

/-- Each answer of the handler is one that a call of the service returned, in some run of calls
    over the databases. -/
def Answers {δ : Type} (svc : Service δ) (lib : JsonLibrary) (db : String → δ)
    (handler : LookupHandler) : Prop :=
  ∀ moment query, ∃ (hash : String → ℕ) (n : ℕ) (_ : NeZero n) (maxMemoryBytes : ℕ)
    (calls : ℕ) (key : Fin calls → String) (run : List (Fin calls × CallStep δ)) (i : Fin calls),
    Unchanging db key run ∧ key i = query ∧
      ((Service.calls svc hash lib key).run (.new n (Fin calls) maxMemoryBytes) run).stage i =
        .done (handler moment query)

/-- The handler that asks the databases each time. -/
def uncachedHandler {δ : Type} (svc : Service δ) (lib : JsonLibrary) (db : String → δ) :
    LookupHandler :=
  fun _ query => uncached svc lib query (db query)

end Service

/-! ## The server -/

/-- The same surroundings, but all lookups are made at one moment, and a batch by one task after the
    other. -/
def Surroundings.undisturbed (surr : Surroundings) : Surroundings :=
  { surr with moment := fun _ => 0, scheduler := .eager }

/-- The answers of two handlers hold the same data, at whatever moments they are called. -/
def SameData (handler handler' : LookupHandler) : Prop :=
  ∀ moment moment' query,
    (handler moment query).map (·.data) = (handler' moment' query).map (·.data)

/-- A service gives the data that its databases give. -/
theorem Service.Answers.sameData {δ : Type} {svc : Service δ} {lib : JsonLibrary} {db : String → δ}
    {handler : LookupHandler} (h : svc.Answers lib db handler) :
    SameData handler (svc.uncachedHandler lib db) := by
  intro moment moment' query
  obtain ⟨hash, n, _, maxMemoryBytes, calls, key, run, i, hdb, rfl, hdone⟩ := h moment query
  exact Service.data_of_unchanging hdb hdone

namespace IPGeoHTTPServer

open Handling

variable {lib : Libraries} {srv : IPGeoHTTPServer} {surr : Surroundings} {req : Request}
  {handler handler' f g : LookupHandler}

/-- Two answers that hold the same data. -/
theorem sameData_cases {x y : Except Exn LookupResult} (h : x.map (·.data) = y.map (·.data)) :
    (∃ e, x = .error e ∧ y = .error e) ∨
      ∃ result result', x = .ok result ∧ y = .ok result' ∧ result.data = result'.data := by
  cases x with
  | error e =>
    cases y with
    | error e' => exact .inl ⟨e, rfl, congrArg Except.error (Except.error.inj h).symm⟩
    | ok result => cases h
  | ok result =>
    cases y with
    | error e => cases h
    | ok result' => exact .inr ⟨result, result', rfl, rfl, Except.ok.inj h⟩

/-- What is done with the data of an answer does not depend on the rest of it. -/
theorem ofExcept_bind_congr {α : Type} {x y : Except Exn LookupResult}
    (h : x.map (·.data) = y.map (·.data)) (next : Json → Handling α) :
    ((ofExcept x : Handling LookupResult) >>= fun result => next result.data) =
      (ofExcept y >>= fun result => next result.data) := by
  obtain ⟨e, rfl, rfl⟩ | ⟨result, result', rfl, rfl, hdata⟩ := sameData_cases h
  · rfl
  · change next result.data = next result'.data
    rw [hdata]

theorem lookupLoop_congr (h : SameData handler handler') (isMac : Bool) (i : ℕ)
    (queries : List String) : lookupLoop surr isMac handler i queries =
      lookupLoop surr.undisturbed isMac handler' i queries := by
  induction queries generalizing i with
  | nil => rfl
  | cons query queries ih =>
    rw [lookupLoop, lookupLoop]
    refine congrArg _ (funext fun _ => ?_)
    rw [ih]
    exact ofExcept_bind_congr (h _ _ query) fun data => do
      recordRequest surr i
      return data :: (← lookupLoop surr.undisturbed isMac handler' (i + 1) queries)

/-- What the loop over the futures makes of a result: its data, and the time it took. -/
def dataAndTime (taken : LookupResult × ℚ) : Json × ℚ := (taken.1.data, taken.2)

theorem takeResults_congr {taken taken' : List (LookupResult × ℚ)}
    (h : taken.map dataAndTime = taken'.map dataAndTime) (i : ℕ) :
    takeResults surr i taken = takeResults surr.undisturbed i taken' := by
  induction taken generalizing taken' i with
  | nil =>
    obtain rfl := List.map_eq_nil_iff.1 h.symm
    rfl
  | cons first taken ih =>
    obtain ⟨first', taken', rfl, hfirst, hrest⟩ := List.map_eq_cons_iff.1 h.symm
    obtain ⟨result, latency⟩ := first
    obtain ⟨result', latency'⟩ := first'
    obtain ⟨hdata, rfl⟩ := Prod.mk.inj hfirst
    have hdata : result'.data = result.data := hdata
    rw [takeResults, takeResults, ih hrest.symm, hdata]
    rfl

/-- The tasks give the same data and take the same time. -/
theorem lookupTasks_congr (h : SameData handler handler') (queries : List String) :
    (lookupTasks surr handler queries).map (Except.map dataAndTime) =
      (lookupTasks surr.undisturbed handler' queries).map (Except.map dataAndTime) := by
  refine List.ext_getElem? fun i => ?_
  simp only [lookupTasks, List.getElem?_map, List.getElem?_mapIdx, Option.map_map]
  refine congrArg (Option.map · queries[i]?) (funext fun query => ?_)
  have hquery := h (surr.moment i) (surr.undisturbed.moment i) query
  simp only [Function.comp_apply]
  obtain ⟨e, herror, herror'⟩ | ⟨result, result', hok, hok', hdata⟩ := sameData_cases hquery
  · rw [herror, herror']
    rfl
  · rw [hok, hok']
    simp only [Except.map, dataAndTime, hdata]
    rfl

/-- The tasks of a batch do the same, in whatever order they finish. -/
theorem lookupAsync_congr (h : SameData handler handler') (isMac : Bool) (queries : List String) :
    lookupAsync surr isMac handler queries =
      lookupAsync surr.undisturbed isMac handler' queries := by
  obtain ⟨htaken, hraised⟩ :=
    Prod.mk.inj (surr.scheduler.final_eq (lookupTasks surr handler queries))
  obtain ⟨htaken', hraised'⟩ := Prod.mk.inj
    (surr.undisturbed.scheduler.final_eq (lookupTasks surr.undisturbed handler' queries))
  obtain ⟨hdata, hthrown⟩ := Prod.mk.inj <|
    (Futures.collected_map dataAndTime (lookupTasks surr handler queries)).symm.trans <|
      (congrArg Futures.collected (lookupTasks_congr h queries)).trans
        (Futures.collected_map dataAndTime (lookupTasks surr.undisturbed handler' queries))
  rw [← htaken, ← htaken'] at hdata
  rw [← hraised, ← hraised'] at hthrown
  rw [lookupAsync, lookupAsync]
  refine congrArg _ (funext fun _ => ?_)
  dsimp only
  rw [takeResults_congr hdata, hthrown]

theorem lookupAll_congr (h : SameData handler handler') (isMac : Bool) (queries : List String) :
    lookupAll surr isMac handler queries = lookupAll surr.undisturbed isMac handler' queries := by
  rw [lookupAll, lookupAll, lookupLoop_congr h, lookupAsync_congr h]

/-- The handlers of a server, by the kind of their addresses, have the same data as two others. -/
def SameHandlers (srv : IPGeoHTTPServer) (f g : LookupHandler) : Prop :=
  ∀ isMac handler, srv.handlerFor isMac = some handler → SameData handler (if isMac then g else f)

section

variable (h : SameHandlers srv f g)
include h

theorem lookupGet_congr (clientIp : String) : lookupGet lib srv surr req clientIp =
    lookupGet lib (srv.withHandlers f g) surr.undisturbed req clientIp := by
  rw [lookupGet, lookupGet]
  split
  · rfl
  · refine congrArg (tryCatch · (catchGet lib)) ?_
    split
    · rfl
    · rw [handlerFor_withHandlers]
      cases hhandler : srv.handlerFor (decide (req.param "mac" ≠ "")) with
      | none => rfl
      | some handler =>
        refine congrArg (emit _ >>= ·) (funext fun _ => ?_)
        exact ofExcept_bind_congr (h _ _ hhandler _ _ _) fun data => do
          recordRequest surr 0
          setContent (← ofExcept (lib.json.dump data)) "application/json"

theorem lookupBatch_congr (isMac : Bool) (items : List Json) :
    lookupBatch lib srv surr isMac items =
      lookupBatch lib (srv.withHandlers f g) surr.undisturbed isMac items := by
  rw [lookupBatch, lookupBatch, handlerFor_withHandlers]
  cases hhandler : srv.handlerFor isMac with
  | none => rfl
  | some handler =>
    dsimp only [Option.map_some]
    rw [lookupAll_congr (h _ _ hhandler)]
    rfl

theorem lookupPost_congr : lookupPost lib srv surr req =
    lookupPost lib (srv.withHandlers f g) surr.undisturbed req := by
  rw [lookupPost, lookupPost]
  simp only [lookupBatch_congr h]

/-- Of a lookup handler nothing shows but the data. -/
theorem serve_congr (route : Route) (limiter : RateLimiter) :
    serve lib srv surr req route limiter =
      serve lib (srv.withHandlers f g) surr.undisturbed req route limiter := by
  rw [serve, serve]
  refine congrArg (fun x => Outcome.ofResult (EStateM.run x _)) ?_
  cases route with
  | lookupGet =>
    rw [handle, handle, handleLookupGet, handleLookupGet, funext (lookupGet_congr h)]
    rfl
  | lookupPost =>
    rw [handle, handle, handleLookupPost, handleLookupPost, lookupPost_congr h]
    rfl
  | passwordGet => rfl
  | passwordPost => rfl

end

/-! ### Runs -/

/-- What happens to the server, with nothing at the same time. -/
def ServerInput.undisturbed : ServerInput → ServerInput
  | .request route req surr => .request route req surr.undisturbed
  | .cleanup now => .cleanup now

/-- The server whose lookups always ask the databases, with nothing at the same time. -/
def plainStep (lib : Libraries) (srv : IPGeoHTTPServer) (geoDb : String → MmdbQuery × MmdbQuery)
    (macDb : String → OuiQuery) : Machine RateLimiter ServerInput (Option Outcome) :=
  fun l input =>
    step lib (srv.withHandlers (IPGeoService.service.uncachedHandler lib.json geoDb)
      (MACLookupService.service.uncachedHandler lib.json macDb)) l input.undisturbed

/-- The handlers of the server are those of the two services, over databases that do not change. -/
structure OverDatabases (lib : Libraries) (srv : IPGeoHTTPServer)
    (geoDb : String → MmdbQuery × MmdbQuery) (macDb : String → OuiQuery) : Prop where
  geo : ∀ handler, srv.lookupHandler = some handler →
    IPGeoService.service.Answers lib.json geoDb handler
  mac : ∀ handler, srv.macLookupHandler = some handler →
    MACLookupService.service.Answers lib.json macDb handler

variable {geoDb : String → MmdbQuery × MmdbQuery} {macDb : String → OuiQuery}

theorem OverDatabases.sameHandlers (h : OverDatabases lib srv geoDb macDb) :
    SameHandlers srv (IPGeoService.service.uncachedHandler lib.json geoDb)
      (MACLookupService.service.uncachedHandler lib.json macDb) := by
  intro isMac handler hhandler
  cases isMac with
  | false => exact (h.geo handler hhandler).sameData
  | true => exact (h.mac handler hhandler).sameData

/-- A server over databases that do not change answers every sequence of requests as one without
    caches on which nothing happens at the same time, and makes the same calls. -/
theorem caching_unobservable (h : OverDatabases lib srv geoDb macDb) (l : RateLimiter)
    (inputs : List ServerInput) :
    (step lib srv).answers l inputs = (plainStep lib srv geoDb macDb).answers l inputs ∧
      (step lib srv).run l inputs = (plainStep lib srv geoDb macDb).run l inputs := by
  have hstep (l : RateLimiter) (input : ServerInput) :
      step lib srv l input = plainStep lib srv geoDb macDb l input := by
    cases input with
    | request route req surr =>
      rw [plainStep, ServerInput.undisturbed, step, step, ← serve_congr h.sameHandlers]
    | cleanup now => rfl
  rw [show step lib srv = plainStep lib srv geoDb macDb from
    funext fun l => funext fun input => hstep l input]
  exact ⟨rfl, rfl⟩

/-! ### Examples -/

/-- A handler over databases that know no address: from the second moment on, it finds its answers
    in the cache, if they can be there. -/
def remembering (lib : JsonLibrary) : LookupHandler := fun moment query =>
  if moment ≠ 0 ∧ Json.validUtf8 query = true then .ok ⟨databaseFound query false, true⟩
  else Service.uncached IPGeoService.service lib query unknown

theorem answers_remembering (lib : JsonLibrary) :
    IPGeoService.service.Answers lib (fun _ => unknown) (remembering lib) := by
  intro moment query
  have hmiss : (IPCache.step (fun _ => 0) lib (IPCache.new 8 1000) (.get query 0)).1 = .got none :=
    IPCache.step_answer (fun _ => 0) lib _ _
  -- the first call asks the databases, and the second one may find what it put
  have hfirst (calls : ℕ) (i : Fin calls) := @Service.run_alone _ (Fin calls) _ 8 _
    IPGeoService.service (fun _ => 0) lib (fun _ => query) (.new 8 (Fin calls) 1000) i rfl 0 0
    unknown
  rw [remembering]
  split
  · next hhit =>
    have hutf8 := isUtf8Text_databaseFound hhit.2 false
    obtain ⟨size, hstored⟩ := @Service.stored_lookup _ 8 _ _ _ _ _ _ _ 0 _ _ _ hmiss
      (compute_unknown query) hutf8
    have hread := @Service.get_of_stored 8 _ (fun _ => 0) lib _ query _ 0 hstored
      (by decide : (0 : ℤ) - 0 ≤ seconds 300)
    refine ⟨fun _ => 0, 8, inferInstance, 1000, 2, fun _ => query,
      [(0, .get 0), (0, .query unknown), (0, .put 0)] ++ [(1, .get 0)], 1, ?_, rfl, ?_⟩
    · simp [Service.Unchanging]
    · rw [Machine.run_append, hfirst 2 0, Machine.run_cons, Machine.run_nil]
      have hstart : ∀ stage, Function.update (Service.Calls.new 8 (Fin 2) 1000).stage 0 stage 1 =
          .start := fun _ => Function.update_of_ne (by decide) ..
      simp only [Service.calls, hstart, Function.update_self]
      exact congrArg Service.Stage.ofRead hread
  · refine ⟨fun _ => 0, 8, inferInstance, 1000, 1, fun _ => query,
      [(0, .get 0), (0, .query unknown), (0, .put 0)], 0, by simp [Service.Unchanging], rfl, ?_⟩
    rw [hfirst 1 0]
    rw [← @Service.lookup_fst_of_miss _ 8 _ IPGeoService.service _ _ _ _ _ 0 unknown hmiss]
    simp only [Function.update_self]
    rfl

/-- A server with that handler. -/
def rememberingServer : IPGeoHTTPServer :=
  new Libraries.sample.sha256 {} none (some (remembering .sample)) none

/-- The same address is looked up at two moments. -/
def askedTwice : List ServerInput :=
  [.request .lookupGet bareRequest .sample,
    .request .lookupGet bareRequest { Surroundings.sample with moment := fun _ => 1 }]

theorem caching_unobservable_askedTwice :
    (step .sample rememberingServer).answers (newLimiter {}) askedTwice =
      (plainStep .sample rememberingServer (fun _ => unknown) fun _ => .threw .foreign).answers
        (newLimiter {}) askedTwice :=
  (caching_unobservable ⟨fun handler hhandler => by
    obtain rfl := Option.some.inj hhandler
    exact answers_remembering _, fun handler hhandler => by cases hhandler⟩ _ _).1

end IPGeoHTTPServer

end IpServer
