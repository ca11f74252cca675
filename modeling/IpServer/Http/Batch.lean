import IpServer.Http.Effects

/-!
# Batches

A batch is answered as if its queries were looked up one after the other, in the
order of the request, up to the first one that throws (`sequentially`): the
response and the numbers of requests and errors recorded are what `sequentialBatch`
says, whether the batch is short enough for the loop or long enough for concurrent
tasks, and in whatever order these finish.

* `run_lookupLoop`, `run_lookupAsync`: the loop and the tasks do the same.
* `batch_eq_sequential`: what comes of a batch.
-/

namespace IpServer.IPGeoHTTPServer

open Handling

variable (lib : Libraries) (f : String → Except Exn LookupResult)

/-- The queries are looked up one after the other: the results before the first one that
    throws, and its exception. -/
def sequentially (queries : List String) : List LookupResult × Option Exn :=
  Futures.collected (queries.map f)

/-- The strings among the items of a batch. -/
def stringsOf (items : List Json) : List String :=
  items.filterMap fun item =>
    match item with
    | .string s => some s
    | _ => none

/-- What the calls of a handler for some queries give, from the call number `i` on. -/
def lookups (surr : Surroundings) (handler : LookupHandler) :
    ℕ → List String → List (Except Exn LookupResult)
  | _, [] => []
  | i, query :: queries => handler (surr.moment i) query :: lookups surr handler (i + 1) queries

/-- An error response, if its texts are UTF-8. -/
def errorResponse (status : ℤ) (error message : String) : Except Exn Response :=
  (lib.json.dump (errorJson error message)).map (corsResponse.withJson status)

/-- What an exception makes of a batch: the response, and the number of errors recorded. -/
def failure : Exn → Except Exn Response × ℕ
  | .json what => (errorResponse lib 400 "Bad Request" ("Invalid JSON: " ++ what), 0)
  | .invalidArgument what | .std what =>
    match errorResponse lib 500 "Internal Server Error" what with
    | .ok res => (.ok res, 1)
    | .error e => (.error e, 0)
  | .foreign => (.error .foreign, 0)

/-- What the results of a batch before the first exception, and that exception, make of it: the
    response, and the numbers of requests and errors recorded. -/
def answered (batch : List LookupResult × Option Exn) : Except Exn Response × ℕ × ℕ :=
  match batch.2 with
  | some e => ((failure lib e).1, batch.1.length, (failure lib e).2)
  | none =>
    match lib.json.dump (.array (batch.1.map (·.data))) with
    | .ok body => (.ok (corsResponse.withJson 200 body), batch.1.length, 0)
    | .error e => ((failure lib e).1, batch.1.length, (failure lib e).2)

/-- What comes of a batch whose queries are looked up one after the other. -/
def sequentialBatch (queries : List String) : Except Exn Response × ℕ × ℕ :=
  answered lib (sequentially f queries)

variable {lib f} {srv : IPGeoHTTPServer} {surr : Surroundings} {req : Request} {w : World}

/-- What is looked up are the strings that the validator of their type accepts. -/
theorem accepted_eq_filter (isMac : Bool) (items : List Json) :
    accepted lib isMac items = (stringsOf items).filter (isValidFormat lib isMac) := by
  rw [accepted, stringsOf, List.filter_filterMap]
  refine List.filterMap_congr fun item _ => ?_
  cases item with
  | string s => exact (Option.filter_some ..).symm
  | null | boolean | integer | unsigned | float | array | object => rfl

/-! ### The loop and the tasks -/

/-- `n` requests are recorded, and no errors. -/
def Counts (n : ℕ) (w w' : World) : Prop :=
  ∃ new, w'.events = w.events ++ new ∧ new.countP Event.isRequest = n ∧
    new.countP Event.isError = 0

theorem Counts.refl (w : World) : Counts 0 w w := ⟨[], (List.append_nil _).symm, rfl, rfl⟩

theorem Counts.of_events_eq {w' : World} (h : w'.events = w.events) : Counts 0 w w' :=
  ⟨[], by rw [h, List.append_nil], rfl, rfl⟩

theorem Counts.trans {n m : ℕ} {w₁ w₂ w₃ : World} (h : Counts n w₁ w₂) (h' : Counts m w₂ w₃) :
    Counts (n + m) w₁ w₃ := by
  obtain ⟨new, hnew, hrequests, herrors⟩ := h
  obtain ⟨new', hnew', hrequests', herrors'⟩ := h'
  refine ⟨new ++ new', by rw [hnew', hnew, List.append_assoc], ?_, ?_⟩
  · rw [List.countP_append, hrequests, hrequests']
  · rw [List.countP_append, herrors, herrors']

/-- What is counted is added to what was recorded before. -/
theorem Counts.tally_eq {n : ℕ} {w' : World} (h : Counts n w w') :
    w'.events.countP Event.isRequest = w.events.countP Event.isRequest + n ∧
      w'.events.countP Event.isError = w.events.countP Event.isError := by
  obtain ⟨new, hnew, hrequests, herrors⟩ := h
  rw [hnew, List.countP_append, List.countP_append, hrequests, herrors]
  exact ⟨rfl, rfl⟩

/-- Only calls are made, and `n` requests and no errors are recorded. -/
def Recorded (n : ℕ) (w w' : World) : Prop :=
  w'.res = w.res ∧ ∃ new, w'.events = w.events ++ new ∧ new.countP Event.isRequest = n ∧
    new.countP Event.isError = 0

theorem Recorded.counts {n : ℕ} {w' : World} (h : Recorded n w w') : Counts n w w' := h.2

theorem Recorded.trans {n m : ℕ} {w₁ w₂ w₃ : World} (h : Recorded n w₁ w₂)
    (h' : Recorded m w₂ w₃) : Recorded (n + m) w₁ w₃ :=
  ⟨h'.1.trans h.1, h.counts.trans h'.counts⟩

theorem recorded_lookup (w : World) (isMac : Bool) (query : String) :
    Recorded 0 w { w with events := w.events ++ [.lookup isMac query] } :=
  ⟨rfl, _, rfl, rfl, rfl⟩

theorem recorded_request (w : World) (latencyMs : ℚ) (now : TimePoint) :
    Recorded 1 w { w with events := w.events ++ [.metrics (.recordRequest latencyMs now)] } :=
  ⟨rfl, _, rfl, rfl, rfl⟩

/-- The data of the results, unless there is an exception. -/
def collect (batch : List LookupResult × Option Exn) (w : World) :
    EStateM.Result Exn World (List Json) :=
  match batch.2 with
  | none => .ok (batch.1.map (·.data)) w
  | some e => .error e w

variable {handler : LookupHandler}

/-- The loop looks the queries up one after the other. -/
theorem run_lookupLoop (isMac : Bool) (i : ℕ) (queries : List String) :
    ∃ w', Recorded (Futures.collected (lookups surr handler i queries)).1.length w w' ∧
      (lookupLoop surr isMac handler i queries).run w =
        collect (Futures.collected (lookups surr handler i queries)) w' := by
  induction queries generalizing i w with
  | nil => exact ⟨w, ⟨rfl, [], (List.append_nil _).symm, rfl, rfl⟩, rfl⟩
  | cons query queries ih =>
    rw [lookupLoop, EStateM.run_bind, run_emit, lookups]
    cases hquery : handler (surr.moment i) query with
    | error e => exact ⟨_, recorded_lookup w isMac query, by simp only [EStateM.run_bind]; rfl⟩
    | ok result =>
      have hstep := (recorded_lookup w isMac query).trans
        (recorded_request _ (surr.elapsed i) (surr.recorded i))
      obtain ⟨w', hrecorded, hrun⟩ := ih (i + 1)
      refine ⟨w', ?_, ?_⟩
      · have h := hstep.trans hrecorded
        rwa [Nat.zero_add, Nat.add_comm] at h
      · simp only [EStateM.run_bind, run_ofExcept_ok, run_recordRequest, hrun, collect,
          Futures.collected]
        cases (Futures.collected (lookups surr handler (i + 1) queries)).2 with
        | none => rfl
        | some e => rfl

/-- Taking the results records as many requests. -/
theorem run_takeResults (i : ℕ) (taken : List (LookupResult × ℚ)) :
    ∃ w', Recorded taken.length w w' ∧
      (takeResults surr i taken).run w = .ok (taken.map (·.1.data)) w' := by
  induction taken generalizing i w with
  | nil => exact ⟨w, ⟨rfl, [], (List.append_nil _).symm, rfl, rfl⟩, rfl⟩
  | cons result taken ih =>
    obtain ⟨result, latency⟩ := result
    obtain ⟨w', hrecorded, hrun⟩ := ih (i + 1)
    refine ⟨w', ?_, ?_⟩
    · have h := (recorded_request w latency (surr.recorded i)).trans hrecorded
      rwa [Nat.add_comm] at h
    · rw [takeResults, EStateM.run_bind, run_emit]
      simp only [EStateM.run_bind, hrun]
      rfl

/-- The tasks are launched. -/
theorem run_launch (isMac : Bool) (queries : List String) :
    ∃ w', Recorded 0 w w' ∧
      (queries.forM fun query => emit (.lookup isMac query)).run w = .ok () w' := by
  induction queries generalizing w with
  | nil => exact ⟨w, ⟨rfl, [], (List.append_nil _).symm, rfl, rfl⟩, rfl⟩
  | cons query queries ih =>
    obtain ⟨w', hrecorded, hrun⟩ := ih
    refine ⟨w', (recorded_lookup w isMac query).trans hrecorded, ?_⟩
    rw [List.forM, EStateM.run_bind, run_emit]
    exact hrun

/-- The times that the tasks took do not matter to the results. -/
theorem collected_mapIdx (elapsed : ℕ → ℚ) (i : ℕ) (queries : List String) :
    let batch := Futures.collected (queries.mapIdx fun j query =>
      (handler (surr.moment (i + j)) query).map fun result => (result, elapsed j))
    (batch.1.map (·.1), batch.2) = Futures.collected (lookups surr handler i queries) := by
  induction queries generalizing elapsed i with
  | nil => rfl
  | cons query queries ih =>
    have hrest := ih (fun j => elapsed (j + 1)) (i + 1)
    simp only [Nat.add_right_comm i 1] at hrest
    simp only [List.mapIdx_cons, lookups, Nat.add_zero]
    cases hquery : handler (surr.moment i) query with
    | error e => rfl
    | ok result =>
      simp only [Except.map, Futures.collected, ← hrest]
      rfl

/-- The tasks do the same as the loop, in whatever order they finish. -/
theorem run_lookupAsync (isMac : Bool) (queries : List String) :
    ∃ w', Recorded (Futures.collected (lookups surr handler 0 queries)).1.length w w' ∧
      (lookupAsync surr isMac handler queries).run w =
        collect (Futures.collected (lookups surr handler 0 queries)) w' := by
  set done := surr.scheduler.final (lookupTasks surr handler queries) with hdone
  have htasks : (done.taken.map (·.1), done.raised) =
      Futures.collected (lookups surr handler 0 queries) := by
    obtain ⟨htaken, hraised⟩ :=
      Prod.mk.inj (surr.scheduler.final_eq (lookupTasks surr handler queries))
    have hmap := @collected_mapIdx surr handler surr.elapsed 0 queries
    simp only [Nat.zero_add] at hmap
    rw [hdone, htaken, hraised, ← hmap]
    rfl
  obtain ⟨w₁, hlaunch, hrun₁⟩ := run_launch (w := w) isMac queries
  obtain ⟨w₂, htaken, hrun₂⟩ := @run_takeResults surr w₁ 0 done.taken
  refine ⟨w₂, ?_, ?_⟩
  · have h := hlaunch.trans htaken
    rw [Nat.zero_add, ← List.length_map (·.1)] at h
    rwa [← htasks]
  · rw [lookupAsync, EStateM.run_bind, hrun₁]
    simp only [EStateM.run_bind, ← hdone, hrun₂, ← htasks, collect, List.map_map]
    cases done.raised with
    | none => rfl
    | some e => rfl

theorem run_lookupAll (isMac : Bool) (queries : List String) :
    ∃ w', Recorded (Futures.collected (lookups surr handler 0 queries)).1.length w w' ∧
      (lookupAll surr isMac handler queries).run w =
        collect (Futures.collected (lookups surr handler 0 queries)) w' := by
  rw [lookupAll]
  split
  · exact run_lookupLoop isMac 0 queries
  · exact run_lookupAsync isMac queries

/-- A handler that is a function of the query gives what the function gives. -/
theorem lookups_const (i : ℕ) (queries : List String) :
    lookups surr (fun _ => f) i queries = queries.map f := by
  induction queries generalizing i with
  | nil => rfl
  | cons query queries ih => rw [lookups, ih, List.map_cons]

/-! ### The answer -/

theorem errorResponse_eq (lib : Libraries) (error message : String) (status : ℤ)
    (hres : w.res = corsResponse) :
    (∃ res, errorResponse lib status error message = .ok res ∧
      (sendErrorResponse lib.json status error message).run w = .ok () { w with res }) ∨
    (∃ e res, errorResponse lib status error message = .error e ∧
      (sendErrorResponse lib.json status error message).run w = .error e { w with res }) := by
  rw [errorResponse, sendErrorResponse, run_sendJsonResponse, hres]
  cases lib.json.dump (errorJson error message) with
  | ok body => exact .inl ⟨_, rfl, rfl⟩
  | error e => exact .inr ⟨e, _, rfl, rfl⟩

/-- The response of a handler that ran from some world, and the numbers of requests and errors
    that are recorded after it. -/
def tally (r : EStateM.Result Exn World Unit) : Except Exn Response × ℕ × ℕ :=
  ((Outcome.ofResult r).response, (Outcome.ofResult r).requests, (Outcome.ofResult r).errors)

/-- What the catch clauses make of an exception. -/
theorem tally_catchPost (e : Exn) (hres : w.res = corsResponse) :
    tally ((catchPost lib e).run w) = ((failure lib e).1, w.events.countP Event.isRequest,
      w.events.countP Event.isError + (failure lib e).2) := by
  cases e with
  | json what =>
    rw [catchPost, failure]
    obtain ⟨res, hresponse, hrun⟩ | ⟨e, res, hresponse, hrun⟩ :=
      errorResponse_eq lib "Bad Request" ("Invalid JSON: " ++ what) 400 hres
    · rw [hresponse, hrun]
      rfl
    · rw [hresponse, hrun]
      rfl
  | foreign => rfl
  | invalidArgument what | std what =>
    rw [catchPost, failure, internalError, EStateM.run_bind]
    obtain ⟨res, hresponse, hrun⟩ | ⟨e, res, hresponse, hrun⟩ :=
      errorResponse_eq lib "Internal Server Error" what 500 hres
    · simp only [hresponse, hrun, run_recordError]
      simp [tally, Outcome.ofResult, Outcome.requests, Outcome.errors, Event.isRequest,
        Event.isError]
    · simp only [hresponse, hrun]
      rfl

/-- A batch that is not too long is answered as if its queries were looked up one after the
    other. -/
theorem tally_lookupBatch {isMac : Bool} {items : List Json}
    (hhandler : srv.handlerFor isMac = some handler) (hlen : (items.length : ℤ) ≤ srv.maxBatchSize)
    (hres : w.res = corsResponse) (hrequests : w.events.countP Event.isRequest = 0)
    (herrors : w.events.countP Event.isError = 0) :
    tally ((tryCatch (lookupBatch lib srv surr isMac items) (catchPost lib)).run w) =
      answered lib (Futures.collected (lookups surr handler 0 (accepted lib isMac items))) := by
  obtain ⟨w', hrecorded, hrun⟩ :=
    @run_lookupAll surr w handler isMac (accepted lib isMac items)
  obtain ⟨hrequests', herrors'⟩ := hrecorded.counts.tally_eq
  rw [hrequests, Nat.zero_add] at hrequests'
  rw [herrors] at herrors'
  have hres' := hrecorded.1.trans hres
  rw [lookupBatch, hhandler]
  dsimp only
  rw [if_neg (not_lt.2 hlen)]
  generalize Futures.collected (lookups surr handler 0 (accepted lib isMac items)) = batch
    at hrun hrequests' ⊢
  have hcaught (e : Exn) : tally ((catchPost lib e).run w') =
      ((failure lib e).1, batch.1.length, (failure lib e).2) := by
    rw [tally_catchPost e hres', hrequests', herrors', Nat.zero_add]
  obtain ⟨results, thrown⟩ := batch
  cases thrown with
  | some e => rw [run_tryCatch_bind_error hrun, hcaught, answered]
  | none =>
    rw [run_tryCatch_bind_ok hrun, answered]
    dsimp only
    cases lib.json.dump (.array (results.map (·.data))) with
    | error e => rw [run_tryCatch_bind_error (run_ofExcept_error e), hcaught]
    | ok body =>
      rw [run_tryCatch_bind_ok (run_ofExcept_ok body), run_tryCatch, run_setContent]
      simp only [tally, Outcome.ofResult, Outcome.requests, Outcome.errors, hrequests', herrors',
        hres']
      rfl

theorem dump_batchJson (n : ℕ) : ∃ text, lib.json.dump (srv.batchJson n) = .ok text := by
  rw [batchJson, JsonLibrary.dump_eq_ok]
  refine Json.isUtf8Text_set (Json.isUtf8Text_set (Json.isUtf8Text_set rfl ?_ ?_) ?_ rfl) ?_ rfl
  all_goals exact Json.validUtf8_of_ascii (by decide)

/-- The key of the array of a batch. -/
def arrayKey (isMac : Bool) : String := if isMac then "macs" else "ips"

/-- After `prepare_request` the response is untouched, and only the limiter was called. -/
theorem Prepared.some_eq {clientIp : String} {w' : World}
    (h : Prepared lib srv surr req w (some clientIp) w') :
    w'.res = w.res ∧ ∃ ops : List LimiterOp, w'.events = w.events ++ ops.map .limiter := by
  cases h with
  | unlimited => exact ⟨rfl, [], (List.append_nil _).symm⟩
  | admitted => exact ⟨rfl, [_], rfl⟩

/-- `prepare_request` leaves the metrics alone. -/
theorem Prepared.counts {clientIp : Option String} {w' : World}
    (h : Prepared lib srv surr req w clientIp w') : Counts 0 w w' := by
  cases h with
  | unauthorized | unknown | unlimited => exact .of_events_eq rfl
  | limited => exact ⟨[_, _], List.append_assoc _ _ _, rfl, rfl⟩
  | admitted => exact ⟨[_], rfl, rfl, rfl⟩

/-- A request that is admitted goes on with the response untouched, calls of the limiter, and
    nothing recorded. -/
theorem prepared_of_admitted {limiter : RateLimiter} {clientIp : String}
    (hadmitted : (prepareRequest lib srv surr req).run ⟨corsResponse, limiter, []⟩ =
      .ok (some clientIp) w) :
    w.res = corsResponse ∧ (∃ ops : List LimiterOp, w.events = ops.map .limiter) ∧
      w.events.countP Event.isRequest = 0 ∧ w.events.countP Event.isError = 0 := by
  obtain ⟨clientIp', w', hrun, hprepared⟩ := @prepareRequest_cases lib srv surr req
    ⟨corsResponse, limiter, []⟩
  obtain ⟨rfl, rfl⟩ : some clientIp = clientIp' ∧ w = w' := by
    rw [hadmitted] at hrun
    exact EStateM.Result.ok.inj hrun
  obtain ⟨hres, ops, hops⟩ := hprepared.some_eq
  exact ⟨hres, ⟨ops, hops⟩, hprepared.counts.tally_eq⟩

theorem run_lookupPost {isMac : Bool} {body : Json} {items : List Json}
    (hparse : lib.json.parse req.body = .ok body)
    (harray : arrayAt body (arrayKey isMac) = some items)
    (hother : arrayAt body (arrayKey !isMac) = none) :
    (lookupPost lib srv surr req).run w =
      (tryCatch (lookupBatch lib srv surr isMac items) (catchPost lib)).run w := by
  rw [lookupPost, hparse, Except.mapError, run_tryCatch_bind_ok (run_ofExcept_ok body)]
  cases isMac with
  | true =>
    rw [arrayKey, if_pos rfl] at harray
    rw [arrayKey, Bool.not_true, if_neg Bool.false_ne_true] at hother
    rw [harray, hother]
  | false =>
    rw [arrayKey, if_neg Bool.false_ne_true] at harray
    rw [arrayKey, Bool.not_false, if_pos rfl] at hother
    rw [harray, hother]

/-- A batch that is too long is rejected. -/
theorem run_lookupBatch_of_length {isMac : Bool} {items : List Json}
    (hhandler : srv.handlerFor isMac = some handler)
    (hlen : srv.maxBatchSize < (items.length : ℤ)) :
    ∃ text, lib.json.dump (srv.batchJson items.length) = .ok text ∧
      (tryCatch (lookupBatch lib srv surr isMac items) (catchPost lib)).run w =
        .ok () { w with res := w.res.withJson 400 text } := by
  obtain ⟨text, htext⟩ := @dump_batchJson lib srv items.length
  refine ⟨text, htext, ?_⟩
  rw [lookupBatch, hhandler]
  dsimp only
  rw [if_pos hlen, run_tryCatch, run_sendJsonResponse, htext]

theorem sequentially_of_ok {queries : List String} {results : List LookupResult}
    (h : queries.map f = results.map .ok) : sequentially f queries = (results, none) := by
  rw [sequentially, h, Futures.collected_map_ok]

theorem sequentially_of_error {pre : List String} {query : String} {results : List LookupResult}
    {e : Exn} (h : pre.map f = results.map .ok) (hquery : f query = .error e)
    (post : List String) : sequentially f (pre ++ query :: post) = (results, some e) := by
  rw [sequentially, List.map_append, List.map_cons, h, hquery, Futures.collected_error]

/-- A batch is answered as if its queries were looked up one after the other: if all of them
    have data, with the list of the data; otherwise as the first exception says. A batch that is
    too long is rejected, and nothing is looked up. -/
theorem batch_eq_sequential {limiter : RateLimiter} {clientIp : String} {isMac : Bool}
    {body : Json} {items : List Json}
    (hadmitted : (prepareRequest lib srv surr req).run ⟨corsResponse, limiter, []⟩ =
      .ok (some clientIp) w)
    (hparse : lib.json.parse req.body = .ok body)
    (harray : arrayAt body (arrayKey isMac) = some items)
    (hother : arrayAt body (arrayKey !isMac) = none)
    (hhandler : srv.handlerFor isMac = some fun _ => f) :
    let o := serve lib srv surr req .lookupPost limiter
    let queries := (stringsOf items).filter (isValidFormat lib isMac)
    ((items.length : ℤ) ≤ srv.maxBatchSize →
      (o.response, o.requests, o.errors) = sequentialBatch lib f queries ∧
      (∀ results : List LookupResult, queries.map f = results.map .ok →
        ∀ text, lib.json.dump (.array (results.map (·.data))) = .ok text →
          o.response = .ok (corsResponse.withJson 200 text) ∧ o.requests = queries.length ∧
          o.errors = 0) ∧
      ∀ (pre : List String) (query : String) (post : List String) (results : List LookupResult)
        (e : Exn), queries = pre ++ query :: post → pre.map f = results.map .ok →
        f query = .error e →
          o.response = (failure lib e).1 ∧ o.requests = pre.length ∧
          o.errors = (failure lib e).2) ∧
    (srv.maxBatchSize < (items.length : ℤ) →
      (∃ text, lib.json.dump (srv.batchJson items.length) = .ok text ∧
        o.response = .ok (corsResponse.withJson 400 text)) ∧
      ∀ event ∈ o.events, ∃ op, event = .limiter op) := by
  intro o queries
  obtain ⟨hres, ⟨ops, hops⟩, hrequests, herrors⟩ := prepared_of_admitted hadmitted
  have hserve : o = .ofResult
      ((tryCatch (lookupBatch lib srv surr isMac items) (catchPost lib)).run w) := by
    rw [← run_lookupPost hparse harray hother]
    simp only [o, serve, handle, handleLookupPost, withClient, EStateM.run_bind, hadmitted]
  refine ⟨fun hlen => ?_, fun hlen => ?_⟩
  · have htally : (o.response, o.requests, o.errors) = sequentialBatch lib f queries := by
      have hqueries : queries = accepted lib isMac items := (accepted_eq_filter isMac items).symm
      rw [hserve, sequentialBatch, sequentially, ← @lookups_const f surr 0, hqueries]
      exact tally_lookupBatch hhandler hlen hres hrequests herrors
    refine ⟨htally, ?_, ?_⟩
    · intro results hresults text htext
      rw [sequentialBatch, sequentially_of_ok hresults, answered] at htally
      dsimp only at htally
      rw [htext] at htally
      obtain ⟨hresponse, hcounts⟩ := Prod.mk.inj htally
      obtain ⟨hrequests, herrors⟩ := Prod.mk.inj hcounts
      have hlength := congrArg List.length hresults
      rw [List.length_map, List.length_map] at hlength
      exact ⟨hresponse, hrequests.trans hlength.symm, herrors⟩
    · intro pre query post results e hqueries hpre hquery
      rw [sequentialBatch, hqueries, sequentially_of_error hpre hquery, answered] at htally
      obtain ⟨hresponse, hcounts⟩ := Prod.mk.inj htally
      obtain ⟨hrequests, herrors⟩ := Prod.mk.inj hcounts
      have hlength := congrArg List.length hpre
      rw [List.length_map, List.length_map] at hlength
      exact ⟨hresponse, hrequests.trans hlength.symm, herrors⟩
  · obtain ⟨text, htext, hrejected⟩ := @run_lookupBatch_of_length _ _ surr _ _ _ _ hhandler hlen
    rw [hserve, hrejected]
    refine ⟨⟨text, htext, ?_⟩, fun event hevent => ?_⟩
    · rw [hres]
      rfl
    · rw [Outcome.ofResult, hops] at hevent
      obtain ⟨op, -, hop⟩ := List.mem_map.1 hevent
      exact ⟨op, hop.symm⟩

/-- A batch of an address, a number and a text that is no address. -/
def mixedBatch : Json :=
  .object [("ips", .array [.string "10.0.0.1", .unsigned 7, .string "x"])]

/-- The request with that batch. -/
def mixedRequest : Request :=
  ⟨fun _ => "", fun _ => "", "\x7b\"ips\":[\"10.0.0.1\",7,\"x\"]\x7d", "10.0.0.1"⟩

/-- Libraries that know how to parse that batch. -/
def mixedLibraries : Libraries :=
  { Libraries.sample with
    json := { JsonLibrary.sample with
      parse := fun s =>
        if s = mixedRequest.body then .ok mixedBatch else JsonLibrary.sample.parse s } }

/-- A server without a limiter or keys, whose handler knows nothing of any address. -/
def ignorant : IPGeoHTTPServer :=
  new Libraries.sample.sha256 { enableRateLimiter := false } none
    (some fun _ _ => .ok ⟨.null, false⟩) none

/-- A batch of more addresses than the loop takes, a number and a text that is no address. -/
def longItems : List Json := List.replicate 11 (.string "10.0.0.1") ++ [.unsigned 7, .string "x"]

/-- The request with that batch. -/
def longRequest : Request :=
  { mixedRequest with
    body := "\x7b\"ips\":[" ++ String.join (List.replicate 11 "\"10.0.0.1\",") ++ "7,\"x\"]\x7d" }

/-- Libraries that know how to parse it. -/
def longLibraries : Libraries :=
  { Libraries.sample with
    json := { JsonLibrary.sample with
      parse := fun s =>
        if s = longRequest.body then .ok (.object [("ips", .array longItems)])
        else JsonLibrary.sample.parse s } }

theorem batch_eq_sequential_tasks :
    let o := serve longLibraries ignorant .sample longRequest .lookupPost (newLimiter {})
    o.response = .ok (corsResponse.withJson 200
        "[null,null,null,null,null,null,null,null,null,null,null]") ∧
      o.requests = 11 ∧ o.errors = 0 := by
  have hparse : longLibraries.json.parse longRequest.body =
      .ok (.object [("ips", .array longItems)]) := by
    simp only [longLibraries, if_true]
  obtain ⟨-, hanswer, -⟩ := (@batch_eq_sequential longLibraries (fun _ => .ok ⟨.null, false⟩)
    ignorant .sample longRequest ⟨corsResponse, newLimiter {}, []⟩ (newLimiter {}) "10.0.0.1" false
    _ longItems rfl hparse rfl rfl rfl).1 (by decide)
  exact hanswer (List.replicate 11 ⟨.null, false⟩) rfl _ rfl

end IpServer.IPGeoHTTPServer
