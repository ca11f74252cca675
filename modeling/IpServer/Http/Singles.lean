import IpServer.Http.Batch

/-!
# Batches and single lookups

A batch is answered exactly when none of its members fails on its own: with the array of what the
single lookups are answered with, in the order of the batch, and with as many requests recorded.
Members that a single lookup is told to be no address are left out, as are those that are no
texts, and the empty text, which asks for the client's own address.

* `answered_of_texts`, `texts_of_answered`: when a batch is answered, and with what.
* `Alone.of_valid`, `Alone.of_invalid`: what comes of a single lookup.
* `batch_eq_singles`: the two agree, for a loop over a short batch and for tasks for a long one.
-/

namespace IpServer

/-- The text of an array. -/
def arrayText (texts : List String) : String := "[" ++ ",".intercalate texts ++ "]"

/-- The body of a response with the status 200. -/
def IPGeoHTTPServer.Outcome.body? (o : Outcome) : Option String :=
  match o.response with
  | .ok res => if res.status = 200 then some res.body else none
  | .error _ => none

/-- The request is answered with the status 500, or an exception escapes its handler. -/
def IPGeoHTTPServer.Outcome.failed (o : Outcome) : Bool :=
  match o.response with
  | .ok res => res.status = 500
  | .error _ => true

namespace IPGeoHTTPServer

theorem Outcome.response_of_body? {o : Outcome} (h : o.body?.isSome = true) :
    ∃ res, o.response = .ok res ∧ res.status = 200 := by
  rw [Outcome.body?] at h
  cases hresponse : o.response with
  | error e =>
    rw [hresponse] at h
    cases h
  | ok res =>
    rw [hresponse] at h
    dsimp only at h
    split at h
    · next hstatus => exact ⟨res, rfl, hstatus⟩
    · cases h

open Handling

/-- The texts among the items of a batch, but for the empty one. -/
def textsOf (items : List Json) : List String :=
  items.filterMap fun item =>
    match item with
    | .string s => if s = "" then none else some s
    | _ => none

/-- The parameter that a single lookup has its address in. -/
def paramKey (isMac : Bool) : String := if isMac then "mac" else "ip"

variable (lib : Libraries) (f : String → Except Exn LookupResult)

/-- The serialisation of what is found for a query. -/
def textOf (query : String) : Except Exn String :=
  f query >>= fun result => lib.json.dump result.data

/-- What comes of a single lookup, by a client that is let in. -/
def Alone (srv : IPGeoHTTPServer) (isMac : Bool) (query : String) (o : Outcome) : Prop :=
  ∃ surr req limiter clientIp w,
    (prepareRequest lib srv surr req).run ⟨corsResponse, limiter, []⟩ = .ok (some clientIp) w ∧
    req.param (paramKey isMac) = query ∧ req.param (paramKey !isMac) = "" ∧
    o = serve lib srv surr req .lookupGet limiter

variable {lib f} {srv : IPGeoHTTPServer} {surr : Surroundings} {req : Request} {w : World}

/-! ### Batches -/

/-- A failure is not answered with 200. -/
theorem status_failure {e : Exn} {res : Response} (h : (failure lib e).1 = .ok res) :
    res.status ≠ 200 := by
  have hstatus {status : ℤ} (hne : status ≠ 200) {error message : String}
      (h : errorResponse lib status error message = .ok res) : res.status ≠ 200 := by
    obtain ⟨text, -, rfl⟩ := map_eq_ok.1 h
    exact hne
  cases e with
  | json what =>
    rw [failure] at h
    dsimp only at h
    exact hstatus (by decide) h
  | foreign => cases h
  | invalidArgument what | std what =>
    rw [failure] at h
    cases hresponse : errorResponse lib 500 "Internal Server Error" what with
    | error e =>
      rw [hresponse] at h
      cases h
    | ok res' =>
      rw [hresponse] at h
      obtain rfl := Except.ok.inj h
      exact hstatus (by decide) hresponse

/-- There is a text for each query if there is a result for each, and a text for each result. -/
theorem map_textOf_eq {queries texts : List String} :
    queries.map (textOf lib f) = texts.map Except.ok ↔
      ∃ results : List LookupResult, queries.map f = results.map .ok ∧
        (results.map (·.data)).map lib.json.dump = texts.map Except.ok := by
  induction queries generalizing texts with
  | nil =>
    constructor
    · intro h
      exact ⟨[], rfl, h⟩
    · rintro ⟨results, hresults, htexts⟩
      rw [List.map_nil, eq_comm, List.map_eq_nil_iff] at hresults
      rw [← htexts, hresults]
      rfl
  | cons query queries ih =>
    constructor
    · intro h
      cases texts with
      | nil => cases h
      | cons text texts =>
        obtain ⟨htext, hrest⟩ := List.cons.inj h
        obtain ⟨results, hresults, htexts⟩ := ih.1 hrest
        obtain ⟨result, hresult, hdump⟩ := bind_eq_ok.1 htext
        refine ⟨result :: results, ?_, ?_⟩
        · rw [List.map_cons, List.map_cons, hresult, hresults]
        · simp only [List.map_cons, hdump, htexts]
    · rintro ⟨results, hresults, htexts⟩
      cases results with
      | nil => cases hresults
      | cons result results =>
        cases texts with
        | nil => cases htexts
        | cons text texts =>
          obtain ⟨hresult, hresults'⟩ := List.cons.inj hresults
          obtain ⟨hdump, htexts'⟩ := List.cons.inj htexts
          rw [List.map_cons, List.map_cons, ih.2 ⟨results, hresults', htexts'⟩]
          exact congrArg (· :: _) (bind_eq_ok.2 ⟨result, hresult, hdump⟩)

/-- A batch is answered with the array of the texts, if there is one for each query. -/
theorem answered_of_texts {queries texts : List String}
    (h : queries.map (textOf lib f) = texts.map Except.ok) :
    answered lib (sequentially f queries) =
      (.ok (corsResponse.withJson 200 (arrayText texts)), queries.length, 0) := by
  obtain ⟨results, hresults, htexts⟩ := map_textOf_eq.1 h
  have hdump : lib.json.dump (.array (results.map (·.data))) = .ok (arrayText texts) := by
    rw [JsonLibrary.dump, JsonLibrary.dumpItems_eq_map.2 htexts, Except.map, arrayText]
  have hlength := congrArg List.length hresults
  rw [List.length_map, List.length_map] at hlength
  rw [sequentially_of_ok hresults, answered]
  dsimp only
  rw [hdump, hlength]

/-- If a batch is answered, there is a text for each query. -/
theorem texts_of_answered {queries : List String} {res : Response}
    (h : (answered lib (sequentially f queries)).1 = .ok res) (hstatus : res.status = 200) :
    ∃ texts : List String, queries.map (textOf lib f) = texts.map Except.ok := by
  rw [answered] at h
  cases hraised : (sequentially f queries).2 with
  | some e =>
    rw [hraised] at h
    exact absurd hstatus (status_failure h)
  | none =>
    rw [hraised] at h
    dsimp only at h
    cases hdump : lib.json.dump (.array ((sequentially f queries).1.map (·.data))) with
    | error e =>
      rw [hdump] at h
      exact absurd hstatus (status_failure h)
    | ok body =>
      rw [JsonLibrary.dump, map_eq_ok] at hdump
      obtain ⟨texts, htexts, -⟩ := hdump
      exact ⟨texts, map_textOf_eq.2
        ⟨_, Futures.eq_map_of_collected hraised, JsonLibrary.dumpItems_eq_map.1 htexts⟩⟩

/-! ### Single lookups -/

/-- What `handle_lookup_get` tries, for one address. -/
def lookupOne (lib : Libraries) (srv : IPGeoHTTPServer) (surr : Surroundings) (isMac : Bool)
    (query : String) : Handling Unit :=
  if !isValidFormat lib isMac query then
    sendErrorResponse lib.json 400 "Bad Request"
      (if isMac then "Invalid MAC address format" else "Invalid IP address format")
  else
    match srv.handlerFor isMac with
    | none => sendErrorResponse lib.json 500 "Internal Server Error" (notConfigured isMac)
    | some handler => do
      emit (.lookup isMac query)
      let result ← ofExcept (handler (surr.moment 0) query)
      recordRequest surr 0
      setContent (← ofExcept (lib.json.dump result.data)) "application/json"

theorem lookupGet_eq {isMac : Bool} {query : String} (hne : query ≠ "")
    (hparam : req.param (paramKey isMac) = query) (hother : req.param (paramKey !isMac) = "")
    (clientIp : String) : lookupGet lib srv surr req clientIp =
      tryCatch (lookupOne lib srv surr isMac query) (catchGet lib) := by
  rw [lookupGet, queryOf]
  cases isMac with
  | true =>
    rw [paramKey, if_pos rfl] at hparam
    rw [paramKey, Bool.not_true, if_neg Bool.false_ne_true] at hother
    rw [hparam, hother, if_neg (fun hboth => hboth.2 rfl), if_pos hne, decide_eq_true hne]
    rfl
  | false =>
    rw [paramKey, if_neg Bool.false_ne_true] at hparam
    rw [paramKey, Bool.not_false, if_pos rfl] at hother
    rw [hparam, hother, if_neg (fun hboth => hboth.1 rfl), if_neg (fun hmac => hmac rfl),
      if_neg hne, decide_eq_false (fun hmac => hmac rfl)]
    rfl

/-- What comes of a single lookup comes of `lookupOne`, after calls of the limiter. -/
theorem Alone.eq_ofResult {isMac : Bool} {query : String} {o : Outcome}
    (h : Alone lib srv isMac query o) (hne : query ≠ "") : ∃ surr w, w.res = corsResponse ∧
      w.events.countP Event.isRequest = 0 ∧
      o = .ofResult ((tryCatch (lookupOne lib srv surr isMac query) (catchGet lib)).run w) := by
  obtain ⟨surr, req, limiter, clientIp, w, hadmitted, hparam, hother, rfl⟩ := h
  obtain ⟨hres, -, hrequests, -⟩ := prepared_of_admitted hadmitted
  refine ⟨surr, w, hres, hrequests, ?_⟩
  rw [← lookupGet_eq hne hparam hother clientIp]
  simp only [serve, handle, handleLookupGet, withClient, EStateM.run_bind, hadmitted]

/-- A single lookup of what is no address is told so. -/
theorem Alone.of_invalid {isMac : Bool} {query : String} {o : Outcome}
    (h : Alone lib srv isMac query o) (hne : query ≠ "")
    (hinvalid : isValidFormat lib isMac query = false) :
    o.failed = false ∧ o.body? = none ∧ o.requests = 0 := by
  obtain ⟨surr, w, -, hrequests, rfl⟩ := h.eq_ofResult hne
  rw [lookupOne, hinvalid, Bool.not_false, if_pos rfl, run_tryCatch,
    run_sendErrorResponse 400 validUtf8_badRequest (validUtf8_invalidFormat isMac)]
  exact ⟨rfl, rfl, hrequests⟩

/-- After an exception a single lookup fails. -/
theorem failed_catchGet (e : Exn) (w : World) :
    (Outcome.ofResult ((catchGet lib e).run w)).failed = true := by
  rw [catchGet]
  cases e.what? with
  | none => rfl
  | some what =>
    simp only [EStateM.run_bind, run_setStatus]
    cases lib.json.dump (Json.null.set "error" (.string what)) with
    | error e => rfl
    | ok body => rfl

/-- A single lookup of an address is answered with the text of what is found, or fails. -/
theorem Alone.of_valid {isMac : Bool} {query : String} {o : Outcome}
    (h : Alone lib srv isMac query o) (hne : query ≠ "")
    (hhandler : srv.handlerFor isMac = some fun _ => f)
    (hvalid : isValidFormat lib isMac query = true) :
    (∀ text, textOf lib f query = .ok text →
      o.failed = false ∧ o.body? = some text ∧ o.requests = 1) ∧
    ∀ e, textOf lib f query = .error e → o.failed = true := by
  obtain ⟨surr, w, hres, hrequests, rfl⟩ := h.eq_ofResult hne
  rw [lookupOne, hvalid, Bool.not_true, if_neg Bool.false_ne_true, hhandler]
  dsimp only
  rw [run_tryCatch_bind_ok (run_emit _), textOf]
  cases hquery : f query with
  | error e =>
    rw [run_tryCatch_bind_error (run_ofExcept_error e)]
    refine ⟨fun text htext => ?_, fun e' _ => failed_catchGet e _⟩
    cases htext
  | ok result =>
    rw [run_tryCatch_bind_ok (run_ofExcept_ok result),
      run_tryCatch_bind_ok (run_recordRequest surr 0)]
    have hbind : (Except.ok result >>= fun result => lib.json.dump result.data) =
        lib.json.dump result.data := rfl
    rw [hbind]
    cases lib.json.dump result.data with
    | error e =>
      rw [run_tryCatch_bind_error (run_ofExcept_error e)]
      refine ⟨fun text htext => ?_, fun e' _ => failed_catchGet e _⟩
      cases htext
    | ok body =>
      rw [run_tryCatch_bind_ok (run_ofExcept_ok body), run_tryCatch, run_setContent, hres]
      refine ⟨fun text htext => ?_, fun e he => ?_⟩
      · obtain rfl := Except.ok.inj htext
        refine ⟨rfl, rfl, ?_⟩
        simp only [Outcome.ofResult, Outcome.requests, List.countP_append, hrequests]
        rfl
      · cases he

/-! ### Both -/

/-- The empty text is no address. -/
theorem isValidFormat_empty (hempty : lib.resolver.inetPton "" = false) (isMac : Bool) :
    isValidFormat lib isMac "" = false := by
  cases isMac with
  | true => rfl
  | false =>
    have hcStr : cStr "" = "" := rfl
    rw [isValidFormat, if_neg Bool.false_ne_true, isValidIpFormat, hcStr, hempty]
    rfl

theorem textsOf_eq (items : List Json) :
    textsOf items = (stringsOf items).filter fun s => decide (s ≠ "") := by
  rw [textsOf, stringsOf, List.filter_filterMap]
  refine List.filterMap_congr fun item _ => ?_
  cases item with
  | string s =>
    dsimp only
    rw [Option.filter_some]
    by_cases hs : s = ""
    · rw [if_pos hs, decide_eq_false (not_not_intro hs), if_neg Bool.false_ne_true]
    · rw [if_neg hs, decide_eq_true hs, if_pos rfl]
  | null | boolean | integer | unsigned | float | array | object => rfl

/-- What is looked up are the texts that are valid. -/
theorem accepted_eq (hempty : lib.resolver.inetPton "" = false) (isMac : Bool)
    (items : List Json) :
    accepted lib isMac items = (textsOf items).filter (isValidFormat lib isMac) := by
  rw [accepted_eq_filter, textsOf_eq, List.filter_filter]
  refine List.filter_congr fun s _ => ?_
  by_cases hs : s = ""
  · rw [hs, isValidFormat_empty hempty]
    rfl
  · rw [decide_eq_true hs, Bool.and_true]

theorem ne_empty_of_mem_textsOf {items : List Json} {query : String}
    (h : query ∈ textsOf items) : query ≠ "" := by
  obtain ⟨item, -, hitem⟩ := List.mem_filterMap.1 h
  cases item with
  | string s =>
    dsimp only at hitem
    split at hitem
    · cases hitem
    · next hs =>
      obtain rfl := Option.some_inj.1 hitem
      exact hs
  | null | boolean | integer | unsigned | float | array | object => cases hitem

/-- There is a text for each query that is looked up if and only if no single lookup fails. -/
theorem exists_texts_iff {isMac : Bool} {items : List Json} {alone : String → Outcome}
    (hhandler : srv.handlerFor isMac = some fun _ => f)
    (halone : ∀ query ∈ textsOf items, Alone lib srv isMac query (alone query)) :
    (∃ texts : List String, ((textsOf items).filter (isValidFormat lib isMac)).map
      (textOf lib f) = texts.map Except.ok) ↔
        ∀ query ∈ textsOf items, (alone query).failed = false := by
  rw [exists_map_eq_ok]
  constructor
  · intro h query hmem
    have hne := ne_empty_of_mem_textsOf hmem
    cases hquery : isValidFormat lib isMac query with
    | false => exact ((halone query hmem).of_invalid hne hquery).1
    | true =>
      obtain ⟨text, htext⟩ := h query (List.mem_filter.2 ⟨hmem, hquery⟩)
      exact (((halone query hmem).of_valid hne hhandler hquery).1 text htext).1
  · intro h query hmem
    obtain ⟨hmem, hquery⟩ := List.mem_filter.1 hmem
    cases htext : textOf lib f query with
    | ok text => exact ⟨text, rfl⟩
    | error e =>
      have hfailed := ((halone query hmem).of_valid (ne_empty_of_mem_textsOf hmem) hhandler
        hquery).2 e htext
      rw [h query hmem] at hfailed
      cases hfailed

/-- The bodies of the single lookups that are answered are the texts of those that are valid, and
    each of them records a request. -/
theorem bodies_eq {isMac : Bool} {alone : String → Outcome} {queries texts : List String}
    (hinvalid : ∀ query ∈ queries, isValidFormat lib isMac query = false →
      (alone query).body? = none ∧ (alone query).requests = 0)
    (hvalid : ∀ query ∈ queries, isValidFormat lib isMac query = true → ∀ text,
      textOf lib f query = .ok text →
        (alone query).body? = some text ∧ (alone query).requests = 1)
    (h : (queries.filter (isValidFormat lib isMac)).map (textOf lib f) = texts.map Except.ok) :
    queries.filterMap (fun query => (alone query).body?) = texts ∧
      (queries.map fun query => (alone query).requests).sum = texts.length := by
  induction queries generalizing texts with
  | nil =>
    rw [List.filter_nil, List.map_nil, eq_comm, List.map_eq_nil_iff] at h
    rw [h]
    exact ⟨rfl, rfl⟩
  | cons query queries ih =>
    have ih' {texts : List String} := @ih texts
      (fun query' hmem => hinvalid query' (List.mem_cons_of_mem _ hmem))
      (fun query' hmem => hvalid query' (List.mem_cons_of_mem _ hmem))
    cases hquery : isValidFormat lib isMac query with
    | false =>
      obtain ⟨hbody, hrequests⟩ := hinvalid query List.mem_cons_self hquery
      rw [List.filter_cons_of_neg (Bool.eq_false_iff.1 hquery)] at h
      obtain ⟨hbodies, hsum⟩ := ih' h
      rw [List.filterMap_cons, hbody, List.map_cons, List.sum_cons, hrequests, Nat.zero_add]
      exact ⟨hbodies, hsum⟩
    | true =>
      rw [List.filter_cons_of_pos hquery] at h
      cases texts with
      | nil => cases h
      | cons text texts =>
        obtain ⟨htext, hrest⟩ := List.cons.inj h
        obtain ⟨hbody, hrequests⟩ := hvalid query List.mem_cons_self hquery text htext
        obtain ⟨hbodies, hsum⟩ := ih' hrest
        rw [List.filterMap_cons, hbody, List.map_cons, List.sum_cons, hrequests, hbodies, hsum]
        exact ⟨rfl, Nat.add_comm 1 texts.length⟩

/-- A batch that is not too long is answered if and only if none of its texts fails on its own,
    whoever asks for it and whatever else is served meanwhile; and then with the array of what those
    are answered with that are addresses, in the order of the batch, and with as many requests
    recorded. -/
theorem batch_eq_singles {limiter : RateLimiter} {clientIp : String} {isMac : Bool}
    {body : Json} {items : List Json} {alone : String → Outcome}
    (hempty : lib.resolver.inetPton "" = false)
    (hadmitted : (prepareRequest lib srv surr req).run ⟨corsResponse, limiter, []⟩ =
      .ok (some clientIp) w)
    (hparse : lib.json.parse req.body = .ok body)
    (harray : arrayAt body (arrayKey isMac) = some items)
    (hother : arrayAt body (arrayKey !isMac) = none)
    (hhandler : srv.handlerFor isMac = some fun _ => f)
    (hlen : (items.length : ℤ) ≤ srv.maxBatchSize)
    (halone : ∀ query ∈ textsOf items, Alone lib srv isMac query (alone query)) :
    let o := serve lib srv surr req .lookupPost limiter
    (o.body?.isSome = true ↔ ∀ query ∈ textsOf items, (alone query).failed = false) ∧
    (o.body?.isSome = true →
      o.response = .ok (corsResponse.withJson 200
        (arrayText ((textsOf items).filterMap fun query => (alone query).body?))) ∧
      o.requests = ((textsOf items).map fun query => (alone query).requests).sum ∧
      o.errors = 0) := by
  intro o
  obtain ⟨hres, -, hrequests, herrors⟩ := prepared_of_admitted hadmitted
  have htally : (o.response, o.requests, o.errors) =
      answered lib (sequentially f (accepted lib isMac items)) := by
    rw [sequentially, ← @lookups_const f surr 0, ← tally_lookupBatch hhandler hlen hres hrequests
      herrors, ← run_lookupPost hparse harray hother]
    simp only [o, tally, serve, handle, handleLookupPost, withClient, EStateM.run_bind, hadmitted]
  rw [accepted_eq hempty] at htally
  have hall := exists_texts_iff hhandler halone
  -- if a batch is answered, each of its texts is
  have hanswered (h : o.body?.isSome = true) : ∃ texts : List String,
      ((textsOf items).filter (isValidFormat lib isMac)).map (textOf lib f) =
        texts.map Except.ok := by
    obtain ⟨res, hresponse, hstatus⟩ := Outcome.response_of_body? h
    exact texts_of_answered ((congrArg Prod.fst htally).symm.trans hresponse) hstatus
  refine ⟨⟨fun h => hall.1 (hanswered h), fun h => ?_⟩, fun h => ?_⟩
  · obtain ⟨texts, h⟩ := hall.2 h
    rw [answered_of_texts h] at htally
    rw [Outcome.body?, (Prod.mk.inj htally).1]
    rfl
  · obtain ⟨texts, h⟩ := hanswered h
    obtain ⟨hbodies, hsum⟩ := bodies_eq (fun query hmem hquery =>
        ((halone query hmem).of_invalid (ne_empty_of_mem_textsOf hmem) hquery).2)
      (fun query hmem hquery text htext => (((halone query hmem).of_valid
        (ne_empty_of_mem_textsOf hmem) hhandler hquery).1 text htext).2) h
    rw [answered_of_texts h] at htally
    obtain ⟨hresponse, hcounts⟩ := Prod.mk.inj htally
    obtain ⟨hrequests, herrors⟩ := Prod.mk.inj hcounts
    have hlength := congrArg List.length h
    rw [List.length_map, List.length_map] at hlength
    rw [hbodies, hsum, ← hlength]
    exact ⟨hresponse, hrequests, herrors⟩

/-- A single lookup for an address. -/
def singleRequest (query : String) : Request :=
  ⟨fun _ => "", fun key => if key = "ip" then query else "", "", "10.0.0.1"⟩

/-- What comes of it. -/
def servedAlone (query : String) : Outcome :=
  serve mixedLibraries ignorant .sample (singleRequest query) .lookupGet (newLimiter {})

theorem alone_mixed (query : String) :
    Alone mixedLibraries ignorant false query (servedAlone query) :=
  ⟨.sample, singleRequest query, newLimiter {}, "10.0.0.1", ⟨corsResponse, newLimiter {}, []⟩,
    rfl, rfl, rfl, rfl⟩

theorem batch_eq_singles_mixed :
    (serve mixedLibraries ignorant .sample mixedRequest .lookupPost (newLimiter {})).response =
      .ok (corsResponse.withJson 200 "[null]") := by
  let nothing : String → Except Exn LookupResult := fun _ => .ok ⟨.null, false⟩
  have hvalid : isValidFormat mixedLibraries false "10.0.0.1" = true := rfl
  have hinvalid : isValidFormat mixedLibraries false "x" = false := rfl
  have htext : textOf mixedLibraries nothing "10.0.0.1" = .ok "null" := rfl
  have htexts : textsOf [.string "10.0.0.1", .unsigned 7, .string "x"] = ["10.0.0.1", "x"] := rfl
  have harray : arrayText ["null"] = "[null]" := rfl
  obtain ⟨hfailed, hbody, -⟩ := (@Alone.of_valid mixedLibraries nothing ignorant false _ _
    (alone_mixed "10.0.0.1") (by decide) rfl hvalid).1 "null" htext
  obtain ⟨hfailed', hbody', -⟩ := (alone_mixed "x").of_invalid (by decide) hinvalid
  obtain ⟨hiff, hanswer⟩ := @batch_eq_singles mixedLibraries nothing ignorant .sample mixedRequest
    ⟨corsResponse, newLimiter {}, []⟩ (newLimiter {}) "10.0.0.1" false mixedBatch
    [.string "10.0.0.1", .unsigned 7, .string "x"] servedAlone rfl rfl rfl rfl rfl rfl (by decide)
    fun query _ => alone_mixed query
  rw [htexts] at hiff hanswer
  have hnone (query : String) (hmem : query ∈ ["10.0.0.1", "x"]) :
      (servedAlone query).failed = false := by
    rcases List.mem_pair.1 hmem with rfl | rfl
    · exact hfailed
    · exact hfailed'
  have hbodies : ["10.0.0.1", "x"].filterMap (fun query => (servedAlone query).body?) =
      ["null"] := by
    rw [List.filterMap_cons, hbody, List.filterMap_cons, hbody', List.filterMap_nil]
  obtain ⟨hresponse, -⟩ := hanswer (hiff.2 hnone)
  rw [hbodies, harray] at hresponse
  exact hresponse

end IPGeoHTTPServer

end IpServer
