import IpServer.Auth
import IpServer.Config.Basic
import IpServer.Password.Handler
import IpServer.Validation

/-!
# The HTTP server

The routes that do work for a request: `GET` and `POST` of `/lookup` and of
`/password/generate`. A lookup is answered by a handler that is registered for its
kind of address; a batch of up to ten addresses is looked up one after the other, a
longer one by concurrent tasks.

The lookup routes first run `prepare_request`, which checks the API key, finds out
the client and calls the rate limiter; the password routes do not.
-/

namespace IpServer

open Handling

/-- The libraries that the server calls. -/
structure Libraries where
  json : JsonLibrary
  resolver : Resolver
  sha256 : Sha256
  /-- the bits of the `double` that stands for a number -/
  toDouble : ℚ → UInt64

/-- Libraries to evaluate the model with: they know the digest of "secret", and one address. -/
def Libraries.sample : Libraries where
  json := .sample
  resolver := ⟨fun s => s = "10.0.0.1", fun _ => false⟩
  sha256 _ := ([43, 184, 13, 83, 123, 29, 163, 227, 139, 211, 3, 97, 170, 133, 86, 134, 189, 224,
    234, 205, 113, 98, 254, 246, 162, 95, 233, 123, 245, 39, 162, 91] : List UInt8).get
  toDouble _ := 0

/-- A lookup handler, whose answer may depend on the moment of the call. -/
abbrev LookupHandler := ℕ → String → Except Exn LookupResult

/-- The server, apart from its rate limiter and its metrics. -/
structure IPGeoHTTPServer where
  enableRateLimiter : Bool
  maxBatchSize : ℤ
  enableApiAuth : Bool
  apiAuth : Option APIAuth
  /-- there are keys exactly if they are asked for -/
  isSome_apiAuth : apiAuth.isSome = enableApiAuth
  lookupHandler : Option LookupHandler
  macLookupHandler : Option LookupHandler

/-- The routes that do work for a request. -/
inductive Route
  | lookupGet
  | lookupPost
  | passwordGet
  | passwordPost
  deriving DecidableEq

namespace IPGeoHTTPServer

/-- The keys that the server accepts, given the content of the key file. -/
def configuredKeys (sha256 : Sha256) (config : ServerConfig) (keysFile : Option String) : APIAuth :=
  let auth : APIAuth := {}
  let auth := if config.apiKeysFile ≠ "" then auth.loadKeysFromFile sha256 keysFile else auth
  if config.defaultApiKey ≠ "" then auth.addKey sha256 config.defaultApiKey else auth

/-- The server as it is constructed, with the handlers that are registered. -/
def new (sha256 : Sha256) (config : ServerConfig) (keysFile : Option String)
    (lookupHandler macLookupHandler : Option LookupHandler) : IPGeoHTTPServer where
  enableRateLimiter := config.enableRateLimiter
  maxBatchSize := config.maxBatchSize
  enableApiAuth := config.enableApiAuth
  apiAuth := if config.enableApiAuth then some (configuredKeys sha256 config keysFile) else none
  isSome_apiAuth := by
    cases config.enableApiAuth with
    | true => rfl
    | false => rfl
  lookupHandler
  macLookupHandler

/-- The rate limiter as it is constructed. (A server that does not enable it never calls it.) -/
def newLimiter (config : ServerConfig) : RateLimiter :=
  .new config.maxRequestsPerMinute 60 10000

variable (lib : Libraries) (srv : IPGeoHTTPServer) (surr : Surroundings) (req : Request)

/-! ### Before a lookup -/

/-- `authenticate_request`. -/
def authenticateRequest : Handling Bool := do
  match srv.apiAuth with
  | none => return true
  | some apiAuth =>
    if !srv.enableApiAuth then return true
    else
      let authHeader := req.header "Authorization"
      if authHeader = "" then
        sendErrorResponse lib.json 401 "Unauthorized" "Missing API key in Authorization header"
        setHeader "WWW-Authenticate" "Bearer"
        return false
      else if !startsWith authHeader "Bearer " then
        sendErrorResponse lib.json 401 "Unauthorized"
          "Invalid Authorization header format. Expected: Bearer <api_key>"
        setHeader "WWW-Authenticate" "Bearer"
        return false
      else if !apiAuth.isValid lib.sha256 (substrFrom authHeader "Bearer ".length) then
        sendErrorResponse lib.json 401 "Unauthorized" "Invalid API key"
        return false
      else return true

/-- `get_real_client_ip`. -/
def getRealClientIp : String :=
  let xff := req.header "X-Forwarded-For"
  if xff ≠ "" then
    if xff.toList.contains ',' then
      let firstIp := xff.toList.takeWhile (· ≠ ',')
      match trimmed [' ', '\t'] firstIp with
      | some ip => String.ofList ip
      | none => String.ofList firstIp
    else xff
  else
    let xri := req.header "X-Real-IP"
    if xri ≠ "" then xri else req.remoteAddr

/-- `rate_limiter_->is_allowed(ip)`. -/
def isAllowed (ip : String) : Handling Bool :=
  modifyGet fun w =>
    ((w.limiter.isAllowed ip surr.now surr.pruned).1, w.call (.isAllowed ip surr.now surr.pruned))

/-- `rate_limiter_->get_remaining(ip)`. -/
def getRemaining (ip : String) : Handling ℤ :=
  modifyGet fun w =>
    ((w.limiter.getRemaining ip surr.remaining).1, w.call (.getRemaining ip surr.remaining))

/-- The content of the response to a client over its limit. -/
def limitJson (remaining : ℤ) : Json :=
  Json.null
    |>.set "error" (.string "Rate limit exceeded")
    |>.set "remaining" (.integer (Int64.ofInt remaining))

/-- `prepare_request`. -/
def prepareRequest : Handling (Option String) := do
  if !(← authenticateRequest lib srv req) then return none
  else
    let clientIp := getRealClientIp req
    if clientIp = "" then
      sendErrorResponse lib.json 400 "Bad Request" "Unable to determine source IP address"
      return none
    else if !srv.enableRateLimiter then return some clientIp
    else if ← isAllowed surr clientIp then return some clientIp
    else
      sendJsonResponse lib.json (limitJson (← getRemaining surr clientIp)) 429
      setHeader "Retry-After" "60"
      return none

/-! ### Lookups -/

/-- The handler for a kind of address. -/
def handlerFor (isMac : Bool) : Option LookupHandler :=
  if isMac then srv.macLookupHandler else srv.lookupHandler

/-- The validator for a kind of address. -/
def isValidFormat (isMac : Bool) (query : String) : Bool :=
  if isMac then isValidMacFormat query else isValidIpFormat lib.resolver query

/-- The message of a server without a handler. -/
def notConfigured (isMac : Bool) : String :=
  (if isMac then "MAC" else "IP") ++ " lookup handler not configured"

/-- The address that `handle_lookup_get` looks up. -/
def queryOf (clientIp : String) : String :=
  if req.param "mac" ≠ "" then req.param "mac"
  else if req.param "ip" = "" then clientIp
  else req.param "ip"

/-- A handler that starts with `prepare_request`, and does the rest if it gives a client. -/
def withClient (rest : String → Handling Unit) : Handling Unit := do
  match ← prepareRequest lib srv surr req with
  | none => return ()
  | some clientIp => rest clientIp

/-- The catch clause of `handle_lookup_get`. -/
def catchGet (e : Exn) : Handling Unit := do
  match e.what? with
  | none => throw e
  | some what =>
    setStatus 500
    setContent (← ofExcept (lib.json.dump (Json.null.set "error" (.string what))))
      "application/json"
    recordError

/-- What `handle_lookup_get` does after `prepare_request`. -/
def lookupGet (clientIp : String) : Handling Unit :=
  if req.param "mac" ≠ "" ∧ req.param "ip" ≠ "" then
    sendErrorResponse lib.json 400 "Bad Request"
      "Cannot specify both 'ip' and 'mac' parameters simultaneously"
  else
    let isMac := decide (req.param "mac" ≠ "")
    let query := queryOf req clientIp
    try
      if !isValidFormat lib isMac query then
        sendErrorResponse lib.json 400 "Bad Request"
          (if isMac then "Invalid MAC address format" else "Invalid IP address format")
      else
        match srv.handlerFor isMac with
        | none => sendErrorResponse lib.json 500 "Internal Server Error" (notConfigured isMac)
        | some handler =>
          emit (.lookup isMac query)
          let result ← ofExcept (handler (surr.moment 0) query)
          recordRequest surr 0
          setContent (← ofExcept (lib.json.dump result.data)) "application/json"
    catch e => catchGet lib e

/-- The items of the array that a body has under a key, if it has one. -/
def arrayAt (body : Json) (key : String) : Option (List Json) :=
  match body.get? key with
  | some (.array items) => some items
  | _ => none

/-- The items of a batch that are looked up: the strings that the validator accepts. -/
def accepted (isMac : Bool) (items : List Json) : List String :=
  items.filterMap fun item =>
    match item with
    | .string s => if isValidFormat lib isMac s then some s else none
    | _ => none

/-- The loop over a short batch, from the index `i` on. -/
def lookupLoop (isMac : Bool) (handler : LookupHandler) : ℕ → List String → Handling (List Json)
  | _, [] => return []
  | i, query :: queries => do
    emit (.lookup isMac query)
    let result ← ofExcept (handler (surr.moment i) query)
    recordRequest surr i
    return result.data :: (← lookupLoop isMac handler (i + 1) queries)

/-- The tasks of a long batch: a result comes with the time it took. -/
def lookupTasks (handler : LookupHandler) (queries : List String) :
    List (Except Exn (LookupResult × ℚ)) :=
  queries.mapIdx fun i query => (handler (surr.moment i) query).map fun result =>
    (result, surr.elapsed i)

/-- The loop over the futures, on the results that are taken, from the index `i` on. -/
def takeResults : ℕ → List (LookupResult × ℚ) → Handling (List Json)
  | _, [] => return []
  | i, (result, latency) :: taken => do
    emit (.metrics (.recordRequest latency (surr.recorded i)))
    return result.data :: (← takeResults (i + 1) taken)

/-- The concurrent tasks for a long batch. -/
def lookupAsync (isMac : Bool) (handler : LookupHandler) (queries : List String) :
    Handling (List Json) := do
  queries.forM fun query => emit (.lookup isMac query)
  let done := surr.scheduler.final (lookupTasks surr handler queries)
  let results ← takeResults surr 0 done.taken
  match done.raised with
  | none => return results
  | some e => throw e

/-- The data for the queries of a batch, in order. -/
def lookupAll (isMac : Bool) (handler : LookupHandler) (queries : List String) :
    Handling (List Json) :=
  if queries.length ≤ 10 then lookupLoop surr isMac handler 0 queries
  else lookupAsync surr isMac handler queries

/-- The content of the response to a batch that is too long. -/
def batchJson (requestedSize : ℕ) : Json :=
  Json.null
    |>.set "error" (.string "Batch size exceeds maximum limit")
    |>.set "max_batch_size" (.integer (Int64.ofInt srv.maxBatchSize))
    |>.set "requested_size" (.unsigned (UInt64.ofNat requestedSize))

/-- What `handle_lookup_post` does with the items of a batch. -/
def lookupBatch (isMac : Bool) (items : List Json) : Handling Unit := do
  match srv.handlerFor isMac with
  | none => sendErrorResponse lib.json 500 "Internal Server Error" (notConfigured isMac)
  | some handler =>
    if (items.length : ℤ) > srv.maxBatchSize then
      sendJsonResponse lib.json (srv.batchJson items.length) 400
    else
      let results ← lookupAll surr isMac handler (accepted lib isMac items)
      setContent (← ofExcept (lib.json.dump (.array results))) "application/json"

/-- The catch clauses of `handle_lookup_post`. -/
def catchPost : Exn → Handling Unit
  | .json what => sendErrorResponse lib.json 400 "Bad Request" ("Invalid JSON: " ++ what)
  | .invalidArgument what | .std what => internalError lib.json what
  | .foreign => throw .foreign

/-- What `handle_lookup_post` does after `prepare_request`. -/
def lookupPost : Handling Unit :=
  try
    let body ← ofExcept ((lib.json.parse req.body).mapError .json)
    match arrayAt body "ips", arrayAt body "macs" with
    | none, none =>
      sendErrorResponse lib.json 400 "Bad Request"
        "Missing or invalid 'ips' or 'macs' array in request body"
    | some _, some _ =>
      sendErrorResponse lib.json 400 "Bad Request"
        "Cannot specify both 'ips' and 'macs' in the same request"
    | some ips, none => lookupBatch lib srv surr false ips
    | none, some macs => lookupBatch lib srv surr true macs
  catch e => catchPost lib e

/-- `handle_lookup_get`. -/
def handleLookupGet : Handling Unit := withClient lib srv surr req (lookupGet lib srv surr req)

/-- `handle_lookup_post`. -/
def handleLookupPost : Handling Unit :=
  withClient lib srv surr req fun _ => lookupPost lib srv surr req

/-! ### Routes -/

/-- The handlers that `setup_routes` registers. -/
def handle : Route → Handling Unit
  | .lookupGet => handleLookupGet lib srv surr req
  | .lookupPost => handleLookupPost lib srv surr req
  | .passwordGet => PasswordHandler.handleGet lib.json lib.toDouble surr req
  | .passwordPost => PasswordHandler.handlePost lib.json lib.toDouble srv.maxBatchSize surr req

/-- The response that `setup_cors` starts with. -/
def corsResponse : Response where
  headers := [("Access-Control-Allow-Origin", "*"),
    ("Access-Control-Allow-Methods", "GET, POST, OPTIONS"),
    ("Access-Control-Allow-Headers", "Content-Type, Authorization")]

/-- What comes of a request: the response, unless an exception escapes the handler, the limiter
    after it, and the calls made. -/
structure Outcome where
  response : Except Exn Response
  limiter : RateLimiter
  events : List Event

/-- What comes of a run of a handler. -/
def Outcome.ofResult : EStateM.Result Exn World Unit → Outcome
  | .ok () w => ⟨.ok w.res, w.limiter, w.events⟩
  | .error e w => ⟨.error e, w.limiter, w.events⟩

/-- A lookup handler or the generator was called. -/
def Outcome.worked (o : Outcome) : Bool := o.events.any Event.isWork

/-- The number of requests recorded. -/
def Outcome.requests (o : Outcome) : ℕ := o.events.countP Event.isRequest

/-- The number of errors recorded. -/
def Outcome.errors (o : Outcome) : ℕ := o.events.countP Event.isError

/-- A request is served, with the limiter in a state. -/
def serve (route : Route) (limiter : RateLimiter) : Outcome :=
  .ofResult ((handle lib srv surr req route).run ⟨corsResponse, limiter, []⟩)

end IPGeoHTTPServer

end IpServer
