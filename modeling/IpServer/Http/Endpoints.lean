import IpServer.Cache.IPCache
import IpServer.Http.Server

/-!
# Endpoints

Which handler a request gets (`endpoint`), and the two of them that look nothing up: `handle_root`
describes the service, and `handle_health` reports the statistics of the metrics and of the caches,
rounded. Rounding is exact here, as the statistics are.
-/

namespace IpServer

/-- An object with the members of an initializer list. -/
def Json.ofMembers (members : List (String × Json)) : Json :=
  members.foldl (fun j m => j.set m.1 m.2) .null

namespace CacheStats

variable (stats : CacheStats)

/-- `hit_rate`. -/
def hitRate : ℚ :=
  if stats.totalLookups > 0 then (stats.hits : ℚ) / stats.totalLookups * 100 else 0

/-- `get_memory_usage_mb`. -/
def getMemoryUsageMb : ℚ := stats.memoryUsageBytes / (1024 * 1024)

end CacheStats

/-- `round`: to the nearest integer, and half way away from zero. -/
def roundAway (x : ℚ) : ℤ := if 0 ≤ x then ⌊x + 1 / 2⌋ else ⌈x - 1 / 2⌉

/-- `round(x * scale) / scale`. -/
def rounded (scale : ℕ) (x : ℚ) : ℚ := roundAway (x * scale) / scale

namespace IPGeoHTTPServer

open Handling

/-! ### The handlers that look nothing up -/

/-- The description of the service. -/
def info : Json :=
  Json.null
    |>.set "service" (.string "IP Geolocation & AS Lookup Service")
    |>.set "version" (.string "2.0.0")
    |>.set "endpoints" (.array [.string "/", .string "/lookup", .string "/health",
      .string "/password/generate"])
    |>.set "description" (.string ("Use /lookup with 'ip=' or 'mac=' parameter for single " ++
      "queries, or 'ips'/'macs' array for batch queries"))

/-- `handle_root`. -/
def handleRoot (lib : Libraries) : Handling Unit := do
  setContent (← ofExcept (lib.json.dump info)) "application/json"

/-- What `handle_health` finds out: the wall clock, in seconds, the statistics of the metrics, and
    those of the caches, if a handler for them is registered. -/
structure Readings where
  timestamp : Int64
  stats : Metrics.Stats
  cache : Option CacheStats

variable (lib : Libraries)

/-- A number with a fraction, rounded. -/
def decimal (scale : ℕ) (x : ℚ) : Json := .float (lib.toDouble (rounded scale x))

/-- The section on the metrics. -/
def metricsJson (stats : Metrics.Stats) : Json :=
  .ofMembers [("total_requests", .unsigned stats.totalRequests),
    ("qps", decimal lib 100 stats.currentQps),
    ("avg_latency_ms", decimal lib 1000 stats.avgLatencyMs),
    ("p50_latency_ms", decimal lib 1000 stats.p50LatencyMs),
    ("p95_latency_ms", decimal lib 1000 stats.p95LatencyMs),
    ("p99_latency_ms", decimal lib 1000 stats.p99LatencyMs)]

/-- The section on the caches. -/
def cacheJson (cache : CacheStats) : Json :=
  .ofMembers [("hits", .unsigned (.ofNat cache.hits)),
    ("misses", .unsigned (.ofNat cache.misses)),
    ("hit_rate_percent", decimal lib 100 cache.hitRate),
    ("evictions", .unsigned (.ofNat cache.evictions)),
    ("expired_entries", .unsigned (.ofNat cache.expiredEntries)),
    ("memory_usage_mb", decimal lib 100 cache.getMemoryUsageMb)]

/-- The report of `handle_health`. -/
def healthJson (readings : Readings) : Json :=
  let health := Json.null
    |>.set "status" (.string "ok")
    |>.set "timestamp" (.integer readings.timestamp)
    |>.set "metrics" (metricsJson lib readings.stats)
  let health := match readings.cache with
    | none => health
    | some cache => health.set "cache" (cacheJson lib cache)
  health
    |>.set "errors" (.ofMembers [("total", .unsigned readings.stats.totalErrors),
      ("rate_percent", decimal lib 100 readings.stats.errorRate)])
    |>.set "system" (.ofMembers [("uptime_seconds", .unsigned readings.stats.uptimeSeconds)])

/-- `handle_health`. -/
def handleHealth (readings : Readings) : Handling Unit := do
  setContent (← ofExcept (lib.json.dump (healthJson lib readings))) "application/json"

/-! ### Routing -/

/-- The methods that handlers are registered for; those for `GET` get the requests with `HEAD`,
    too. -/
inductive Method
  | get
  | head
  | post
  | options
  | other
  deriving DecidableEq

/-- What a request is given to. -/
inductive Endpoint
  | root
  | health
  | work (route : Route)
  /-- the handler for `OPTIONS`, which leaves the response as it is -/
  | preflight
  deriving DecidableEq

/-- The handlers that `setup_routes` registers for `GET`. -/
def getEndpoint (path : String) : Option Endpoint :=
  if path = "/" then some .root
  else if path = "/health" then some .health
  else if path = "/lookup" then some (.work .lookupGet)
  else if path = "/password/generate" then some (.work .passwordGet)
  else none

/-- The handlers that `setup_routes` registers for `POST`. -/
def postEndpoint (path : String) : Option Endpoint :=
  if path = "/lookup" then some (.work .lookupPost)
  else if path = "/password/generate" then some (.work .passwordPost)
  else none

/-- The endpoint of a request. The pattern for `OPTIONS` matches every path without a line break. -/
def endpoint (path : String) : Method → Option Endpoint
  | .get | .head => getEndpoint path
  | .post => postEndpoint path
  | .options => if '\n' ∈ path.toList ∨ '\r' ∈ path.toList then none else some .preflight
  | .other => none

variable (srv : IPGeoHTTPServer) (surr : Surroundings) (readings : Readings) (req : Request)

/-- The handler of an endpoint. -/
def handleEndpoint : Endpoint → Handling Unit
  | .root => handleRoot lib
  | .health => handleHealth lib readings
  | .work route => handle lib srv surr req route
  | .preflight => return ()

/-- What comes of a request to the server: without an endpoint, it is not found. In any case, the
    handler of `setup_cors` has run before. -/
def respond (method : Method) (path : String) (limiter : RateLimiter) : Outcome :=
  match endpoint path method with
  | some e =>
    .ofResult ((handleEndpoint lib srv surr readings req e).run ⟨corsResponse, limiter, []⟩)
  | none => ⟨.ok { corsResponse with status := 404 }, limiter, []⟩

end IPGeoHTTPServer

end IpServer
