import IpServer.Http.Server

/-!
# The life of the server

`run_application` constructs the services and the server, calls `start`, which returns when the
server has been shut down, and then destroys them. Four threads take part, in any order of their
steps (`Lifecycle.step`):

* the *owner*, which runs `run_application`, and in it `start`, `start_server_and_wait` and the
  destructors;
* the *listener*, which runs `listen` of the HTTP library, and stores what it returned;
* the *cleaner*, which runs `cleanup_thread_func`;
* whoever delivers a signal, calls `stop`, or handles a request.

When `listen` returns, and what, is not up to the server: it is part of the input. So is whether
a wait with a timeout is over.
-/

namespace IpServer

/-- What `run_application` constructs: the services, and the members of the server that its
    threads use. -/
inductive Resident
  | geoService
  | macService
  | server
  | lookupHandler
  | macLookupHandler
  | cacheStatsHandler
  | rateLimiter
  | apiAuth
  | metrics
  | passwordHandler
  | cleanupThread
  deriving DecidableEq, Repr

/-- In the order of their construction, the members in that of their declaration. They are
    destroyed in the reverse order. -/
def Resident.constructed : List Resident :=
  [.geoService, .macService, .server, .lookupHandler, .macLookupHandler, .cacheStatsHandler,
    .rateLimiter, .apiAuth, .metrics, .passwordHandler, .cleanupThread]

/-- Where the owner is: its next step. -/
inductive Owner
  /-- `start` is called -/
  | entered
  /-- the server thread is created -/
  | launching
  /-- waits 500 ms for `listen` to fail -/
  | grace
  /-- `if (!server_running.load())` -/
  | graceOver
  /-- joins the server thread of a server that has failed -/
  | joinFailed
  /-- `while (!shutdown_requested.load() && ...)` -/
  | polling
  /-- `while (... && server_running.load())` -/
  | pollingRunning
  /-- waits 100 ms -/
  | pausing
  /-- `server_.stop()` -/
  | stopping
  /-- joins the server thread -/
  | joining
  /-- `return server_running.load()` -/
  | loading
  /-- the cleanup thread is asked to stop, if there is one -/
  | finishing (result : Bool)
  /-- `start` has returned -/
  | returned (result : Bool)
  /-- what is left is destroyed -/
  | destroying (result : Bool) (left : List Resident)
  deriving DecidableEq, Repr

/-- Where the server thread is. -/
inductive Listener
  | unborn
  | listening
  /-- `listen` has returned -/
  | listened (result : Bool)
  /-- its result is stored -/
  | stored (result : Bool)
  | finished (result : Bool)
  deriving DecidableEq, Repr

/-- Where the cleanup thread is. -/
inductive Cleaner
  | unborn
  /-- `while (!stop_token.stop_requested())` -/
  | checking
  /-- waits 300 s, or until it is asked to stop -/
  | waiting
  /-- `if (!stop_token.stop_requested())` -/
  | woken
  /-- `rate_limiter_->cleanup()` -/
  | cleaning
  | finished
  deriving DecidableEq, Repr

/-- The threads, and what they share. -/
structure Lifecycle where
  owner : Owner
  listener : Listener
  cleaner : Cleaner
  shutdownRequested : Bool
  serverRunning : Bool
  /-- of the stop token of the cleanup thread -/
  stopRequested : Bool
  deriving DecidableEq, Repr

/-- A step of one of the threads. -/
inductive LifecycleStep
  /-- `handle_signal` -/
  | signal
  /-- of the owner: is its wait over? -/
  | owner (awake : Bool)
  /-- of the server thread: has `listen` returned, and what? -/
  | listener (returned : Option Bool)
  /-- of the cleanup thread: is its wait over? -/
  | cleaner (awake : Bool)
  /-- `stop` -/
  | stop
  /-- a request is handled -/
  | request
  deriving DecidableEq, Repr

/-- What the threads do that matters to others. -/
inductive LifecycleEvent
  /-- `signal_safe_log` -/
  | logged
  /-- `server_.stop()` -/
  | stopped
  /-- `rate_limiter_->cleanup()` -/
  | cleanup
  | request
  | destroyed (resident : Resident)
  deriving DecidableEq, Repr

namespace Lifecycle

/-- `start` is about to be called. -/
def new (shutdownRequested : Bool) : Lifecycle where
  owner := .entered
  listener := .unborn
  cleaner := .unborn
  shutdownRequested
  serverRunning := true
  stopRequested := false

/-- The server thread is done. -/
def isJoined (s : Lifecycle) : Bool :=
  match s.listener with
  | .finished _ => true
  | _ => false

/-- `request_stop` and `join`, if there is a cleanup thread: it is asked to stop, and waited for. -/
def joinCleaner (s : Lifecycle) (joined : Lifecycle) : List LifecycleEvent × Lifecycle :=
  match s.cleaner with
  | .unborn => ([.destroyed .cleanupThread], joined)
  | .finished => ([.destroyed .cleanupThread], { joined with stopRequested := true })
  | _ => ([], { s with stopRequested := true })

/-- The next step of the owner. -/
def ownerStep (srv : IPGeoHTTPServer) (awake : Bool) (s : Lifecycle) :
    List LifecycleEvent × Lifecycle :=
  match s.owner with
  | .entered =>
    if srv.lookupHandler.isNone then ([], { s with owner := .returned false })
    else if srv.enableRateLimiter then ([], { s with owner := .launching, cleaner := .checking })
    else ([], { s with owner := .launching })
  | .launching => ([], { s with owner := .grace, listener := .listening, serverRunning := true })
  | .grace => if awake || !s.serverRunning then ([], { s with owner := .graceOver }) else ([], s)
  | .graceOver =>
    if s.serverRunning then ([], { s with owner := .polling })
    else ([], { s with owner := .joinFailed })
  | .joinFailed => if s.isJoined then ([], { s with owner := .finishing false }) else ([], s)
  | .polling =>
    if s.shutdownRequested then ([], { s with owner := .stopping })
    else ([], { s with owner := .pollingRunning })
  | .pollingRunning =>
    if s.serverRunning then ([], { s with owner := .pausing })
    else ([], { s with owner := .stopping })
  | .pausing => if awake then ([], { s with owner := .polling }) else ([], s)
  | .stopping => ([.stopped], { s with owner := .joining })
  | .joining => if s.isJoined then ([], { s with owner := .loading }) else ([], s)
  | .loading => ([], { s with owner := .finishing s.serverRunning })
  | .finishing result =>
    if s.cleaner = .unborn then ([], { s with owner := .returned result })
    else ([], { s with owner := .returned result, stopRequested := true })
  | .returned result =>
    ([], { s with owner := .destroying result Resident.constructed.reverse })
  | .destroying _ [] => ([], s)
  | .destroying result (.cleanupThread :: left) =>
    s.joinCleaner { s with owner := .destroying result left }
  | .destroying result (resident :: left) =>
    ([.destroyed resident], { s with owner := .destroying result left })

/-- The next step of the server thread. -/
def listenerStep (returned : Option Bool) (s : Lifecycle) : Lifecycle :=
  match s.listener with
  | .listening =>
    match returned with
    | some result => { s with listener := .listened result }
    | none => s
  | .listened result => { s with listener := .stored result, serverRunning := result }
  | .stored result => { s with listener := .finished result }
  | .unborn | .finished _ => s

/-- The next step of the cleanup thread. -/
def cleanerStep (awake : Bool) (s : Lifecycle) : List LifecycleEvent × Lifecycle :=
  match s.cleaner with
  | .checking =>
    if s.stopRequested then ([], { s with cleaner := .finished })
    else ([], { s with cleaner := .waiting })
  | .waiting => if awake || s.stopRequested then ([], { s with cleaner := .woken }) else ([], s)
  | .woken =>
    if s.stopRequested then ([], { s with cleaner := .checking })
    else ([], { s with cleaner := .cleaning })
  | .cleaning => ([.cleanup], { s with cleaner := .checking })
  | .unborn | .finished => ([], s)

/-- A step of a thread. -/
def step (srv : IPGeoHTTPServer) : Machine Lifecycle LifecycleStep (List LifecycleEvent)
  | s, .signal =>
    -- only the first signal is reported
    (if s.shutdownRequested then [] else [.logged], { s with shutdownRequested := true })
  | s, .owner awake => s.ownerStep srv awake
  | s, .listener returned => ([], s.listenerStep returned)
  | s, .cleaner awake => s.cleanerStep awake
  | s, .stop => ([.stopped], s)
  | s, .request => ([.request], s)

end Lifecycle

end IpServer
