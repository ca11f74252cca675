import IpServer.Json
import IpServer.Library.Futures
import IpServer.Library.Guarantee
import IpServer.Metrics
import IpServer.Password.Generator
import IpServer.RateLimiter.Basic
import Mathlib.Data.Set.Basic

/-!
# Handling a request

A handler reads the request, fills in the response, calls the rate limiter and
leaves traces: it is a computation in `Handling`, which may throw, and where what
was done before a throw stays done. Its traces are the calls it makes (`Event`), in
order.

What a request meets and does not determine itself is given with it
(`Surroundings`): the readings of the clocks, the outcomes of the generator, and the
order in which concurrent tasks finish.

* `run_sendErrorResponse`: an error response with texts in UTF-8 can be sent.
-/

namespace IpServer

/-- A request, by what the handlers read of it. -/
structure Request where
  /-- `get_header_value`: empty if there is no such header -/
  header : String → String
  /-- `get_param_value`: empty if there is no such parameter -/
  param : String → String
  body : String
  remoteAddr : String

/-- A response. -/
structure Response where
  status : ℤ := 200
  headers : List (String × String) := []
  contentType : String := ""
  body : String := ""
  deriving DecidableEq

/-- The response with a status and a content, in JSON. -/
def Response.withJson (res : Response) (status : ℤ) (body : String) : Response :=
  { res with status, body, contentType := "application/json" }

/-- A call that a handler makes. -/
inductive Event
  | limiter (op : LimiterOp)
  | lookup (isMac : Bool) (query : String)
  | generate (config : PasswordConfig)
  | generateBatch (config : PasswordConfig) (count : ℤ)
  | metrics (call : MetricsCall)

/-- The call of the limiter that an event is, if it is one. -/
def Event.limiterOp? : Event → Option LimiterOp
  | .limiter op => some op
  | _ => none

/-- The recording call that an event is, if it is one. -/
def Event.metricsCall? : Event → Option MetricsCall
  | .metrics call => some call
  | _ => none

/-- A lookup handler or the generator is called. -/
def Event.isWork : Event → Bool
  | .lookup .. | .generate .. | .generateBatch .. => true
  | .limiter .. | .metrics .. => false

/-- A request is recorded. -/
def Event.isRequest : Event → Bool
  | .metrics (.recordRequest ..) => true
  | _ => false

/-- An error is recorded. -/
def Event.isError : Event → Bool
  | .metrics .recordError => true
  | _ => false

/-- The metrics after the recording calls among some events. -/
def Metrics.after (m : Metrics) (events : List Event) : Metrics :=
  step.run m ((events.filterMap Event.metricsCall?).flatMap MetricsCall.ops)

/-- The response, the rate limiter, and the calls made so far. -/
structure World where
  res : Response
  limiter : RateLimiter
  events : List Event

/-- The world after a call of the limiter. -/
def World.call (w : World) (op : LimiterOp) : World :=
  { w with
    limiter := (RateLimiter.step w.limiter op).2
    events := w.events ++ [.limiter op] }

/-- A computation of a handler. -/
abbrev Handling := EStateM Exn World

/-- What `generate` and `generate_batch` do when a request calls them. -/
structure Generator where
  generate : PasswordConfig → Except Exn PasswordResult
  generateBatch : PasswordConfig → ℤ → Except Exn (List PasswordResult)

/-- The generator after `t` draws. -/
def Generator.drawn (r : Randomness) (log2 : ℕ → ℚ) (t : ℕ) : Generator where
  generate config := (Password.generate r log2 config t).1
  generateBatch config count := (Password.generateBatch r log2 config count t).1

/-- What a request meets. -/
structure Surroundings where
  /-- the readings of `is_allowed`, on entry and when it prunes -/
  now : TimePoint
  pruned : TimePoint
  /-- the reading of `get_remaining` -/
  remaining : TimePoint
  /-- when the call number `i` of a lookup handler is made -/
  moment : ℕ → ℕ
  /-- what the timer shows after the call number `i` -/
  elapsed : ℕ → ℚ
  /-- the reading of `record_request`, for the call number `i` -/
  recorded : ℕ → TimePoint
  generator : Generator
  /-- the order in which the tasks of a batch finish -/
  scheduler : Futures.Scheduler Exn (LookupResult × ℚ)

/-- Surroundings in which all clocks stand still, to evaluate the model with. -/
def Surroundings.sample : Surroundings where
  now := 0
  pruned := 0
  remaining := 0
  moment _ := 0
  elapsed _ := 0
  recorded _ := 0
  generator := .drawn Password.firstDraws (fun _ => 6) 0
  scheduler := .eager

namespace Handling

/-! ### What handlers do -/

/-- `res.status = status`. -/
def setStatus (status : ℤ) : Handling Unit :=
  modify fun w => { w with res := { w.res with status } }

/-- `res.set_header(key, value)`. -/
def setHeader (key value : String) : Handling Unit :=
  modify fun w => { w with res := { w.res with headers := w.res.headers ++ [(key, value)] } }

/-- `res.set_content(body, content_type)`. -/
def setContent (body contentType : String) : Handling Unit :=
  modify fun w => { w with res := { w.res with body, contentType } }

/-- A call is made. -/
def emit (event : Event) : Handling Unit :=
  modify fun w => { w with events := w.events ++ [event] }

/-- `metrics_->record_request(timer.elapsed())`, after the call number `i`. -/
def recordRequest (surr : Surroundings) (i : ℕ) : Handling Unit :=
  emit (.metrics (.recordRequest (surr.elapsed i) (surr.recorded i)))

/-- `metrics_->record_error()`. -/
def recordError : Handling Unit := emit (.metrics .recordError)

variable (lib : JsonLibrary)

/-- `send_json_response`. -/
def sendJsonResponse (data : Json) (status : ℤ) : Handling Unit := do
  setStatus status
  setContent (← ofExcept (lib.dump data)) "application/json"

/-- The content of an error response. -/
def errorJson (error message : String) : Json :=
  Json.null
    |>.set "error" (.string error)
    |>.set "message" (.string message)

/-- `send_error_response`. -/
def sendErrorResponse (status : ℤ) (error message : String) : Handling Unit :=
  sendJsonResponse lib (errorJson error message) status

/-- `send_error_response` and `record_error`, on an exception that nothing else is known of. -/
def internalError (what : String) : Handling Unit := do
  sendErrorResponse lib 500 "Internal Server Error" what
  recordError

/-! ### What they leave -/

variable {lib} {w : World} {α : Type}

@[simp] theorem run_setStatus (status : ℤ) :
    (setStatus status).run w = .ok () { w with res := { w.res with status } } := rfl

@[simp] theorem run_setHeader (key value : String) : (setHeader key value).run w =
    .ok () { w with res := { w.res with headers := w.res.headers ++ [(key, value)] } } := rfl

@[simp] theorem run_setContent (body contentType : String) : (setContent body contentType).run w =
    .ok () { w with res := { w.res with body, contentType } } := rfl

@[simp] theorem run_emit (event : Event) :
    (emit event).run w = .ok () { w with events := w.events ++ [event] } := rfl

@[simp] theorem run_recordRequest (surr : Surroundings) (i : ℕ) : (recordRequest surr i).run w =
    .ok () { w with events := w.events ++
      [.metrics (.recordRequest (surr.elapsed i) (surr.recorded i))] } := rfl

@[simp] theorem run_recordError :
    recordError.run w = .ok () { w with events := w.events ++ [.metrics .recordError] } := rfl

@[simp] theorem run_ofExcept_ok (a : α) : (ofExcept (.ok a) : Handling α).run w = .ok a w := rfl

@[simp] theorem run_ofExcept_error (e : Exn) :
    (ofExcept (.error e) : Handling α).run w = .error e w := rfl

/-- An exception is caught with all that was done before it was thrown. -/
theorem run_tryCatch (x : Handling α) (handler : Exn → Handling α) :
    (tryCatch x handler).run w =
      match x.run w with
      | .ok a w' => .ok a w'
      | .error e w' => (handler e).run w' := by
  change EStateM.tryCatch x handler w = _
  delta EStateM.tryCatch EStateM.run
  cases x w with
  | ok a w' => rfl
  | error e w' => rfl

/-- The first part of what is tried has returned. -/
theorem run_tryCatch_bind_ok {β : Type} {x : Handling β} {f : β → Handling α}
    {handler : Exn → Handling α} {b : β} {w' : World} (h : x.run w = .ok b w') :
    (tryCatch (x >>= f) handler).run w = (tryCatch (f b) handler).run w' := by
  rw [run_tryCatch, run_tryCatch, EStateM.run_bind, h]

/-- The first part of what is tried has thrown an exception. -/
theorem run_tryCatch_bind_error {β : Type} {x : Handling β} {f : β → Handling α}
    {handler : Exn → Handling α} {e : Exn} {w' : World} (h : x.run w = .error e w') :
    (tryCatch (x >>= f) handler).run w = (handler e).run w' := by
  rw [run_tryCatch, EStateM.run_bind, h]

theorem run_sendJsonResponse {data : Json} (status : ℤ) :
    (sendJsonResponse lib data status).run w =
      match lib.dump data with
      | .ok body => .ok () { w with res := w.res.withJson status body }
      | .error e => .error e { w with res := { w.res with status } } := by
  rw [sendJsonResponse, EStateM.run_bind, run_setStatus]
  simp only [EStateM.run_bind]
  cases lib.dump data with
  | ok body => rfl
  | error e => rfl

theorem errorJson_eq (error message : String) :
    errorJson error message = .object [("error", .string error), ("message", .string message)] :=
  Json.null_set_set (by decide) _ _

theorem validUtf8_badRequest : Json.validUtf8 "Bad Request" = true :=
  Json.validUtf8_of_ascii (by decide)

theorem validUtf8_internalServerError : Json.validUtf8 "Internal Server Error" = true :=
  Json.validUtf8_of_ascii (by decide)

/-- The text of an error response. -/
def errorText (error message : String) : String :=
  "\x7b" ++ ",".intercalate [Json.quote "error" ++ ":" ++ Json.quote error,
    Json.quote "message" ++ ":" ++ Json.quote message] ++ "\x7d"

theorem dump_errorJson {error message : String} (herror : Json.validUtf8 error = true)
    (hmessage : Json.validUtf8 message = true) :
    lib.dump (errorJson error message) = .ok (errorText error message) := by
  have h₁ : Json.validUtf8 "error" := Json.validUtf8_of_ascii (by decide)
  have h₂ : Json.validUtf8 "message" := Json.validUtf8_of_ascii (by decide)
  rw [errorJson_eq]
  simp only [JsonLibrary.dump, JsonLibrary.dumpMembers, JsonLibrary.dumpString, herror, hmessage,
    h₁, h₂, if_true]
  rfl

/-- An error response with texts in UTF-8 can be sent. -/
theorem run_sendErrorResponse {error message : String} (status : ℤ)
    (herror : Json.validUtf8 error = true) (hmessage : Json.validUtf8 message = true) :
    (sendErrorResponse lib status error message).run w =
      .ok () { w with res := w.res.withJson status (errorText error message) } := by
  rw [sendErrorResponse, run_sendJsonResponse, dump_errorJson herror hmessage]

/-- An error response with a message that is not UTF-8 cannot be sent. -/
theorem run_sendErrorResponse_of_not {message : String} (status : ℤ) (error : String)
    (h : ¬Json.validUtf8 message = true) : ∃ e, (sendErrorResponse lib status error message).run w =
      .error e { w with res := { w.res with status } } := by
  rw [sendErrorResponse, run_sendJsonResponse]
  cases hdump : lib.dump (errorJson error message) with
  | error e => exact ⟨e, rfl⟩
  | ok body =>
    have hvalid := (JsonLibrary.dump_eq_ok _).1 ⟨body, hdump⟩
    rw [errorJson_eq] at hvalid
    simp only [Json.isUtf8Text, Json.areUtf8Members, Bool.and_eq_true] at hvalid
    exact absurd hvalid.2.1.2 h

/-- The error is recorded if its text can be sent. -/
theorem run_internalError (what : String) :
    (Json.validUtf8 what = true ∧ ∃ res, (internalError lib what).run w =
      .ok () { w with res, events := w.events ++ [.metrics .recordError] }) ∨
    (¬Json.validUtf8 what = true ∧ ∃ e res, (internalError lib what).run w =
      .error e { w with res }) := by
  rw [internalError, EStateM.run_bind]
  by_cases hvalid : Json.validUtf8 what
  · rw [run_sendErrorResponse 500 validUtf8_internalServerError hvalid]
    exact .inl ⟨hvalid, _, rfl⟩
  · obtain ⟨e, he⟩ := run_sendErrorResponse_of_not 500 "Internal Server Error" hvalid
    rw [he]
    exact .inr ⟨hvalid, e, _, rfl⟩

/-! ### What they leave alone -/

/-- The limiter is left alone, and only calls that meet `P` are made. -/
def Leaves (P : Event → Prop) (w w' : World) : Prop :=
  w'.limiter = w.limiter ∧ ∃ new, w'.events = w.events ++ new ∧ ∀ event ∈ new, P event

/-- The limiter is what the calls made of it. -/
def Tracked (w w' : World) : Prop :=
  ∃ new, w'.events = w.events ++ new ∧
    w'.limiter = RateLimiter.step.run w.limiter (new.filterMap Event.limiterOp?)

/-- The status stays in `S`. -/
def StatusIn (S : Set ℤ) (w w' : World) : Prop := w.res.status ∈ S → w'.res.status ∈ S

variable {P : Event → Prop} {S : Set ℤ}

instance : IsPreorder World (Leaves P) where
  refl w := ⟨rfl, [], (List.append_nil _).symm, List.forall_mem_nil _⟩
  trans w₁ w₂ w₃ := by
    rintro ⟨hlimiter, new, hnew, hP⟩ ⟨hlimiter', new', hnew', hP'⟩
    refine ⟨hlimiter'.trans hlimiter, new ++ new', ?_, List.forall_mem_append.2 ⟨hP, hP'⟩⟩
    rw [hnew', hnew, List.append_assoc]

instance : IsPreorder World Tracked where
  refl w := ⟨[], (List.append_nil _).symm, rfl⟩
  trans w₁ w₂ w₃ := by
    rintro ⟨new, hnew, hlimiter⟩ ⟨new', hnew', hlimiter'⟩
    refine ⟨new ++ new', by rw [hnew', hnew, List.append_assoc], ?_⟩
    rw [hlimiter', hlimiter, List.filterMap_append, Machine.run_append]

instance : IsPreorder World (StatusIn S) where
  refl _ h := h
  trans _ _ _ h h' := h' ∘ h

theorem leaves_of_events_eq {w w' : World} (hlimiter : w'.limiter = w.limiter)
    (hevents : w'.events = w.events) : Leaves P w w' :=
  ⟨hlimiter, [], by rw [hevents, List.append_nil], List.forall_mem_nil _⟩

theorem Leaves.tracked {w w' : World} (h : Leaves (fun event => event.limiterOp? = none) w w') :
    Tracked w w' := by
  obtain ⟨hlimiter, new, hnew, hP⟩ := h
  exact ⟨new, hnew, by rw [hlimiter, List.filterMap_eq_nil_iff.2 hP, Machine.run_nil]⟩

theorem tracked_call (op : LimiterOp) : Tracked w (w.call op) := ⟨[.limiter op], rfl, rfl⟩

theorem leaves_setStatus (status : ℤ) : Guarantees (Leaves P) (setStatus status) :=
  .modify fun _ => leaves_of_events_eq rfl rfl

theorem leaves_setContent (body contentType : String) :
    Guarantees (Leaves P) (setContent body contentType) :=
  .modify fun _ => leaves_of_events_eq rfl rfl

theorem leaves_emit {event : Event} (h : P event) : Guarantees (Leaves P) (emit event) :=
  .modify fun _ => ⟨rfl, [event], rfl, List.forall_mem_singleton.2 h⟩

theorem statusIn_setStatus {status : ℤ} (h : status ∈ S) :
    Guarantees (StatusIn S) (setStatus status) := .modify fun _ _ => h

theorem statusIn_setContent (body contentType : String) :
    Guarantees (StatusIn S) (setContent body contentType) := .modify fun _ hs => hs

theorem statusIn_emit (event : Event) : Guarantees (StatusIn S) (emit event) :=
  .modify fun _ hs => hs

theorem guarantees_sendJsonResponse {R : World → World → Prop} [IsPreorder World R] {status : ℤ}
    (hset : Guarantees R (setStatus status))
    (hcontent : ∀ body contentType, Guarantees R (setContent body contentType)) (data : Json) :
    Guarantees R (sendJsonResponse lib data status) :=
  .bind hset fun _ => .bind (.ofExcept _) fun _ => hcontent _ _

theorem leaves_sendJsonResponse (data : Json) (status : ℤ) :
    Guarantees (Leaves P) (sendJsonResponse lib data status) :=
  guarantees_sendJsonResponse (leaves_setStatus status) leaves_setContent data

end Handling

end IpServer
