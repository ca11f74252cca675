import IpServer.Conversions
import IpServer.Http.Handling

/-!
# The password handler

`handle_get` reads the length and the flags from the parameters of the request,
`handle_post` reads them and a count from the members of a JSON body; both call
the generator and answer with what it made.
-/

namespace IpServer.PasswordHandler

open Handling

variable (lib : JsonLibrary) (toDouble : ℚ → UInt64) (maxBatch : ℤ) (surr : Surroundings)
  (req : Request)

/-- `parseBoolParam`. -/
def parseBoolParam (key : String) (defaultVal : Bool) : Bool :=
  if req.param key = "" then defaultVal else parseBoolString (req.param key)

/-- The length that `handle_get` reads. -/
def lengthParam : Except Exn ℤ :=
  if req.param "length" = "" then .ok 16 else stoi (req.param "length")

/-- The configuration that `handle_get` reads, with its length. -/
def configOfParams (length : ℤ) : PasswordConfig where
  length
  uppercase := parseBoolParam req "uppercase" true
  lowercase := parseBoolParam req "lowercase" true
  digits := parseBoolParam req "digits" true
  symbols := parseBoolParam req "symbols" true
  excludeSimilar := parseBoolParam req "exclude_similar" true

/-- An `int`, in JSON. -/
def int (n : ℤ) : Json := .integer (Int64.ofInt n)

/-- A password, in JSON. -/
def passwordJson (result : PasswordResult) : Json :=
  Json.null
    |>.set "password" (.string result.password)
    |>.set "length" (int result.length)
    |>.set "entropy" (.float (toDouble result.entropy))
    |>.set "strength" (.string result.strength)

/-- The catch clauses of `handle_get`. -/
def catchGet : Exn → Handling Unit
  | .invalidArgument what =>
    sendErrorResponse lib 400 "Bad Request" ("Invalid parameter value: " ++ what)
  | .json what | .std what => internalError lib what
  | .foreign => throw .foreign

/-- `handle_get`. -/
def handleGet : Handling Unit :=
  try
    let length ← ofExcept (lengthParam req)
    let config := configOfParams req length
    emit (.generate config)
    let result ← ofExcept (surr.generator.generate config)
    recordRequest surr 0
    sendJsonResponse lib (passwordJson toDouble result) 200
  catch e => catchGet lib e

/-- The lambda `readBool` of `handle_post`. -/
def readBool (body : Json) (key : String) (field : Bool) : Bool :=
  match body.get? key with
  | some (.boolean b) => b
  | _ => field

/-- The lambda `readInt` of `handle_post`. -/
def readInt (body : Json) (key : String) (field : ℤ) : ℤ :=
  match body.get? key with
  | some (.integer n) => toInt32 n.toInt
  | some (.unsigned n) => toInt32 n.toNat
  | _ => field

/-- The configuration that `handle_post` reads. -/
def configOfBody (body : Json) : PasswordConfig where
  length := readInt body "length" 16
  uppercase := readBool body "uppercase" true
  lowercase := readBool body "lowercase" true
  digits := readBool body "digits" true
  symbols := readBool body "symbols" true
  excludeSimilar := readBool body "exclude_similar" true

/-- A batch of passwords, in JSON. -/
def passwordsJson (results : List PasswordResult) : Json :=
  Json.null
    |>.set "count" (int (toInt32 results.length))
    |>.set "passwords" (.array (results.map (passwordJson toDouble)))

/-- The catch clauses of `handle_post`. -/
def catchPost : Exn → Handling Unit
  | .json what => sendErrorResponse lib 400 "Bad Request" ("Invalid JSON: " ++ what)
  | .invalidArgument what => sendErrorResponse lib 400 "Bad Request" what
  | .std what => internalError lib what
  | .foreign => throw .foreign

/-- `handle_post`. -/
def handlePost : Handling Unit :=
  try
    let body ← ofExcept ((lib.parse req.body).mapError .json)
    let config := configOfBody body
    let count := readInt body "count" 1
    if count < 1 then sendErrorResponse lib 400 "Bad Request" "Count must be at least 1"
    else if count > maxBatch then
      sendErrorResponse lib 400 "Bad Request" ("Count cannot exceed " ++ toString maxBatch)
    else
      emit (.generateBatch config count)
      let results ← ofExcept (surr.generator.generateBatch config count)
      recordRequest surr 0
      sendJsonResponse lib (passwordsJson toDouble results) 200
  catch e => catchPost lib e

variable {lib toDouble maxBatch surr req} {w : World} {R : World → World → Prop}
  [IsPreorder World R]

/-! ### What a request does -/

/-- What the catch clauses do is made of error responses and of recording an error. -/
theorem guarantees_catchGet
    (hsend : ∀ data status, status ∈ [400, 500] → Guarantees R (sendJsonResponse lib data status))
    (hemit : Guarantees R recordError) (e : Exn) : Guarantees R (catchGet lib e) := by
  cases e with
  | invalidArgument what => exact hsend _ 400 (by decide)
  | foreign => exact .throw _
  | json what | std what => exact .bind (hsend _ 500 (by decide)) fun _ => hemit

theorem guarantees_catchPost
    (hsend : ∀ data status, status ∈ [400, 500] → Guarantees R (sendJsonResponse lib data status))
    (hemit : Guarantees R recordError) (e : Exn) : Guarantees R (catchPost lib e) := by
  cases e with
  | json what | invalidArgument what => exact hsend _ 400 (by decide)
  | foreign => exact .throw _
  | std what => exact .bind (hsend _ 500 (by decide)) fun _ => hemit

/-- What `handle_get` does after the parameters are read. -/
theorem guarantees_handleGet
    (hsend : ∀ data status, status ∈ [200, 400, 500] →
      Guarantees R (sendJsonResponse lib data status))
    (hemit : ∀ event, event.limiterOp? = none → Guarantees R (emit event)) :
    Guarantees R (handleGet lib toDouble surr req) := by
  refine .tryCatch (.bind (.ofExcept _) fun length => .bind (hemit _ rfl) fun _ =>
    .bind (.ofExcept _) fun result => .bind (hemit _ rfl) fun _ => hsend _ 200 (by decide))
    (guarantees_catchGet (fun data status h => hsend data status (List.mem_cons_of_mem _ h))
      (hemit _ rfl))

theorem guarantees_handlePost
    (hsend : ∀ data status, status ∈ [200, 400, 500] →
      Guarantees R (sendJsonResponse lib data status))
    (hemit : ∀ event, event.limiterOp? = none → Guarantees R (emit event)) :
    Guarantees R (handlePost lib toDouble maxBatch surr req) := by
  refine .tryCatch (.bind (.ofExcept _) fun body => ?_)
    (guarantees_catchPost (fun data status h => hsend data status (List.mem_cons_of_mem _ h))
      (hemit _ rfl))
  simp only
  split
  · exact hsend _ 400 (by decide)
  · split
    · exact hsend _ 400 (by decide)
    · exact .bind (hemit _ rfl) fun _ => .bind (.ofExcept _) fun results =>
        .bind (hemit _ rfl) fun _ => hsend _ 200 (by decide)

/-! ### When the generator is called -/

/-- Without a length that can be read, nothing is called. -/
theorem run_handleGet_of_error {e : Exn} (h : lengthParam req = .error e) :
    (handleGet lib toDouble surr req).run w = (catchGet lib e).run w := by
  rw [handleGet, h, run_tryCatch_bind_error (run_ofExcept_error e)]

/-- With a length, the generator is called. -/
theorem run_handleGet_of_ok {length : ℤ} (h : lengthParam req = .ok length) :
    (handleGet lib toDouble surr req).run w =
      (tryCatch (do
        let result ← ofExcept (surr.generator.generate (configOfParams req length))
        recordRequest surr 0
        sendJsonResponse lib (passwordJson toDouble result) 200) (catchGet lib)).run
      { w with events := w.events ++ [.generate (configOfParams req length)] } := by
  rw [handleGet, h, run_tryCatch_bind_ok (run_ofExcept_ok length)]
  dsimp only
  rw [run_tryCatch_bind_ok (run_emit _)]

/-- A body that is no JSON is rejected. -/
theorem run_handlePost_of_error {what : String} (h : lib.parse req.body = .error what) :
    (handlePost lib toDouble maxBatch surr req).run w = (catchPost lib (.json what)).run w := by
  rw [handlePost, h, Except.mapError, run_tryCatch_bind_error (run_ofExcept_error _)]

/-- A count that is too small or too large is rejected. -/
theorem run_handlePost_of_count {body : Json} (h : lib.parse req.body = .ok body)
    (hcount : readInt body "count" 1 < 1 ∨ maxBatch < readInt body "count" 1) :
    ∃ message, Json.validUtf8 message = true ∧ (handlePost lib toDouble maxBatch surr req).run w =
      (tryCatch (sendErrorResponse lib 400 "Bad Request" message) (catchPost lib)).run w := by
  rw [handlePost, h, Except.mapError, run_tryCatch_bind_ok (run_ofExcept_ok body)]
  dsimp only
  split
  · exact ⟨_, Json.validUtf8_of_ascii (by decide), rfl⟩
  · next hmin =>
    rw [if_pos (hcount.resolve_left hmin)]
    refine ⟨_, ?_, rfl⟩
    rw [Json.validUtf8_append (by decide), Json.validUtf8_toString_int]

/-- With a count, the generator is called. -/
theorem run_handlePost_of_ok {body : Json} (h : lib.parse req.body = .ok body)
    (hmin : 1 ≤ readInt body "count" 1) (hmax : readInt body "count" 1 ≤ maxBatch) :
    (handlePost lib toDouble maxBatch surr req).run w =
      (tryCatch (do
        let results ← ofExcept
          (surr.generator.generateBatch (configOfBody body) (readInt body "count" 1))
        recordRequest surr 0
        sendJsonResponse lib (passwordsJson toDouble results) 200) (catchPost lib)).run
      { w with events := w.events ++
        [.generateBatch (configOfBody body) (readInt body "count" 1)] } := by
  rw [handlePost, h, Except.mapError, run_tryCatch_bind_ok (run_ofExcept_ok body)]
  dsimp only
  rw [if_neg (not_lt.2 hmin), if_neg (not_lt.2 hmax), run_tryCatch_bind_ok (run_emit _)]

theorem leaves_catchGet {P : Event → Prop} (hP : P (.metrics .recordError)) (e : Exn) :
    Guarantees (Leaves P) (catchGet lib e) :=
  guarantees_catchGet (fun _ _ _ => leaves_sendJsonResponse _ _) (leaves_emit hP) e

theorem leaves_catchPost {P : Event → Prop} (hP : P (.metrics .recordError)) (e : Exn) :
    Guarantees (Leaves P) (catchPost lib e) :=
  guarantees_catchPost (fun _ _ _ => leaves_sendJsonResponse _ _) (leaves_emit hP) e

/-- What is done with what the generator made. -/
theorem leaves_answer {P : Event → Prop} (hP : ∀ call, P (.metrics call)) {α : Type}
    (made : Except Exn α) (json : α → Json) {handler : Exn → Handling Unit}
    (hhandler : ∀ e, Guarantees (Leaves P) (handler e)) :
    Guarantees (Leaves P) (tryCatch (do
      let made ← ofExcept made
      recordRequest surr 0
      sendJsonResponse lib (json made) 200) handler) :=
  .tryCatch (.bind (.ofExcept made) fun _ => .bind (leaves_emit (hP _)) fun _ =>
    leaves_sendJsonResponse _ _) hhandler

/-- The calls of `handle_get`. -/
theorem events_handleGet {length : ℤ} (h : lengthParam req = .ok length) :
    ∃ new, (endState ((handleGet lib toDouble surr req).run w)).events =
      w.events ++ .generate (configOfParams req length) :: new := by
  rw [run_handleGet_of_ok h]
  obtain ⟨-, new, hnew, -⟩ := leaves_answer (P := fun _ => True) (fun _ => trivial)
    (surr.generator.generate (configOfParams req length)) (passwordJson toDouble)
    (leaves_catchGet trivial) _
  exact ⟨new, hnew.trans (List.append_assoc _ _ _)⟩

/-- The calls of `handle_post`. -/
theorem events_handlePost {body : Json} (h : lib.parse req.body = .ok body)
    (hmin : 1 ≤ readInt body "count" 1) (hmax : readInt body "count" 1 ≤ maxBatch) :
    ∃ new, (endState ((handlePost lib toDouble maxBatch surr req).run w)).events =
      w.events ++ .generateBatch (configOfBody body) (readInt body "count" 1) :: new := by
  rw [run_handlePost_of_ok h hmin hmax]
  obtain ⟨-, new, hnew, -⟩ := leaves_answer (P := fun _ => True) (fun _ => trivial)
    (surr.generator.generateBatch (configOfBody body) (readInt body "count" 1))
    (passwordsJson toDouble) (leaves_catchPost trivial) _
  exact ⟨new, hnew.trans (List.append_assoc _ _ _)⟩

end IpServer.PasswordHandler
