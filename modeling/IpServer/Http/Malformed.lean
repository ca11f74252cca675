import IpServer.Http.Batch
import IpServer.ParseError
import IpServer.Password.Narrowing

/-!
# Bodies that are no JSON

A body that is no JSON is to be rejected with 400. The text of the `parse_error`
becomes part of the response, which is itself in JSON: the exception that its
serialisation throws, on bytes that are not UTF-8, is thrown inside the catch clause
and escapes the handler.

* `answersJson_failure`: which exceptions can be reported in a response.
* `answered_iff`: when a body is answered, by each of the two routes that read one.
-/

namespace IpServer.IPGeoHTTPServer

open Handling Json

variable (lib : Libraries) (srv : IPGeoHTTPServer) (surr : Surroundings) (req : Request)

/-- There is a response, and its content is in JSON. -/
def AnswersJson (response : Except Exn Response) : Prop :=
  ∃ res, response = .ok res ∧ ∃ j, lib.json.dump j = .ok res.body

/-- There is a response in JSON, and if the body of the request is no JSON its status is 400. -/
def Answered (response : Except Exn Response) : Prop :=
  AnswersJson lib response ∧ ∀ what, lib.json.parse req.body = .error what →
    ∀ res, response = .ok res → res.status = 400

/-- An exception of the standard library with a text in UTF-8. -/
def Shown (e : Exn) : Prop := ∃ what, e.what? = some what ∧ validUtf8 what = true

/-- If the lookups that a body asks for end with an exception, it can be reported. -/
def LookupsShown (body : Json) : Prop :=
  ∀ isMac items handler, arrayAt body (arrayKey isMac) = some items →
    arrayAt body (arrayKey !isMac) = none → srv.handlerFor isMac = some handler →
    (items.length : ℤ) ≤ srv.maxBatchSize →
      ∀ e, (Futures.collected (lookups surr handler 0 (accepted lib isMac items))).2 = some e →
        Shown e

variable {lib srv surr req} {w : World} {limiter : RateLimiter}

/-! ### Responses to exceptions -/

theorem answersJson_errorResponse {error : String} (herror : validUtf8 error = true) (status : ℤ)
    (message : String) :
    AnswersJson lib (errorResponse lib status error message) ↔ validUtf8 message = true := by
  rw [errorResponse]
  constructor
  · rintro ⟨res, hres, -⟩
    obtain ⟨text, htext, -⟩ := map_eq_ok.1 hres
    have hutf8 := (JsonLibrary.dump_eq_ok _).1 ⟨text, htext⟩
    rw [errorJson_eq] at hutf8
    simp only [isUtf8Text, areUtf8Members, Bool.and_eq_true] at hutf8
    exact hutf8.2.1.2
  · intro hmessage
    rw [dump_errorJson herror hmessage]
    exact ⟨_, rfl, _, dump_errorJson herror hmessage⟩

theorem shown_iff {e : Exn} {what : String} (hwhat : e.what? = some what) :
    Shown e ↔ validUtf8 what = true := by
  rw [Shown, hwhat]
  simp only [Option.some.injEq, exists_eq_left']

/-- The response to an exception reports its text, unless that is not UTF-8. -/
theorem answersJson_failure (e : Exn) : AnswersJson lib (failure lib e).1 ↔ Shown e := by
  cases e with
  | json what =>
    rw [failure, answersJson_errorResponse validUtf8_badRequest, validUtf8_append (by decide)]
    exact (shown_iff rfl).symm
  | foreign =>
    refine iff_of_false ?_ ?_
    · rintro ⟨_, h, -⟩
      cases h
    · rintro ⟨_, h, -⟩
      cases h
  | invalidArgument what | std what =>
    have hresponse := @answersJson_errorResponse lib _ validUtf8_internalServerError 500 what
    rw [failure]
    cases herror : errorResponse lib 500 "Internal Server Error" what with
    | ok res | error e =>
      rw [herror] at hresponse
      exact hresponse.trans (shown_iff rfl).symm

/-- A batch whose results are not UTF-8 can be reported too. -/
theorem answersJson_answered (hutf8 : ∀ s, validUtf8 (lib.json.utf8Error s) = true)
    (batch : List LookupResult × Option Exn) :
    AnswersJson lib (answered lib batch).1 ↔ ∀ e, batch.2 = some e → Shown e := by
  obtain ⟨results, thrown⟩ := batch
  rw [answered]
  cases thrown with
  | some e =>
    refine (answersJson_failure e).trans ?_
    exact ⟨fun h e' he => Option.some_inj.1 he ▸ h, fun h => h e rfl⟩
  | none =>
    refine iff_of_true ?_ fun e he => (Option.some_ne_none e he.symm).elim
    dsimp only
    cases hdump : lib.json.dump (.array (results.map (·.data))) with
    | ok body => exact ⟨_, rfl, _, hdump⟩
    | error e =>
      obtain ⟨s, rfl⟩ := JsonLibrary.dump_eq_error _ hdump
      dsimp only
      rw [answersJson_failure]
      exact ⟨_, rfl, hutf8 s⟩

/-! ### The password route -/

theorem answered_of_run {r : EStateM.Result Exn World Unit} {j : Json} (hrun : r = .ok () w)
    (htext : lib.json.dump j = .ok w.res.body)
    (hstatus : ∀ what, lib.json.parse req.body = .error what → w.res.status = 400) :
    Answered lib req (Outcome.ofResult r).response := by
  subst hrun
  refine ⟨⟨w.res, rfl, j, htext⟩, fun what hwhat res hres => ?_⟩
  obtain rfl := Except.ok.inj hres
  exact hstatus what hwhat

theorem not_answered_of_run {r : EStateM.Result Exn World Unit} {e : Exn}
    (hrun : r = .error e w) : ¬Answered lib req (Outcome.ofResult r).response := by
  subst hrun
  rintro ⟨⟨res, hres, -⟩, -⟩
  cases hres

/-- A body that is no JSON is answered if the text of its `parse_error` is UTF-8. -/
theorem answered_passwordPost {r : Randomness} {log2 : ℕ → ℚ} {t : ℕ}
    (hgen : surr.generator = .drawn r log2 t) :
    Answered lib req (serve lib srv surr req .passwordPost limiter).response ↔
      ∀ what, lib.json.parse req.body = .error what → validUtf8 what = true := by
  rw [serve, handle]
  generalize hstart : (⟨corsResponse, limiter, []⟩ : World) = start
  cases hparse : lib.json.parse req.body with
  | error what =>
    have hprefix := @validUtf8_append "Invalid JSON: " (by decide) what
    rw [PasswordHandler.run_handlePost_of_error hparse, PasswordHandler.catchPost]
    generalize "Invalid JSON: " ++ what = message at hprefix ⊢
    -- the message can be sent exactly if the text of the exception can
    by_cases hmessage : validUtf8 message = true
    · refine iff_of_true (answered_of_run (run_sendErrorResponse 400 validUtf8_badRequest hmessage)
        (dump_errorJson validUtf8_badRequest hmessage) fun _ _ => rfl) fun what' h => ?_
      obtain rfl := Except.error.inj h
      exact hprefix.symm.trans hmessage
    · obtain ⟨e, he⟩ := @run_sendErrorResponse_of_not lib.json start _ 400 "Bad Request" hmessage
      refine iff_of_false (not_answered_of_run he) fun h => hmessage ?_
      exact hprefix.trans (h what rfl)
  | ok body =>
    have hstatus (w' : World) (what : String) (h : lib.json.parse req.body = .error what) :
        w'.res.status = 400 := by
      rw [hparse] at h
      cases h
    refine iff_of_true ?_ fun what h => by cases h
    -- acceptable or not, the values of the body have an answer
    by_cases h : PasswordHandler.Acceptable srv.maxBatchSize body
      (PasswordHandler.readInt body "length" 16) (PasswordHandler.readInt body "count" 1)
    · obtain ⟨w', results, hrun, -, htext, -⟩ :=
        @PasswordHandler.run_handlePost_of_acceptable lib.json lib.toDouble srv.maxBatchSize surr
          req start body r log2 t hgen hparse h
      exact answered_of_run hrun htext (hstatus w')
    · obtain ⟨w', hrun, -, j, htext⟩ :=
        @PasswordHandler.run_handlePost_of_not lib.json lib.toDouble srv.maxBatchSize surr
          req start body r log2 t hgen hparse h
      exact answered_of_run hrun htext (hstatus w')

/-! ### The lookup route -/

theorem status_errorResponse {status : ℤ} {error message : String} {res : Response}
    (h : errorResponse lib status error message = .ok res) : res.status = status := by
  obtain ⟨text, -, rfl⟩ := map_eq_ok.1 h
  rfl

/-- A batch is answered unless its lookups end with an exception that cannot be reported. -/
theorem answersJson_lookupBatch (hutf8 : ∀ s, validUtf8 (lib.json.utf8Error s) = true)
    (hres : w.res = corsResponse) (hrequests : w.events.countP Event.isRequest = 0)
    (herrors : w.events.countP Event.isError = 0) (isMac : Bool) (items : List Json) :
    AnswersJson lib
        (tally ((tryCatch (lookupBatch lib srv surr isMac items) (catchPost lib)).run w)).1 ↔
      ∀ handler, srv.handlerFor isMac = some handler → (items.length : ℤ) ≤ srv.maxBatchSize →
        ∀ e, (Futures.collected (lookups surr handler 0 (accepted lib isMac items))).2 = some e →
          Shown e := by
  cases hhandler : srv.handlerFor isMac with
  | none =>
    refine iff_of_true ?_ nofun
    have hmessage := validUtf8_notConfigured isMac
    rw [lookupBatch, hhandler, run_tryCatch]
    dsimp only
    rw [run_sendErrorResponse 500 validUtf8_internalServerError hmessage]
    exact ⟨_, rfl, _, dump_errorJson validUtf8_internalServerError hmessage⟩
  | some handler =>
    rcases lt_or_ge srv.maxBatchSize (items.length : ℤ) with hlong | hlen
    · obtain ⟨text, htext, hrun⟩ :=
        @run_lookupBatch_of_length lib srv surr w handler _ _ hhandler hlong
      rw [hrun]
      refine iff_of_true ⟨_, rfl, _, htext⟩ fun _ _ hlen => absurd hlen (not_le.2 hlong)
    · rw [tally_lookupBatch hhandler hlen hres hrequests herrors, answersJson_answered hutf8]
      exact ⟨fun h handler' hhandler' _ => Option.some_inj.1 hhandler' ▸ h,
        fun h => h handler rfl hlen⟩

/-- A body with one array is answered as the lookups of its items are. -/
theorem answersJson_lookupPost (hutf8 : ∀ s, validUtf8 (lib.json.utf8Error s) = true)
    (hres : w.res = corsResponse) (hrequests : w.events.countP Event.isRequest = 0)
    (herrors : w.events.countP Event.isError = 0) {isMac : Bool} {body : Json} {items : List Json}
    (hparse : lib.json.parse req.body = .ok body)
    (harray : arrayAt body (arrayKey isMac) = some items)
    (hother : arrayAt body (arrayKey !isMac) = none) :
    AnswersJson lib (tally ((lookupPost lib srv surr req).run w)).1 ↔
      LookupsShown lib srv surr body := by
  rw [run_lookupPost hparse harray hother,
    answersJson_lookupBatch hutf8 hres hrequests herrors isMac items]
  constructor
  · intro h isMac' items' handler harray' hother'
    obtain rfl | rfl := Bool.eq_or_eq_not isMac' isMac
    · obtain rfl := Option.some_inj.1 (harray.symm.trans harray')
      exact h handler
    · rw [Bool.not_not, harray] at hother'
      cases hother'
  · intro h handler
    exact h isMac items handler harray hother

/-- A body with no array, or with both, is rejected. -/
theorem answersJson_lookupPost_of_not {body : Json}
    (hparse : lib.json.parse req.body = .ok body)
    (harray : (arrayAt body "ips").isSome = (arrayAt body "macs").isSome) :
    AnswersJson lib (tally ((lookupPost lib srv surr req).run w)).1 ↔
      LookupsShown lib srv surr body := by
  have hsent {message : String} (hmessage : validUtf8 message = true) :
      AnswersJson lib (tally ((tryCatch (sendErrorResponse lib.json 400 "Bad Request" message)
        (catchPost lib)).run w)).1 := by
    rw [run_tryCatch, run_sendErrorResponse 400 validUtf8_badRequest hmessage]
    exact ⟨_, rfl, _, dump_errorJson validUtf8_badRequest hmessage⟩
  refine iff_of_true ?_ fun isMac items handler harray' hother' => ?_
  · rw [lookupPost, hparse, Except.mapError, run_tryCatch_bind_ok (run_ofExcept_ok body)]
    cases hips : arrayAt body "ips" with
    | none =>
      rw [hips, Option.isSome_none, eq_comm, Option.isSome_eq_false_iff, Option.isNone_iff_eq_none]
        at harray
      rw [harray]
      exact hsent (validUtf8_of_ascii (by decide))
    | some ips =>
      rw [hips, Option.isSome_some, eq_comm, Option.isSome_iff_exists] at harray
      obtain ⟨macs, hmacs⟩ := harray
      rw [hmacs]
      exact hsent (validUtf8_of_ascii (by decide))
  · cases isMac with
    | true =>
      rw [arrayKey, if_pos rfl] at harray'
      rw [arrayKey, Bool.not_true, if_neg Bool.false_ne_true] at hother'
      rw [harray', hother'] at harray
      cases harray
    | false =>
      rw [arrayKey, if_neg Bool.false_ne_true] at harray'
      rw [arrayKey, Bool.not_false, if_pos rfl] at hother'
      rw [harray', hother'] at harray
      cases harray

theorem shown_json {what : String} : Shown (.json what) ↔ validUtf8 what = true :=
  ⟨fun ⟨_, hwhat, h⟩ => Option.some_inj.1 hwhat ▸ h, fun h => ⟨what, rfl, h⟩⟩

/-- The answer to a body that is no JSON. -/
theorem answered_failure {what : String} (hparse : lib.json.parse req.body = .error what) :
    Answered lib req (failure lib (.json what)).1 ↔
      ∀ what, lib.json.parse req.body = .error what → validUtf8 what = true := by
  rw [Answered, answersJson_failure, shown_json]
  constructor
  · rintro ⟨hwhat, -⟩ what' hparse'
    obtain rfl := Except.error.inj (hparse.symm.trans hparse')
    exact hwhat
  · intro h
    refine ⟨h what hparse, fun _ _ res hres => ?_⟩
    rw [failure] at hres
    dsimp only at hres
    exact status_errorResponse hres

theorem answered_of_parse {body : Json} (hparse : lib.json.parse req.body = .ok body)
    {response : Except Exn Response} : Answered lib req response ↔ AnswersJson lib response := by
  refine and_iff_left fun what h => ?_
  rw [hparse] at h
  cases h

/-- A body is answered if the text of its `parse_error`, or of the exception with which its
    lookups end, can be reported. -/
theorem answered_lookupPost (hutf8 : ∀ s, validUtf8 (lib.json.utf8Error s) = true)
    {clientIp : String}
    (hadmitted : (prepareRequest lib srv surr req).run ⟨corsResponse, limiter, []⟩ =
      .ok (some clientIp) w) :
    Answered lib req (serve lib srv surr req .lookupPost limiter).response ↔
      (∀ what, lib.json.parse req.body = .error what → validUtf8 what = true) ∧
        ∀ body, lib.json.parse req.body = .ok body → LookupsShown lib srv surr body := by
  have hserve : (serve lib srv surr req .lookupPost limiter).response =
      (tally ((lookupPost lib srv surr req).run w)).1 := by
    simp only [serve, handle, handleLookupPost, withClient, EStateM.run_bind, hadmitted, tally]
  obtain ⟨hres, -, hrequests, herrors⟩ := prepared_of_admitted hadmitted
  rw [hserve]
  cases hparse : lib.json.parse req.body with
  | error what =>
    have hrun : (lookupPost lib srv surr req).run w = (catchPost lib (.json what)).run w := by
      rw [lookupPost, hparse, Except.mapError, run_tryCatch_bind_error (run_ofExcept_error _)]
    rw [hrun, tally_catchPost _ hres, answered_failure hparse, hparse]
    exact (and_iff_left fun body h => by cases h).symm
  | ok body =>
    refine (answered_of_parse hparse).trans ?_
    refine Iff.trans ?_ (and_iff_right fun what h => by cases h).symm
    simp only [Except.ok.injEq, forall_eq']
    cases hips : arrayAt body "ips" with
    | none =>
      cases hmacs : arrayAt body "macs" with
      | none => exact answersJson_lookupPost_of_not hparse (by rw [hips, hmacs])
      | some macs =>
        exact @answersJson_lookupPost lib srv surr req w hutf8 hres hrequests herrors true body macs
          hparse hmacs hips
    | some ips =>
      cases hmacs : arrayAt body "macs" with
      | none =>
        exact @answersJson_lookupPost lib srv surr req w hutf8 hres hrequests herrors false body ips
          hparse hips hmacs
      | some macs => exact answersJson_lookupPost_of_not hparse (by rw [hips, hmacs]; rfl)

/-- When a body is answered. By the password route: if it is JSON, or the bytes that the parser
    read last are UTF-8. By the lookup route: if moreover the exception with which its lookups end,
    if they do, can be reported. -/
theorem answered_iff {lastRead : String → String} (hquotes : QuotesLastRead lib.json lastRead)
    (hutf8 : ∀ s, validUtf8 (lib.json.utf8Error s) = true) {r : Randomness} {log2 : ℕ → ℚ} {t : ℕ}
    (hgen : surr.generator = .drawn r log2 t) (limiter : RateLimiter) :
    let quotable := (∃ body, lib.json.parse req.body = .ok body) ∨
      validUtf8 (lastRead req.body) = true
    (Answered lib req (serve lib srv surr req .passwordPost limiter).response ↔ quotable) ∧
    ∀ (clientIp : String) (w : World),
      (prepareRequest lib srv surr req).run ⟨corsResponse, limiter, []⟩ =
        .ok (some clientIp) w →
      (Answered lib req (serve lib srv surr req .lookupPost limiter).response ↔
        quotable ∧
          ∀ body, lib.json.parse req.body = .ok body → LookupsShown lib srv surr body) := by
  intro quotable
  have hquotable : quotable ↔
      ∀ what, lib.json.parse req.body = .error what → validUtf8 what = true := by
    constructor
    · rintro (⟨body, hbody⟩ | hlast) what hwhat
      · rw [hbody] at hwhat
        cases hwhat
      · exact (hquotes.validUtf8_iff hwhat).2 hlast
    · intro h
      cases hparse : lib.json.parse req.body with
      | error what => exact .inr ((hquotes.validUtf8_iff hparse).1 (h what hparse))
      | ok body => exact .inl ⟨body, hparse⟩
  refine ⟨(answered_passwordPost hgen).trans hquotable.symm, fun clientIp w hadmitted => ?_⟩
  rw [answered_lookupPost hutf8 hadmitted, hquotable]

/-- The bytes of a text up to the first one, which starts no JSON. -/
def firstByte (text : String) : String := String.ofList (text.toList.take 1)

/-- Libraries whose parser stops at the first byte. -/
def stoppingLibraries : Libraries :=
  { Libraries.sample with
    json := { JsonLibrary.sample with
      parse := fun text => .error ("[json.exception.parse_error.101] parse error at line 1, " ++
        "column 1: syntax error while parsing value - invalid literal; last read: '" ++
        tokenString (firstByte text) ++ "'") } }

/-- A batch request with a body. -/
def batchRequest (body : String) : Request := ⟨fun _ => "", fun _ => "", body, "10.0.0.1"⟩

theorem quotesLastRead_stopping : QuotesLastRead stoppingLibraries.json firstByte where
  part_of text := by
    rw [firstByte, String.toList_ofList]
    exact (List.take_prefix 1 _).isInfix
  what_eq text what h := by
    refine ⟨_, _, ?_, ?_, (Except.error.inj h).symm⟩
    · decide +kernel
    · decide

theorem utf8Error_stopping (s : String) :
    validUtf8 (stoppingLibraries.json.utf8Error s) = true :=
  @validUtf8_of_ascii "[json.exception.type_error.316] invalid UTF-8 byte" (by decide)

theorem answered_oneLetter :
    Answered stoppingLibraries (batchRequest "x")
      (serve stoppingLibraries ignorant .sample (batchRequest "x") .passwordPost
        (newLimiter {})).response ∧
    Answered stoppingLibraries (batchRequest "x")
      (serve stoppingLibraries ignorant .sample (batchRequest "x") .lookupPost
        (newLimiter {})).response := by
  obtain ⟨hpassword, hlookup⟩ := @answered_iff stoppingLibraries ignorant .sample
    (batchRequest "x") firstByte quotesLastRead_stopping utf8Error_stopping
    Password.firstDraws (fun _ => 6) 0 rfl (newLimiter {})
  exact ⟨hpassword.2 (.inr (by decide)), (hlookup "10.0.0.1" _ rfl).2 ⟨.inr (by decide), nofun⟩⟩

/-- A letter that is not in ASCII takes two bytes: the parser stops between them, and quotes half
    of it. -/
theorem accent_not_answered :
    (∃ what, stoppingLibraries.json.parse (batchRequest "Ã©").body = .error what) ∧
    ¬Answered stoppingLibraries (batchRequest "Ã©")
      (serve stoppingLibraries ignorant .sample (batchRequest "Ã©") .passwordPost
        (newLimiter {})).response ∧
    ¬Answered stoppingLibraries (batchRequest "Ã©")
      (serve stoppingLibraries ignorant .sample (batchRequest "Ã©") .lookupPost
        (newLimiter {})).response := by
  obtain ⟨what, hwhat⟩ : ∃ what,
      stoppingLibraries.json.parse (batchRequest "Ã©").body = .error what := ⟨_, rfl⟩
  have hnot : ¬∀ what, stoppingLibraries.json.parse (batchRequest "Ã©").body = .error what →
      validUtf8 what = true := fun h =>
    absurd ((quotesLastRead_stopping.validUtf8_iff hwhat).1 (h what hwhat)) (by decide)
  refine ⟨⟨what, hwhat⟩, fun h => hnot ?_, fun h => hnot ?_⟩
  · exact (@answered_passwordPost stoppingLibraries ignorant .sample (batchRequest "Ã©")
      (newLimiter {}) Password.firstDraws (fun _ => 6) 0 rfl).1 h
  · exact ((@answered_lookupPost stoppingLibraries ignorant .sample (batchRequest "Ã©") _
      (newLimiter {}) utf8Error_stopping "10.0.0.1" rfl).1 h).1

end IpServer.IPGeoHTTPServer
