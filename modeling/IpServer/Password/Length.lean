import IpServer.Http.Server
import IpServer.Password.Narrowing

/-!
# The length of a password request

`GET /password/generate` takes the length as a text, which `std::stoi` reads: it skips
white space, reads as far as there are digits, and does not look at what follows. What it
throws on a number that does not fit an `int` is not what the handler expects of a bad
parameter.

* `run_handleGet_of_valid`, `run_handleGet_of_not`, `run_handleGet_of_range`: what comes of a
  request is decided by the number that is read.
* `answersLength_iff`: when a request is answered as its length asks for.
-/

namespace IpServer

/-- Only the errors that are recorded are counted. -/
theorem Metrics.totalErrors_after {m : Metrics} {events : List Event}
    (h : ∀ event ∈ events, event ≠ .metrics .recordError) :
    (m.after events).totalErrors = m.totalErrors := by
  have hnone : ((events.filterMap Event.metricsCall?).flatMap MetricsCall.ops).countP
      MetricsOp.isError = 0 := by
    refine List.countP_eq_zero.2 fun op hop => ?_
    obtain ⟨mcall, hmcall, hop⟩ := List.mem_flatMap.1 hop
    obtain ⟨event, hevent, heq⟩ := List.mem_filterMap.1 hmcall
    cases event with
    | metrics mcall' =>
      obtain rfl := Option.some_inj.1 heq
      cases mcall' with
      | recordError => exact absurd rfl (h _ hevent)
      | recordRequest latencyMs now =>
        rcases List.mem_cons.1 hop with rfl | hop
        · exact Bool.false_ne_true
        · obtain rfl := List.mem_singleton.1 hop
          exact Bool.false_ne_true
    | limiter | lookup | generate | generateBatch => cases heq
  rw [Metrics.after, totalErrors_run, hnone]
  exact UInt64.add_zero _

namespace PasswordHandler

open Handling Password IPGeoHTTPServer

variable (lib : Libraries) (req : Request)

/-- The flags enable a class. -/
def AnyClass : Prop :=
  (parseBoolParam req "uppercase" true || parseBoolParam req "lowercase" true ||
    parseBoolParam req "digits" true || parseBoolParam req "symbols" true) = true

/-- The length is the numeral of a possible one, and there are characters for it. -/
def AsksFor (n : ℤ) : Prop :=
  Denotes (req.param "length") n ∧ (8 ≤ n ∧ n ≤ 128) ∧ AnyClass req

/-- A request is answered with a password of the length it asks for, if it asks for one, and is
    rejected otherwise, without an error being counted. -/
def AnswersLength (metrics : Metrics) (o : Outcome) : Prop :=
  ∃ res, o.response = .ok res ∧
    (res.status = 200 ↔ ∃ n, AsksFor req n) ∧
    (res.status = 200 → ∃ result, lib.json.dump (passwordJson lib.toDouble result) = .ok res.body ∧
      AsksFor req result.password.length) ∧
    (res.status ≠ 200 →
      res.status = 400 ∧ (metrics.after o.events).totalErrors = metrics.totalErrors)

/-- The number that the length starts with, if there is one, fits an `int`; and if it is a
    possible length, the whole text is its numeral. -/
def ReadWhole : Prop :=
  ∀ n, leadingNumber (req.param "length") = some n →
    (-2 ^ 31 ≤ n ∧ n < 2 ^ 31) ∧
      (8 ≤ n ∧ n ≤ 128 → AnyClass req → Denotes (req.param "length") n)

variable {lib req} {srv : IPGeoHTTPServer} {surr : Surroundings} {r : Randomness} {log2 : ℕ → ℚ}
  {t : ℕ} {w : World} {n : ℤ}

/-- A length that is given is read by `std::stoi`. -/
theorem lengthParam_eq (hgiven : req.param "length" ≠ "") : lengthParam req =
    match leadingNumber (req.param "length") with
    | none => .error (.invalidArgument "stoi")
    | some n => if -2 ^ 31 ≤ n ∧ n < 2 ^ 31 then .ok n else .error (.std "stoi") := by
  rw [lengthParam, if_neg hgiven]
  exact stoi_eq _

/-- With a number that is a possible length, there is a password. -/
theorem run_handleGet_of_valid (hgen : surr.generator = .drawn r log2 t)
    (hread : lengthParam req = .ok n) (hn : 8 ≤ n ∧ n ≤ 128) (hclass : AnyClass req) :
    ∃ result w', (handleGet lib.json lib.toDouble surr req).run w = .ok () w' ∧
      w'.res.status = 200 ∧
      lib.json.dump (passwordJson lib.toDouble result) = .ok w'.res.body ∧
      (result.password.length : ℤ) = n := by
  have hvalid : validateConfig (configOfParams req n) = none :=
    validateConfig_eq_none_iff.2 ⟨hn.1, hn.2, hclass⟩
  obtain ⟨result, t', hmade, hlength, hpassword, hstrength⟩ := generate_text r log2 hvalid t
  obtain ⟨text, htext⟩ : ∃ text, lib.json.dump (passwordJson lib.toDouble result) = .ok text :=
    (JsonLibrary.dump_eq_ok _).2 (isUtf8Text_passwordJson hpassword hstrength)
  have hmade' : surr.generator.generate (configOfParams req n) = .ok result := by
    rw [hgen]
    exact congrArg Prod.fst hmade
  rw [run_handleGet_of_ok hread, hmade', run_tryCatch_bind_ok (run_ofExcept_ok result),
    run_tryCatch_bind_ok (run_recordRequest surr 0), run_tryCatch, run_sendJsonResponse, htext]
  exact ⟨result, _, rfl, rfl, htext, hlength⟩

/-- An exception for a bad parameter is a bad request. -/
theorem run_catchGet_invalidArgument {what : String} (hwhat : Json.validUtf8 what = true) :
    ∃ w', (catchGet lib.json (.invalidArgument what)).run w = .ok () w' ∧ w'.res.status = 400 ∧
      w'.events = w.events := by
  have hmessage : Json.validUtf8 ("Invalid parameter value: " ++ what) = true := by
    rw [Json.validUtf8_append (by decide), hwhat]
  rw [catchGet, run_sendErrorResponse 400 validUtf8_badRequest hmessage]
  exact ⟨_, rfl, rfl, rfl⟩

/-- With any other number, or none, the request is rejected. -/
theorem run_handleGet_of_not (hgen : surr.generator = .drawn r log2 t)
    (hread : lengthParam req = .error (.invalidArgument "stoi") ∨
      ∃ n, lengthParam req = .ok n ∧ ¬((8 ≤ n ∧ n ≤ 128) ∧ AnyClass req)) :
    ∃ w', (handleGet lib.json lib.toDouble surr req).run w = .ok () w' ∧ w'.res.status = 400 ∧
      ∃ new, w'.events = w.events ++ new ∧ ∀ event ∈ new, event ≠ .metrics .recordError := by
  rcases hread with hread | ⟨n, hread, hn⟩
  · obtain ⟨w', hrun, hstatus, hevents⟩ :=
      @run_catchGet_invalidArgument lib w "stoi" (Json.validUtf8_of_ascii (by decide))
    rw [run_handleGet_of_error hread]
    exact ⟨w', hrun, hstatus, [], by rw [hevents, List.append_nil], List.forall_mem_nil _⟩
  · have hinvalid : validateConfig (configOfParams req n) ≠ none := fun hvalid => by
      obtain ⟨hshort, hlong, hclass⟩ := validateConfig_eq_none_iff.1 hvalid
      exact hn ⟨⟨hshort, hlong⟩, hclass⟩
    obtain ⟨message, hmessage⟩ := Option.ne_none_iff_exists'.1 hinvalid
    have hmade : surr.generator.generate (configOfParams req n) =
        .error (.invalidArgument message) := by
      rw [hgen, Generator.drawn]
      dsimp only
      rw [generate, hmessage]
    rw [run_handleGet_of_ok hread, hmade, run_tryCatch_bind_error (run_ofExcept_error _)]
    obtain ⟨w', hrun, hstatus, hevents⟩ := @run_catchGet_invalidArgument lib
      { w with events := w.events ++ [.generate (configOfParams req n)] } message
      (validUtf8_of_validateConfig hmessage)
    refine ⟨w', hrun, hstatus, [.generate (configOfParams req n)], hevents, fun event hevent => ?_⟩
    obtain rfl := List.mem_singleton.1 hevent
    exact Event.noConfusion

/-- A number that does not fit an `int` is an internal error. -/
theorem run_handleGet_of_range (hread : lengthParam req = .error (.std "stoi")) :
    ∃ w', (handleGet lib.json lib.toDouble surr req).run w = .ok () w' ∧ w'.res.status = 500 := by
  have hwhat : Json.validUtf8 "stoi" = true := Json.validUtf8_of_ascii (by decide)
  rw [run_handleGet_of_error hread, catchGet, internalError, EStateM.run_bind,
    run_sendErrorResponse 500 validUtf8_internalServerError hwhat]
  exact ⟨_, rfl, rfl⟩

/-- A request of a given length is answered as its length asks for if and only if the number that
    its length starts with, if there is one, fits an `int` and is the whole length, or is not
    a possible one. -/
theorem answersLength_iff (lib : Libraries) (srv : IPGeoHTTPServer)
    (hgen : surr.generator = .drawn r log2 t) (hgiven : req.param "length" ≠ "")
    (limiter : RateLimiter) (metrics : Metrics) :
    AnswersLength lib req metrics (serve lib srv surr req .passwordGet limiter) ↔
      ReadWhole req := by
  have hread := lengthParam_eq hgiven
  rw [serve, handle]
  by_cases hvalid : ∃ n, leadingNumber (req.param "length") = some n ∧ (8 ≤ n ∧ n ≤ 128) ∧
      AnyClass req
  · -- there is a password, of the length that is read
    obtain ⟨n, hlead, hn, hclass⟩ := hvalid
    rw [hlead] at hread
    dsimp only at hread
    rw [if_pos (by omega)] at hread
    obtain ⟨result, w', hrun, hstatus, htext, hlength⟩ :=
      run_handleGet_of_valid hgen hread hn hclass
    rw [hrun]
    constructor
    · rintro ⟨res, hres, hok, -⟩ n' hlead'
      obtain rfl := Option.some_inj.1 (hlead.symm.trans hlead')
      refine ⟨by omega, fun _ _ => ?_⟩
      obtain rfl := Except.ok.inj hres
      obtain ⟨m, hm, -⟩ := hok.1 hstatus
      rwa [Option.some_inj.1 (hlead.symm.trans (leadingNumber_of_denotes hm))]
    · intro hwhole
      -- the number that is read is the one that the whole text denotes
      have hdenotes : Denotes (req.param "length") n := (hwhole n hlead).2 hn hclass
      refine ⟨w'.res, rfl, iff_of_true hstatus ⟨n, hdenotes, hn, hclass⟩, fun _ => ?_,
        fun hne => absurd hstatus hne⟩
      refine ⟨result, htext, ?_⟩
      rw [hlength]
      exact ⟨hdenotes, hn, hclass⟩
  · have hasks : ¬∃ n, AsksFor req n := fun ⟨n, hdenotes, hn, hclass⟩ =>
      hvalid ⟨n, leadingNumber_of_denotes hdenotes, hn, hclass⟩
    by_cases hrange : ∀ n, leadingNumber (req.param "length") = some n → -2 ^ 31 ≤ n ∧ n < 2 ^ 31
    · -- the request is rejected
      have hread' : lengthParam req = .error (.invalidArgument "stoi") ∨
          ∃ n, lengthParam req = .ok n ∧ ¬((8 ≤ n ∧ n ≤ 128) ∧ AnyClass req) := by
        cases hlead : leadingNumber (req.param "length") with
        | none => exact .inl (by rw [hread, hlead])
        | some n =>
          refine .inr ⟨n, ?_, fun hn => hvalid ⟨n, hlead, hn⟩⟩
          rw [hread, hlead]
          exact if_pos (hrange n hlead)
      obtain ⟨w', hrun, hstatus, new, hnew, hnone⟩ := run_handleGet_of_not hgen hread'
      rw [hrun]
      refine iff_of_true ⟨w'.res, rfl, iff_of_false (by rw [hstatus]; decide) hasks,
        fun h => absurd (hstatus.symm.trans h) (by decide), fun _ => ⟨hstatus, ?_⟩⟩
        fun n hlead => ⟨hrange n hlead, fun hn hclass => absurd ⟨n, hlead, hn, hclass⟩ hvalid⟩
      refine Metrics.totalErrors_after ?_
      change ∀ event ∈ w'.events, _
      rw [hnew]
      exact hnone
    · -- there is an internal error
      have hwhole : ¬ReadWhole req := fun h => hrange fun n hlead => (h n hlead).1
      obtain ⟨n, hn⟩ := not_forall.1 hrange
      obtain ⟨hlead, hn⟩ := Classical.not_imp.1 hn
      have herror : lengthParam req = .error (.std "stoi") := by
        rw [hread, hlead]
        exact if_neg hn
      obtain ⟨w', hrun, hstatus⟩ := run_handleGet_of_range herror
      rw [hrun]
      refine iff_of_false ?_ hwhole
      rintro ⟨res, hres, -, -, hrejected⟩
      obtain rfl := Except.ok.inj hres
      have hbad : w'.res.status = 400 := (hrejected (by rw [hstatus]; decide)).1
      exact absurd (hstatus.symm.trans hbad) (by decide)

/-- A request for a password of some length. -/
def lengthRequest (length : String) : Request where
  header _ := ""
  param key := if key = "length" then length else ""
  body := ""
  remoteAddr := "10.0.0.1"

theorem answersLength_plus24 :
    AnswersLength .sample (lengthRequest "+24") (.new 0)
      (serve .sample (.new Libraries.sample.sha256 {} none none none) .sample
        (lengthRequest "+24") .passwordGet (.new 1 60 1)) := by
  refine (answersLength_iff .sample _ rfl (by decide) (.new 1 60 1) (.new 0)).2 fun n hlead => ?_
  have hdenotes : Denotes "+24" 24 :=
    ⟨['2', '4'], List.cons_ne_nil _ _, List.all_eq_true.1 rfl, .inl ⟨.inr rfl, rfl⟩⟩
  obtain rfl : 24 = n := Option.some_inj.1 ((leadingNumber_of_denotes hdenotes).symm.trans hlead)
  exact ⟨by decide, fun _ _ => hdenotes⟩

/-- A number with ten digits is answered as if the server had failed, and counted as an error. -/
theorem not_answersLength_tenDigits :
    ¬AnswersLength .sample (lengthRequest "9999999999") (.new 0)
      (serve .sample (.new Libraries.sample.sha256 {} none none none) .sample
        (lengthRequest "9999999999") .passwordGet (.new 1 60 1)) := by
  rintro ⟨res, hres, -, -, hrejected⟩
  have hread : lengthParam (lengthRequest "9999999999") = .error (.std "stoi") := by
    decide +kernel
  rw [serve, handle] at hres
  obtain ⟨w', hrun, hstatus⟩ := @run_handleGet_of_range .sample _ .sample
    ⟨corsResponse, .new 1 60 1, []⟩ hread
  rw [hrun] at hres
  obtain rfl := Except.ok.inj hres
  have hbad : w'.res.status = 400 := (hrejected (by rw [hstatus]; decide)).1
  exact absurd (hstatus.symm.trans hbad) (by decide)

end PasswordHandler

end IpServer
