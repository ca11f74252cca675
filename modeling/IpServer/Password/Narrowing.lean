import IpServer.Password.Coverage
import IpServer.Password.Handler

/-!
# The integers of a batch request

A request for a batch of passwords gives their length and their number as JSON
integers, of up to 64 bits. `handle_post` converts both to `int` before it checks
them, so that what is checked, and then done, is about the values modulo `2 ^ 32`.

* `generateBatch_ok`: a batch has as many passwords as asked for, each as long as
  asked for, all in ASCII;
* `run_handlePost_of_acceptable`, `run_handlePost_of_not`: what comes of a request is
  decided by the converted values;
* `honoured_iff`: when that is what the request asked for.
-/

namespace IpServer

namespace Password

variable {r : Randomness} {log2 : ℕ → ℚ} {config : PasswordConfig}

theorem validateConfig_eq_none_iff : validateConfig config = none ↔
    8 ≤ config.length ∧ config.length ≤ 128 ∧
      (config.uppercase || config.lowercase || config.digits || config.symbols) = true := by
  rw [validateConfig]
  split
  · next hlt => exact iff_of_false (Option.some_ne_none _) fun h => absurd h.1 (by omega)
  · split
    · next hgt => exact iff_of_false (Option.some_ne_none _) fun h => absurd h.2.1 (by omega)
    · next hlt hgt =>
      rw [← Bool.not_or, ← Bool.not_or, ← Bool.not_or]
      split
      · next hnone =>
        rw [Bool.not_eq_true'] at hnone
        exact iff_of_false (Option.some_ne_none _) fun h =>
          Bool.false_ne_true (hnone.symm.trans h.2.2)
      · next hsome =>
        rw [Bool.not_eq_true', Bool.not_eq_false] at hsome
        exact iff_of_true rfl ⟨by omega, by omega, hsome⟩

/-- The characters of the classes are in ASCII. -/
theorem CharClass.toNat_lt {cls : CharClass} {c : Char} (h : c ∈ cls.chars config) :
    c.toNat < 0x80 := by
  have hall : (cls.alphabet.1.toList.all fun c => decide (c.toNat < 0x80)) = true := by
    cases cls <;> decide +kernel
  exact of_decide_eq_true (List.all_eq_true.1 hall c (List.mem_of_mem_filter h))

/-- What is made with an accepted configuration: a text as long as asked for. -/
theorem generate_text (r : Randomness) (log2 : ℕ → ℚ) (h : validateConfig config = none) (t : ℕ) :
    ∃ result t', generate r log2 config t = (.ok result, t') ∧
      (result.password.length : ℤ) = config.length ∧
      Json.validUtf8 result.password = true ∧ Json.validUtf8 result.strength = true := by
  obtain ⟨result, t', hgen, hstrength, hperm⟩ := generate_ok r log2 h t
  refine ⟨result, t', hgen, ?_, ?_, ?_⟩
  · have hlength := hperm.length_eq
    rw [length_overwrite, fill, List.length_map, List.length_range, String.length_toList] at hlength
    have hmin := length_ge h
    omega
  · refine Json.validUtf8_of_ascii (List.all_eq_true.2 fun c hc => decide_eq_true ?_)
    obtain ⟨cls, -, hcls⟩ := exists_class_of_mem h (hperm.mem_iff.1 hc)
    exact CharClass.toNat_lt hcls
  · rw [hstrength, getStrengthRating]
    split
    · exact Json.validUtf8_of_ascii (by decide)
    split
    · exact Json.validUtf8_of_ascii (by decide)
    split
    · exact Json.validUtf8_of_ascii (by decide)
    split
    · exact Json.validUtf8_of_ascii (by decide)
    · exact Json.validUtf8_of_ascii (by decide)

/-- What holds of every password that is made holds of all those of a batch. -/
theorem generateLoop_ok {P : PasswordResult → Prop}
    (h : ∀ t, ∃ result t', generate r log2 config t = (.ok result, t') ∧ P result) (n t : ℕ) :
    ∃ results t', generateLoop r log2 config n t = (.ok results, t') ∧ results.length = n ∧
      ∀ result ∈ results, P result := by
  induction n generalizing t with
  | zero => exact ⟨[], t, rfl, rfl, List.forall_mem_nil _⟩
  | succ n ih =>
    obtain ⟨result, t₁, hgen, hresult⟩ := h t
    obtain ⟨results, t₂, hrest, hlength, hresults⟩ := ih t₁
    refine ⟨result :: results, t₂, ?_, by rw [List.length_cons, hlength],
      List.forall_mem_cons.2 ⟨hresult, hresults⟩⟩
    simp only [generateLoop, hgen, hrest]

/-- A batch has as many passwords as asked for, each as long as asked for. -/
theorem generateBatch_ok (r : Randomness) (log2 : ℕ → ℚ) (h : validateConfig config = none)
    {count : ℤ} (hcount : 1 ≤ count) (t : ℕ) :
    ∃ results, (generateBatch r log2 config count t).1 = .ok results ∧
      (results.length : ℤ) = count ∧ ∀ result ∈ results,
        (result.password.length : ℤ) = config.length ∧
          Json.validUtf8 result.password = true ∧ Json.validUtf8 result.strength = true := by
  obtain ⟨results, t', hloop, hlength, hresults⟩ :=
    generateLoop_ok (generate_text r log2 h) count.toNat t
  refine ⟨results, ?_, by omega, hresults⟩
  rw [generateBatch, if_neg (by omega), hloop]

theorem validUtf8_of_validateConfig {message : String} (h : validateConfig config = some message) :
    Json.validUtf8 message = true := by
  rw [validateConfig] at h
  split at h
  · exact Option.some_inj.1 h ▸ Json.validUtf8_of_ascii (by decide)
  split at h
  · exact Option.some_inj.1 h ▸ Json.validUtf8_of_ascii (by decide)
  split at h
  · exact Option.some_inj.1 h ▸ Json.validUtf8_of_ascii (by decide)
  · cases h

/-- A configuration that is rejected makes no batch. -/
theorem generateBatch_of_invalid (r : Randomness) (log2 : ℕ → ℚ)
    (h : validateConfig config ≠ none) {count : ℤ} (hcount : 1 ≤ count) (t : ℕ) :
    ∃ message, (generateBatch r log2 config count t).1 = .error (.invalidArgument message) ∧
      Json.validUtf8 message = true := by
  obtain ⟨message, hmessage⟩ := Option.ne_none_iff_exists'.1 h
  obtain ⟨n, hn⟩ : ∃ n, count.toNat = n + 1 := ⟨count.toNat - 1, by omega⟩
  refine ⟨message, ?_, validUtf8_of_validateConfig hmessage⟩
  rw [generateBatch, if_neg (by omega), hn, generateLoop, generate, hmessage]

end Password

namespace PasswordHandler

open Handling Password

variable (lib : JsonLibrary) (toDouble : ℚ → UInt64) (maxBatch : ℤ)

/-- The integer that a body has under a key, or else the default. -/
def intOf (body : Json) (key : String) (default : ℤ) : ℤ :=
  match body.get? key with
  | some (.integer n) => n.toInt
  | some (.unsigned n) => n.toNat
  | _ => default

/-- A batch of so many passwords of such a length can be made, from the classes of the body. -/
def Acceptable (body : Json) (length count : ℤ) : Prop :=
  (8 ≤ length ∧ length ≤ 128) ∧ (1 ≤ count ∧ count ≤ maxBatch) ∧
    (readBool body "uppercase" true || readBool body "lowercase" true ||
      readBool body "digits" true || readBool body "symbols" true) = true

/-- A request is answered with the passwords that its body asks for, if they can be made, and
    rejected otherwise. -/
def Honoured (body : Json) (r : EStateM.Result Exn World Unit) : Prop :=
  ∃ w, r = .ok () w ∧
    (w.res.status = 200 ↔
      Acceptable maxBatch body (intOf body "length" 16) (intOf body "count" 1)) ∧
    (w.res.status = 200 → ∃ results, lib.dump (passwordsJson toDouble results) = .ok w.res.body ∧
      (results.length : ℤ) = intOf body "count" 1 ∧
      ∀ result ∈ results, (result.password.length : ℤ) = intOf body "length" 16) ∧
    (w.res.status ≠ 200 → w.res.status = 400)

variable {lib toDouble maxBatch} {surr : Surroundings} {req : Request} {w : World} {body : Json}
  {r : Randomness} {log2 : ℕ → ℚ} {t : ℕ}

/-- What is read is the integer, converted to `int`. -/
theorem readInt_eq (key : String) {default : ℤ} (h : toInt32 default = default) :
    readInt body key default = toInt32 (intOf body key default) := by
  rw [readInt, intOf]
  cases body.get? key with
  | none => exact h.symm
  | some value =>
    cases value with
    | integer n => rfl
    | unsigned n => rfl
    | null | boolean | float | string | array | object => exact h.symm

theorem isUtf8Text_passwordJson {result : PasswordResult}
    (hpassword : Json.validUtf8 result.password = true)
    (hstrength : Json.validUtf8 result.strength = true) :
    (passwordJson toDouble result).isUtf8Text = true := by
  rw [passwordJson]
  refine Json.isUtf8Text_set (Json.isUtf8Text_set (Json.isUtf8Text_set
    (Json.isUtf8Text_set rfl ?_ hpassword) ?_ rfl) ?_ rfl) ?_ hstrength
  all_goals exact Json.validUtf8_of_ascii (by decide)

/-- Passwords in UTF-8 can be serialised. -/
theorem dump_passwordsJson {results : List PasswordResult} (h : ∀ result ∈ results,
      Json.validUtf8 result.password = true ∧ Json.validUtf8 result.strength = true) :
    ∃ text, lib.dump (passwordsJson toDouble results) = .ok text := by
  have hitems : Json.areUtf8Texts (results.map (passwordJson toDouble)) = true := by
    induction results with
    | nil => rfl
    | cons result results ih =>
      obtain ⟨hresult, hresults⟩ := List.forall_mem_cons.1 h
      rw [List.map_cons, Json.areUtf8Texts, Bool.and_eq_true]
      exact ⟨isUtf8Text_passwordJson hresult.1 hresult.2, ih hresults⟩
  rw [passwordsJson, JsonLibrary.dump_eq_ok]
  refine Json.isUtf8Text_set (Json.isUtf8Text_set rfl ?_ rfl) ?_ hitems
  all_goals exact Json.validUtf8_of_ascii (by decide)

/-- If the converted values are acceptable, they decide what is made. -/
theorem run_handlePost_of_acceptable (hgen : surr.generator = .drawn r log2 t)
    (hparse : lib.parse req.body = .ok body)
    (h : Acceptable maxBatch body (readInt body "length" 16) (readInt body "count" 1)) :
    ∃ w' results, (handlePost lib toDouble maxBatch surr req).run w = .ok () w' ∧
      w'.res.status = 200 ∧ lib.dump (passwordsJson toDouble results) = .ok w'.res.body ∧
      (results.length : ℤ) = readInt body "count" 1 ∧
      ∀ result ∈ results, (result.password.length : ℤ) = readInt body "length" 16 := by
  obtain ⟨⟨hshort, hlong⟩, ⟨hfew, hmany⟩, hclass⟩ := h
  have hvalid : validateConfig (configOfBody body) = none :=
    validateConfig_eq_none_iff.2 ⟨hshort, hlong, hclass⟩
  obtain ⟨results, hmade, hcount, hresults⟩ := generateBatch_ok r log2 hvalid hfew t
  obtain ⟨text, htext⟩ := @dump_passwordsJson lib toDouble results fun result hresult =>
    (hresults result hresult).2
  have hmade' : surr.generator.generateBatch (configOfBody body) (readInt body "count" 1) =
      .ok results := by
    rw [hgen]
    exact hmade
  rw [run_handlePost_of_ok hparse hfew hmany, hmade',
    run_tryCatch_bind_ok (run_ofExcept_ok results),
    run_tryCatch_bind_ok (run_recordRequest surr 0), run_tryCatch, run_sendJsonResponse, htext]
  exact ⟨_, results, rfl, rfl, htext, hcount, fun result hresult => (hresults result hresult).1⟩

/-- If the converted values are not acceptable, the request is rejected. -/
theorem run_handlePost_of_not (hgen : surr.generator = .drawn r log2 t)
    (hparse : lib.parse req.body = .ok body)
    (h : ¬Acceptable maxBatch body (readInt body "length" 16) (readInt body "count" 1)) :
    ∃ w', (handlePost lib toDouble maxBatch surr req).run w = .ok () w' ∧ w'.res.status = 400 ∧
      ∃ j, lib.dump j = .ok w'.res.body := by
  by_cases hcount : 1 ≤ readInt body "count" 1 ∧ readInt body "count" 1 ≤ maxBatch
  · have hinvalid : validateConfig (configOfBody body) ≠ none := fun hvalid => by
      obtain ⟨hshort, hlong, hclass⟩ := validateConfig_eq_none_iff.1 hvalid
      exact h ⟨⟨hshort, hlong⟩, hcount, hclass⟩
    obtain ⟨message, hmade, hmessage⟩ := generateBatch_of_invalid r log2 hinvalid hcount.1 t
    have hmade' : surr.generator.generateBatch (configOfBody body) (readInt body "count" 1) =
        .error (.invalidArgument message) := by
      rw [hgen]
      exact hmade
    rw [run_handlePost_of_ok hparse hcount.1 hcount.2, hmade',
      run_tryCatch_bind_error (run_ofExcept_error _), catchPost,
      run_sendErrorResponse 400 validUtf8_badRequest hmessage]
    exact ⟨_, rfl, rfl, _, dump_errorJson validUtf8_badRequest hmessage⟩
  · have hcount : readInt body "count" 1 < 1 ∨ maxBatch < readInt body "count" 1 := by omega
    obtain ⟨message, hmessage, hrun⟩ :=
      @run_handlePost_of_count lib toDouble maxBatch surr req w body hparse hcount
    rw [hrun, run_tryCatch, run_sendErrorResponse 400 validUtf8_badRequest hmessage]
    exact ⟨_, rfl, rfl, _, dump_errorJson validUtf8_badRequest hmessage⟩

/-- Acceptable integers are not changed by the conversion. -/
theorem Acceptable.toInt32_eq {length count : ℤ} (h : Acceptable maxBatch body length count)
    (hmax : maxBatch < 2 ^ 31) : toInt32 length = length ∧ toInt32 count = count := by
  obtain ⟨hlength, hcount, -⟩ := h
  exact ⟨toInt32_eq_self.2 (by omega), toInt32_eq_self.2 (by omega)⟩

/-- When the passwords that a request asks for are what it gets: if and only if the integers of
    its body, once converted to `int`, are acceptable only if the conversion leaves them as they
    are. (`maxBatch` is an `int`.) -/
theorem honoured_iff (lib : JsonLibrary) (toDouble : ℚ → UInt64) {maxBatch : ℤ}
    (hmax : maxBatch < 2 ^ 31) {surr : Surroundings} {r : Randomness} {log2 : ℕ → ℚ} {t : ℕ}
    (hgen : surr.generator = .drawn r log2 t) {req : Request} {body : Json}
    (hparse : lib.parse req.body = .ok body) (w : World) :
    let length := intOf body "length" 16
    let count := intOf body "count" 1
    Honoured lib toDouble maxBatch body ((handlePost lib toDouble maxBatch surr req).run w) ↔
      (Acceptable maxBatch body (toInt32 length) (toInt32 count) →
        toInt32 length = length ∧ toInt32 count = count) := by
  intro length count
  have hlength : readInt body "length" 16 = toInt32 length := readInt_eq "length" (by decide)
  have hcount : readInt body "count" 1 = toInt32 count := readInt_eq "count" (by decide)
  by_cases haccepted : Acceptable maxBatch body (toInt32 length) (toInt32 count)
  · obtain ⟨w', results, hrun, hstatus, htext, hresults, hpasswords⟩ :=
      @run_handlePost_of_acceptable lib toDouble maxBatch surr req w body r log2 t hgen hparse
        (hlength ▸ hcount ▸ haccepted)
    rw [hrun]
    constructor
    · -- what is answered with 200 was asked for as it stands
      rintro ⟨w'', hw'', hok, -⟩ -
      obtain rfl : w' = w'' := (EStateM.Result.ok.inj hw'').2
      exact (hok.1 hstatus).toInt32_eq hmax
    · intro heq
      obtain ⟨heq₁, heq₂⟩ := heq haccepted
      rw [heq₁, heq₂] at haccepted
      refine ⟨w', rfl, iff_of_true hstatus haccepted, fun _ => ⟨results, htext, ?_, ?_⟩,
        fun hne => absurd hstatus hne⟩
      · rw [hresults, hcount, heq₂]
      · intro result hresult
        rw [hpasswords result hresult, hlength, heq₁]
  · obtain ⟨w', hrun, hstatus, -⟩ :=
      @run_handlePost_of_not lib toDouble maxBatch surr req w body r log2 t hgen hparse
        (hlength ▸ hcount ▸ haccepted)
    rw [hrun]
    refine iff_of_true ⟨w', rfl, iff_of_false (by rw [hstatus]; decide) fun hasked => ?_,
      fun h => absurd (hstatus.symm.trans h) (by decide), fun _ => hstatus⟩
      fun h => absurd h haccepted
    obtain ⟨heq₁, heq₂⟩ := hasked.toInt32_eq hmax
    exact haccepted (by rwa [heq₁, heq₂])

/-- A request with a body. -/
def bodyRequest (body : String) : Request := ⟨fun _ => "", fun _ => "", body, "10.0.0.1"⟩

/-- A world in which nothing has happened. -/
def freshWorld : World := ⟨{}, .new 1 60 1, []⟩

/-- Two passwords of twelve characters. -/
def smallBatch : Json := .object [("count", .unsigned 2), ("length", .unsigned 12)]

theorem honoured_smallBatch :
    Honoured (.knowing "\x7b\"count\":2,\"length\":12\x7d" smallBatch) (fun _ => 0) 100 smallBatch
      ((handlePost (.knowing "\x7b\"count\":2,\"length\":12\x7d" smallBatch) (fun _ => 0) 100
        .sample (bodyRequest "\x7b\"count\":2,\"length\":12\x7d")).run freshWorld) :=
  (honoured_iff (.knowing "\x7b\"count\":2,\"length\":12\x7d" smallBatch) (fun _ => 0) (by decide)
    rfl rfl freshWorld).2 fun _ => by decide

/-- A password of `2 ^ 32 + 16` characters. -/
def hugeLength : Json := .object [("length", .unsigned 4294967312)]

/-- A request for a password of more than four thousand million characters is answered with a
    password of sixteen. -/
theorem hugeLength_accepted :
    let lib : JsonLibrary := .knowing "\x7b\"length\":4294967312\x7d" hugeLength
    let req := bodyRequest "\x7b\"length\":4294967312\x7d"
    lib.parse req.body = .ok hugeLength ∧
      ¬Honoured lib (fun _ => 0) 100 hugeLength
        ((handlePost lib (fun _ => 0) 100 .sample req).run freshWorld) := by
  intro lib req
  refine ⟨rfl, ?_⟩
  rintro ⟨w', hrun, hok, -⟩
  have hconverted : Acceptable 100 hugeLength (readInt hugeLength "length" 16)
      (readInt hugeLength "count" 1) := by
    refine ⟨?_, ?_, ?_⟩ <;> decide
  obtain ⟨w'', results, hrun', hstatus, -⟩ :=
    @run_handlePost_of_acceptable lib (fun _ => 0) 100 .sample req freshWorld hugeLength
      firstDraws (fun _ => 6) 0 rfl rfl hconverted
  obtain rfl : w'' = w' := (EStateM.Result.ok.inj (hrun'.symm.trans hrun)).2
  exact absurd (hok.1 hstatus).1.2 (by decide)

end PasswordHandler

end IpServer
