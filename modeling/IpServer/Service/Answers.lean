import IpServer.Service.Concurrent

/-!
# What the answers tell

An answer without an error tells what the databases know of its address, and nothing else: each
of its members is one that one of them has a value for. For an IP address, the answers of two
databases are merged; as they have no members in common but the address and whether it was found,
none is lost.

* `IPGeoService.compute_eq`, `MACLookupService.compute_eq`: what is computed from the answers of the
  databases.
* `tells_of_done`: what any call returns, wherever the calls are interrupted and whatever the
  databases answer from one query to the next.
-/

namespace IpServer

/-! ## Answers and queries -/

namespace Service

section

variable {δ : Type} {ι : Type*} [DecidableEq ι] {n : ℕ} [NeZero n] {svc : Service δ}
  {hash : String → ℕ} {lib : JsonLibrary} {key : ι → String} {maxMemoryBytes : ℕ}
  {run : List (ι × CallStep δ)} {i : ι}

/-- What the cache holds was computed for the same key, and can be serialised. -/
theorem exists_computed_of_hit {k : String} {now : TimePoint} {cached : Json}
    (h : (IPCache.step hash lib ((calls svc hash lib key).run (.new n ι maxMemoryBytes) run).cache
      (.get k now)).1 = .got (some cached)) :
    ∃ before rest j answers dataType, run = before ++ rest ∧ key j = k ∧
      Queried (calls svc hash lib key) (.new n ι maxMemoryBytes) before j answers ∧
      svc.compute k answers = (cached, .ok (some dataType)) ∧ cached.isUtf8Text = true := by
  obtain ⟨e, hstored, rfl, -⟩ := exists_stored_of_hit h
  rw [cache_run] at hstored
  obtain ⟨xs, ys, hops, hstores, -⟩ := IPCache.exists_last_put maxMemoryBytes hstored
  obtain ⟨before, a, rest, us, vs, rfl, ha, -, -⟩ := Machine.exists_of_emitted_eq _ hops
  have hput : .put k e.result e.dataType e.timestamp ∈
      ops key ((calls svc hash lib key).run (.new n ι maxMemoryBytes) before) a := by
    rw [ha]
    exact List.mem_append_right us List.mem_cons_self
  obtain ⟨j, rfl, rfl, hcomputed⟩ := eq_put_of_mem_ops hput
  obtain ⟨answers, hqueried, hcompute⟩ := computed_spec hcomputed
  exact ⟨before, _, j, answers, e.dataType, rfl, rfl, hqueried, hcompute,
    (stores_put_iff.1 hstores).2⟩

/-- If every lookup that asks the databases returns an error or what `Told` says of their answers,
    so does every call: what it finds in the cache was computed from the answers to another one. -/
theorem told_of_done {Told : String → δ → Json → Prop}
    (htold : ∀ k answers result, uncached svc lib k answers = .ok result →
      result.data.contains "error" = true ∨ Told k answers result.data) {result : LookupResult}
    (h : ((calls svc hash lib key).run (.new n ι maxMemoryBytes) run).stage i =
      .done (.ok result)) :
    result.data.contains "error" = true ∨ ∃ j answers, key j = key i ∧
      Queried (calls svc hash lib key) (.new n ι maxMemoryBytes) run j answers ∧
      Told (key i) answers result.data := by
  rcases done_spec h with ⟨answers, hqueried, hresult⟩ |
    ⟨cached, pre, now, rest, hresult, rfl, -, hread⟩
  · exact (htold _ _ _ hresult.symm).imp_right fun htells => ⟨i, answers, rfl, hqueried, htells⟩
  · obtain ⟨before, between, j, answers, dataType, rfl, hkey, hqueried, hcompute, hutf8⟩ :=
      exists_computed_of_hit hread
    obtain ⟨text, htext⟩ := (@JsonLibrary.dump_eq_ok lib cached).2 hutf8
    have huncached : uncached svc lib (key i) answers = .ok ⟨cached, false⟩ := by
      rw [uncached, hcompute]
      dsimp only
      rw [htext]
    obtain rfl := Except.ok.inj hresult
    exact (htold _ _ _ huncached).imp_right fun htells =>
      ⟨j, answers, hkey, (hqueried.append between).append _, htells⟩

/-- What is caught is reported. -/
theorem contains_error_of_caught {data : Json} {P : String × Json → Prop} {e : Exn}
    {result : LookupResult} (hdata : data.Object P ∨ data = .null)
    (h : caught data e = .ok result) : result.data.contains "error" = true := by
  rw [caught] at h
  cases hwhat : e.what? with
  | none =>
    rw [hwhat] at h
    cases h
  | some what =>
    rw [hwhat] at h
    obtain rfl := Except.ok.inj h
    rcases hdata with hobject | rfl
    · rw [Json.contains, hobject.get?_set, if_pos rfl]
      rfl
    · rfl

end

end Service

/-! ## Databases -/

/-- The database is open and the query is answered without an error. -/
def MmdbQuery.isAnswered : MmdbQuery → Bool
  | .answered true .notFound | .answered true (.found _) => true
  | _ => false

/-- The query does not end with an exception. -/
def MmdbQuery.returns : MmdbQuery → Bool
  | .answered .. => true
  | .threw _ => false

/-- The entry that the query finds, if it finds one. -/
def MmdbQuery.entry? : MmdbQuery → Option Entry
  | .answered true (.found entry) => some entry
  | _ => none

namespace CityDatabase

/-- The members that a description may have. -/
def members (entry : Entry) : List (String × Option Json) :=
  [("country", (entry ["country", "names", "en"]).map readString),
    ("country_code", (entry ["country", "iso_code"]).map readString),
    ("city", (entry ["city", "names", "en"]).map readString),
    ("continent", (entry ["continent", "names", "en"]).map readString),
    ("latitude", (entry ["location", "latitude"]).map readDouble),
    ("longitude", (entry ["location", "longitude"]).map readDouble),
    ("timezone", (entry ["location", "time_zone"]).map readString)]

end CityDatabase

namespace ASNDatabase

/-- The members that a description may have. -/
def members (entry : Entry) : List (String × Option Json) :=
  [("as_organization", (entry ["autonomous_system_organization"]).map readString),
    ("as_number", (entry ["autonomous_system_number"]).map readUInt32)]

end ASNDatabase

theorem setValue_eq (entry : Entry) (path : List String) (key : String) (read : EntryData → Json)
    (result : Json) : setValue entry path key read result =
      (((entry path).map read).map (result.set key)).getD result := by
  rw [setValue]
  cases entry path <;> rfl

theorem CityDatabase.describe_eq (entry : Entry) (result : Json) :
    describe entry result = result.assignAll (members entry) := by
  simp only [describe, setValue_eq]
  rfl

theorem ASNDatabase.describe_eq (entry : Entry) (result : Json) :
    describe entry result = result.assignAll (members entry) := by
  simp only [describe, setValue_eq]
  rfl

/-- The members that the answer to a query has besides the address and whether it was found. -/
def MmdbQuery.members (members : Entry → List (String × Option Json)) (query : MmdbQuery) :
    List (String × Option Json) :=
  match query.entry? with
  | some entry => members entry
  | none => []

/-- An answer has no members but those that a description may have. -/
theorem MmdbQuery.lookup_members (query : MmdbQuery) {members : Entry → List (String × Option Json)}
    {keys : List String} (hkeys : ∀ entry, (members entry).map Prod.fst = keys) {key : String}
    (h : key ∉ keys) : (query.members members).lookup key = none := by
  rw [MmdbQuery.members]
  cases query.entry? with
  | none => rfl
  | some entry => exact Json.lookup_eq_none_of_notMem ((hkeys entry).symm ▸ h)

theorem returns_of_isAnswered {query : MmdbQuery} (h : query.isAnswered = true) :
    query.returns = true := by
  cases query with
  | threw e => cases h
  | answered isOpen answer => rfl

section Lookup

variable {describe : Entry → Json → Json} {query : MmdbQuery} {ipAddress : String}

theorem get?_databaseFound (ipAddress : String) (found : Bool) (key : String) :
    (databaseFound ipAddress found).get? key =
      if key = "found" then some (.boolean found)
      else if key = "ip" then some (.string ipAddress) else none := by
  have hip : Json.Object (fun _ => True) (Json.null.set "ip" (.string ipAddress)) :=
    Json.Object.null_set trivial
  rw [databaseFound, hip.get?_set]
  simp only [Json.set, Json.get?_object, Json.find, eq_comm]

/-- What a lookup answers that does not end with an exception. -/
theorem mmdbLookup_spec (hdescribe : ∀ entry result, Described ipAddress result →
      Described ipAddress (describe entry result)) (h : query.returns = true) :
    ∃ result, mmdbLookup describe query ipAddress = .ok result ∧
      result.contains "error" = !query.isAnswered ∧
      result.value "found" false = .ok query.entry?.isSome ∧
      ∀ entry, query.entry? = some entry →
        result = describe entry (databaseFound ipAddress true) := by
  cases query with
  | threw e => cases h
  | answered isOpen answer =>
    cases isOpen with
    | false => exact ⟨_, rfl, rfl, rfl, fun entry hentry => by cases hentry⟩
    | true =>
      cases answer with
      | gaiError | mmdbError text => exact ⟨_, rfl, rfl, rfl, fun entry hentry => by cases hentry⟩
      | notFound => exact ⟨_, rfl, rfl, rfl, fun entry hentry => by cases hentry⟩
      | found entry =>
        have hdescribed := hdescribe entry _ (described_databaseFound ipAddress)
        refine ⟨describe entry (databaseFound ipAddress true), rfl, hdescribed.contains_error,
          Json.value_of_get? hdescribed.2.2, fun entry' hentry => ?_⟩
        rw [Option.some_inj.1 hentry]

theorem CityDatabase.lookup_spec (h : query.returns = true) :
    ∃ result, CityDatabase.lookup query ipAddress = .ok result ∧
      result.contains "error" = !query.isAnswered ∧
      result.value "found" false = .ok query.entry?.isSome ∧
      ∀ entry, query.entry? = some entry →
        result = CityDatabase.describe entry (databaseFound ipAddress true) :=
  mmdbLookup_spec (fun _ _ => CityDatabase.described) h

theorem ASNDatabase.lookup_spec (h : query.returns = true) :
    ∃ result, ASNDatabase.lookup query ipAddress = .ok result ∧
      result.contains "error" = !query.isAnswered ∧
      result.value "found" false = .ok query.entry?.isSome ∧
      ∀ entry, query.entry? = some entry →
        result = ASNDatabase.describe entry (databaseFound ipAddress true) :=
  mmdbLookup_spec (fun _ _ => ASNDatabase.described) h

/-- An answer that says that its address was found describes it. -/
theorem MmdbShape.described_of_value {result : Json} (h : MmdbShape ipAddress result)
    (hvalue : result.value "found" false = .ok true) : Described ipAddress result := by
  obtain ⟨found, hfound, hdescribed⟩ := h.exists_value
  exact hdescribed (Except.ok.inj (hfound.symm.trans hvalue))

/-- What is found is added to an answer for the same address. -/
theorem get?_updateIf {members : Entry → List (String × Option Json)} {data result : Json}
    (hdescribe : ∀ entry result, describe entry result = result.assignAll (members entry))
    (hkeys : ∀ entry, ((members entry).map Prod.fst).Nodup) (hdata : Described ipAddress data)
    (hresult : ∀ entry, query.entry? = some entry →
      result = describe entry (databaseFound ipAddress true)) (key : String) :
    (if query.entry?.isSome then data.update result else data).get? key =
      ((query.members members).lookup key).join.or (data.get? key) := by
  cases hentry : query.entry? with
  | none =>
    rw [MmdbQuery.members, hentry]
    rfl
  | some entry =>
    obtain ⟨hobject, hget⟩ := (described_databaseFound ipAddress).1.get?_assignAll (hkeys entry)
    rw [← hdescribe, ← hresult entry hentry] at hobject
    rw [Option.isSome_some, if_pos rfl, hdata.1.get?_update hobject, hresult entry hentry,
      hdescribe, hget, MmdbQuery.members, hentry, Option.or_assoc, get?_databaseFound]
    congr 1
    split
    · next hfound => rw [hfound, hdata.2.2, Option.or_self]
    · split
      · next hip => rw [hip, hdata.2.1, Option.or_self]
      · rfl

end Lookup

/-! ## IP addresses -/

namespace IPGeoService

variable (ipAddress : String) (city asn : MmdbQuery)

/-- What two databases tell of an address, member by member. -/
def told (key : String) : Option Json :=
  if key = "ip" then some (.string ipAddress)
  else if key = "found" then some (.boolean (city.entry?.isSome || asn.entry?.isSome))
  else ((city.members CityDatabase.members).lookup key).join.or
    ((asn.members ASNDatabase.members).lookup key).join

/-- The members of an answer, in the order in which they are printed. -/
def answerKeys : List String :=
  ["as_number", "as_organization", "city", "continent", "country", "country_code", "found", "ip",
    "latitude", "longitude", "timezone"]

/-- The answer that tells what two databases tell. -/
def toldJson : Json := .ofMember? answerKeys (told ipAddress city asn)

/-- The data are what two databases tell, both of which have answered. -/
def Tells (answers : MmdbQuery × MmdbQuery) (data : Json) : Prop :=
  answers.1.isAnswered = true ∧ answers.2.returns = true ∧
    data = toldJson ipAddress answers.1 answers.2

theorem lookup_cityMembers {key : String} (h : key ∉ ["country", "country_code", "city",
      "continent", "latitude", "longitude", "timezone"]) :
    (city.members CityDatabase.members).lookup key = none :=
  @MmdbQuery.lookup_members city CityDatabase.members _ (fun _ => rfl) key h

theorem lookup_asnMembers {key : String} (h : key ∉ ["as_organization", "as_number"]) :
    (asn.members ASNDatabase.members).lookup key = none :=
  @MmdbQuery.lookup_members asn ASNDatabase.members _ (fun _ => rfl) key h

/-- The two databases have no members in common. -/
theorem lookup_members_eq_none (key : String) :
    (city.members CityDatabase.members).lookup key = none ∨
      (asn.members ASNDatabase.members).lookup key = none := by
  by_cases hkey : key ∈ ["as_organization", "as_number"]
  · refine .inl (lookup_cityMembers city ?_)
    rcases List.mem_pair.1 hkey with rfl | rfl
    · decide
    · decide
  · exact .inr (lookup_asnMembers asn hkey)

/-- Nothing is told but by the members of an answer. -/
theorem told_of_notMem {key : String} (h : key ∉ answerKeys) :
    told ipAddress city asn key = none := by
  simp only [answerKeys, List.mem_cons, not_or] at h
  rw [told, if_neg (by tauto), if_neg (by tauto), lookup_cityMembers, lookup_asnMembers]
  · rfl
  · simp only [List.mem_cons, not_or]
    tauto
  · simp only [List.mem_cons, not_or]
    tauto

theorem sorted_answerKeys : answerKeys.Pairwise (· < ·) := by decide

/-- An object is the answer if its members are what is told. -/
theorem eq_toldJson {data : Json} {P : String × Json → Prop} (h : data.Object P)
    (hget : ∀ key, data.get? key = told ipAddress city asn key) :
    data = toldJson ipAddress city asn := by
  have heq := h.eq_ofMember? sorted_answerKeys fun key hkey =>
    (hget key).trans (told_of_notMem ipAddress city asn hkey)
  rw [heq, toldJson, funext hget]

variable {ipAddress city asn}

/-- What is computed from the answers of the databases. -/
theorem compute_eq (hcity : city.isAnswered = true) (hasn : asn.returns = true) :
    compute ipAddress (city, asn) = (toldJson ipAddress city asn, .ok (some
      (if city.entry?.isSome || asn.entry?.isSome then .ipGeolocation else .negative))) := by
  obtain ⟨cityResult, hcityLookup, hcityError, hcityFound, hcityResult⟩ :=
    @CityDatabase.lookup_spec city ipAddress (returns_of_isAnswered hcity)
  obtain ⟨asnResult, hasnLookup, -, hasnFound, hasnResult⟩ :=
    @ASNDatabase.lookup_spec asn ipAddress hasn
  rw [hcity] at hcityError
  by_cases hfound : city.entry?.isSome = true ∨ asn.entry?.isSome = true
  · rw [@compute_of_found ipAddress (city, asn) _ _ _ _ hcityLookup hasnLookup hcityError
      hcityFound hasnFound hfound, if_pos (Bool.or_eq_true_iff.2 hfound)]
    have hbase := described_databaseFound ipAddress
    have hmerged := hbase.updateIf fun h => (CityDatabase.shape hcityLookup).described_of_value
      (hcityFound.trans (congrArg _ h))
    have hdata := hmerged.updateIf fun h => (ASNDatabase.shape hasnLookup).described_of_value
      (hasnFound.trans (congrArg _ h))
    refine Prod.ext (eq_toldJson ipAddress city asn hdata.1 fun key => ?_) rfl
    dsimp only
    rw [get?_updateIf ASNDatabase.describe_eq (fun _ => by simp [ASNDatabase.members]) hmerged
      hasnResult, get?_updateIf CityDatabase.describe_eq
        (fun _ => by simp [CityDatabase.members]) hbase hcityResult, get?_databaseFound, told,
        Bool.or_eq_true_iff.2 hfound]
    by_cases hip : key = "ip"
    · rw [hip, lookup_asnMembers asn (by decide), lookup_cityMembers city (by decide)]
      rfl
    · by_cases hkey : key = "found"
      · rw [hkey, lookup_asnMembers asn (by decide), lookup_cityMembers city (by decide)]
        rfl
      · -- what one database tells, the other one does not
        rw [if_neg hkey, if_neg hip, if_neg hip, if_neg hkey, Option.or_none]
        obtain hnone | hnone := lookup_members_eq_none city asn key
        · rw [hnone, Option.join_none, Option.or_none, Option.none_or]
        · rw [hnone, Option.join_none, Option.or_none, Option.none_or]
  · rw [not_or, Bool.not_eq_true, Bool.not_eq_true] at hfound
    obtain ⟨hcityNone, hasnNone⟩ := hfound
    rw [hcityNone] at hcityFound
    rw [hasnNone] at hasnFound
    rw [@compute_of_notFound ipAddress (city, asn) _ _ hcityLookup hasnLookup hcityError hcityFound
      hasnFound, hcityNone, hasnNone]
    have hobject : (databaseFound ipAddress false).Object fun _ => True :=
      (Json.Object.null_set trivial).set trivial
    refine Prod.ext (eq_toldJson ipAddress city asn hobject fun key => ?_) rfl
    rw [Option.isSome_eq_false_iff, Option.isNone_iff_eq_none] at hcityNone hasnNone
    rw [get?_databaseFound, told, MmdbQuery.members, MmdbQuery.members, hcityNone, hasnNone]
    by_cases hip : key = "ip"
    · rw [hip]
      rfl
    · rw [if_neg hip, if_neg hip]
      rfl

/-- What a lookup returns that asks the databases. -/
theorem told_of_uncached {lib : JsonLibrary} {queries : MmdbQuery × MmdbQuery}
    {result : LookupResult} (h : Service.uncached service lib ipAddress queries = .ok result) :
    result.data.contains "error" = true ∨ Tells ipAddress queries result.data := by
  obtain ⟨city, asn⟩ := queries
  have hobject : (databaseFound ipAddress false).Object fun _ => True :=
    (Json.Object.null_set trivial).set trivial
  rw [Service.uncached, service] at h
  dsimp only at h
  cases city with
  | threw e => exact .inl (Service.contains_error_of_caught (.inl hobject) h)
  | answered isOpen answer =>
    obtain ⟨cityResult, hcityLookup, hcityError, -⟩ :=
      @CityDatabase.lookup_spec (.answered isOpen answer) ipAddress rfl
    cases asn with
    | threw e =>
      have hasnLookup : ASNDatabase.lookup (.threw e) ipAddress = .error e := rfl
      simp only [compute, hcityLookup, hasnLookup] at h
      exact .inl (Service.contains_error_of_caught (.inl hobject) h)
    | answered isOpen' answer' =>
      cases hanswered : (MmdbQuery.answered isOpen answer).isAnswered with
      | true =>
        rw [compute_eq hanswered rfl] at h
        dsimp only at h
        cases hdump : lib.dump (toldJson ipAddress (.answered isOpen answer)
            (.answered isOpen' answer')) with
        | error e =>
          rw [hdump] at h
          exact .inl (Service.contains_error_of_caught
            (.inl (Json.object_ofMember? sorted_answerKeys _)) h)
        | ok text =>
          rw [hdump] at h
          obtain rfl := Except.ok.inj h
          exact .inr ⟨hanswered, rfl, rfl⟩
      | false =>
        -- the error of the City database is reported
        obtain ⟨asnResult, hasnLookup, -⟩ :=
          @ASNDatabase.lookup_spec (.answered isOpen' answer') ipAddress rfl
        rw [hanswered] at hcityError
        simp only [compute, hcityLookup, hasnLookup, hcityError, Bool.not_false, if_true] at h
        obtain rfl := Except.ok.inj h
        refine .inl ?_
        rw [Json.contains, hobject.get?_set, if_pos rfl]
        rfl

end IPGeoService

/-! ## MAC addresses -/

/-- The statement answers without an error. -/
def OuiAnswer.isAnswered : OuiAnswer → Bool
  | .row _ | .done => true
  | .bindError _ | .failed _ => false

/-- A row is found. -/
def OuiAnswer.isFound : OuiAnswer → Bool
  | .row _ => true
  | .done | .bindError _ | .failed _ => false

namespace OUIDatabase

/-- The members that an answer has besides the address, its prefix, and whether this was found. -/
def members : OuiAnswer → List (String × Option Json)
  | .row column => ouiColumns.map fun col => (col.2, (column col.1).map .string)
  | .done | .bindError _ | .failed _ => []

theorem describe_eq (column : ℕ → Option String) (result : Json) :
    describe column result = result.assignAll (members (.row column)) := by
  rw [describe, Json.assignAll, members, List.foldl_map]
  refine congrArg (fun f => List.foldl f result ouiColumns) (funext fun j => funext fun col => ?_)
  cases column col.1 with
  | none => rfl
  | some text => rfl

end OUIDatabase

namespace MACLookupService

open OUIDatabase

variable (macAddress : String) (answer : OuiAnswer)

/-- What an answer of the statement tells of an address, member by member. -/
def told (key : String) : Option Json :=
  if key = "mac" then some (.string macAddress)
  else if key = "oui" then some (.string (extractOui (normalizeMacAddress macAddress)))
  else if key = "found" then some (.boolean answer.isFound)
  else ((members answer).lookup key).join

/-- The members of an answer, in the order in which they are printed. -/
def answerKeys : List String :=
  ["address", "device_type", "found", "mac", "manufacturer", "oui", "registered_date", "registry",
    "short_name", "sources"]

/-- The answer that tells what the statement tells. -/
def toldJson : Json := .ofMember? answerKeys (told macAddress answer)

/-- The data are what the statement of an open database tells, which has answered for the prefix
    of a whole address. -/
def Tells (query : OuiQuery) (data : Json) : Prop :=
  ∃ statement, query = .answered true statement ∧ (normalizeMacAddress macAddress).length = 12 ∧
    (statement (extractOui (normalizeMacAddress macAddress))).isAnswered = true ∧
      data = toldJson macAddress (statement (extractOui (normalizeMacAddress macAddress)))

theorem sorted_answerKeys : answerKeys.Pairwise (· < ·) := by decide

theorem lookup_members {key : String} (h : key ∉ ouiColumns.map Prod.snd) :
    (members answer).lookup key = none := by
  cases answer with
  | row column =>
    refine Json.lookup_eq_none_of_notMem ?_
    rwa [members, List.map_map]
  | done | bindError | failed => rfl

theorem get?_macFound (oui : String) (found : Bool) (key : String) :
    (macFound macAddress oui found).get? key =
      if key = "found" then some (.boolean found)
      else if key = "oui" then some (.string oui)
      else if key = "mac" then some (.string macAddress) else none := by
  have hmac : Json.Object (fun _ => True) (Json.null.set "mac" (.string macAddress)) :=
    Json.Object.null_set trivial
  have houi : Json.Object (fun _ => True) ((Json.null.set "mac" (.string macAddress)).set "oui"
    (.string oui)) := hmac.set trivial
  rw [macFound, houi.get?_set, hmac.get?_set]
  simp only [Json.set, Json.get?_object, Json.find, eq_comm]

variable {macAddress answer}

/-- An object is the answer if its members are those of the columns, and otherwise as without. -/
theorem eq_toldJson {data : Json} {P : String × Json → Prop} (h : data.Object P)
    (hget : ∀ key, data.get? key = ((members answer).lookup key).join.or
      ((macFound macAddress (extractOui (normalizeMacAddress macAddress))
        answer.isFound).get? key)) : data = toldJson macAddress answer := by
  have htold (key : String) : data.get? key = told macAddress answer key := by
    rw [hget, get?_macFound, told]
    by_cases hmac : key = "mac"
    · rw [hmac, lookup_members answer (by decide)]
      rfl
    · by_cases houi : key = "oui"
      · rw [houi, lookup_members answer (by decide)]
        rfl
      · by_cases hfound : key = "found"
        · rw [hfound, lookup_members answer (by decide)]
          rfl
        · simp only [if_neg hmac, if_neg houi, if_neg hfound, Option.or_none]
  have hall (key : String) (hkey : key ∉ answerKeys) : data.get? key = none := by
    simp only [answerKeys, List.mem_cons, not_or] at hkey
    rw [htold, told, if_neg (by tauto), if_neg (by tauto), if_neg (by tauto), lookup_members]
    · rfl
    · simp only [ouiColumns, List.map_cons, List.map_nil, List.mem_cons, not_or]
      tauto
  have heq := h.eq_ofMember? sorted_answerKeys hall
  rw [heq, toldJson, funext htold]

variable {statement : String → OuiAnswer}

/-- What is looked up in an open database, for a whole address, by what the statement answers. -/
theorem lookup_eq (hlen : (normalizeMacAddress macAddress).length = 12)
    (hanswer : statement (extractOui (normalizeMacAddress macAddress)) = answer) :
    OUIDatabase.lookup (.answered true statement) macAddress =
      match answer with
      | .bindError text =>
        .ok (Json.null.set "error" (.string ("Failed to bind parameter: " ++ text)))
      | .row column => .ok (describe column
          (macFound macAddress (extractOui (normalizeMacAddress macAddress)) true))
      | .done => .ok (macFound macAddress (extractOui (normalizeMacAddress macAddress)) false)
      | .failed text => .ok (Json.null.set "error" (.string ("Query failed: " ++ text))) := by
  cases answer with
  | bindError | row | done | failed =>
    rw [OUIDatabase.lookup, Bool.not_true, if_neg Bool.false_ne_true]
    dsimp only
    rw [if_neg (not_not_intro hlen), hanswer]

/-- What is computed from what the statement answers. -/
theorem compute_eq (hlen : (normalizeMacAddress macAddress).length = 12)
    (hanswer : statement (extractOui (normalizeMacAddress macAddress)) = answer)
    (hanswered : answer.isAnswered = true) : compute macAddress (.answered true statement) =
      (toldJson macAddress answer, .ok (some (if answer.isFound then .macOui else .negative))) := by
  have hfound (found : Bool) :=
    object_macFound macAddress (extractOui (normalizeMacAddress macAddress)) found
  cases answer with
  | bindError text | failed text => cases hanswered
  | row column =>
    obtain ⟨hobject, hget⟩ := object_describe column (hfound true) rfl
    have hkeys : ((members (.row column)).map Prod.fst).Nodup := by
      rw [members, List.map_map]
      exact (by decide : (ouiColumns.map Prod.snd).Nodup)
    obtain ⟨-, hmembers⟩ := (hfound true).get?_assignAll hkeys
    rw [← describe_eq] at hmembers
    rw [compute, lookup_eq hlen hanswer]
    dsimp only
    rw [Json.contains_eq_false hobject, Json.value_of_get? hget]
    exact Prod.ext (eq_toldJson hobject hmembers) rfl
  | done =>
    rw [compute, lookup_eq hlen hanswer]
    dsimp only
    rw [Json.contains_eq_false (hfound false), Json.value_of_get? rfl]
    exact Prod.ext (eq_toldJson (hfound false) fun key => rfl) rfl

/-- What is computed otherwise, unless the query ends with an exception. -/
theorem compute_eq_error {isOpen : Bool} (h : ¬(isOpen = true ∧
      (normalizeMacAddress macAddress).length = 12 ∧
      (statement (extractOui (normalizeMacAddress macAddress))).isAnswered = true)) : ∃ text,
    compute macAddress (.answered isOpen statement) =
      (Json.null.set "error" (.string text), .ok none) := by
  have hcompute {text : String} (hlookup : OUIDatabase.lookup (.answered isOpen statement)
      macAddress = .ok (Json.null.set "error" (.string text))) :
      compute macAddress (.answered isOpen statement) =
        (Json.null.set "error" (.string text), .ok none) := by
    rw [compute, hlookup]
    rfl
  cases isOpen with
  | false => exact ⟨_, hcompute rfl⟩
  | true =>
    by_cases hlen : (normalizeMacAddress macAddress).length = 12
    · cases hanswer : statement (extractOui (normalizeMacAddress macAddress)) with
      | bindError text | failed text => exact ⟨_, hcompute (lookup_eq hlen hanswer)⟩
      | row column => exact absurd ⟨rfl, hlen, by rw [hanswer]; rfl⟩ h
      | done => exact absurd ⟨rfl, hlen, by rw [hanswer]; rfl⟩ h
    · refine ⟨"Invalid MAC address format", hcompute ?_⟩
      rw [OUIDatabase.lookup, Bool.not_true, if_neg Bool.false_ne_true]
      dsimp only
      rw [if_pos hlen]

/-- What a lookup returns that asks the database. -/
theorem told_of_uncached {lib : JsonLibrary} {query : OuiQuery} {result : LookupResult}
    (h : Service.uncached service lib macAddress query = .ok result) :
    result.data.contains "error" = true ∨ Tells macAddress query result.data := by
  rw [Service.uncached, service] at h
  dsimp only at h
  cases query with
  | threw e => exact .inl (@Service.contains_error_of_caught .null (fun _ => True) _ _ (.inr rfl) h)
  | answered isOpen statement =>
    by_cases hall : isOpen = true ∧ (normalizeMacAddress macAddress).length = 12 ∧
        (statement (extractOui (normalizeMacAddress macAddress))).isAnswered = true
    · obtain ⟨rfl, hlen, hanswered⟩ := hall
      rw [compute_eq hlen rfl hanswered] at h
      dsimp only at h
      cases hdump : lib.dump (toldJson macAddress
          (statement (extractOui (normalizeMacAddress macAddress)))) with
      | error e =>
        rw [hdump] at h
        exact .inl (Service.contains_error_of_caught
          (.inl (Json.object_ofMember? sorted_answerKeys _)) h)
      | ok text =>
        rw [hdump] at h
        obtain rfl := Except.ok.inj h
        exact .inr ⟨statement, rfl, hlen, hanswered, rfl⟩
    · obtain ⟨text, hcompute⟩ := compute_eq_error hall
      rw [hcompute] at h
      obtain rfl := Except.ok.inj h
      exact .inl rfl

end MACLookupService

/-! ## Calls -/

/-- The City database knows the country of an address, the ASN database its number. -/
def bothFound : MmdbQuery × MmdbQuery :=
  (.answered true (.found fun path =>
      if path = ["country", "iso_code"] then some ⟨"DE", 0, 0⟩ else none),
    .answered true (.found fun path =>
      if path = ["autonomous_system_number"] then some ⟨"", 64496, 0⟩ else none))

/-- What the two of them tell. -/
def bothTold : Json :=
  .object [("as_number", .unsigned 64496), ("country_code", .string "DE"),
    ("found", .boolean true), ("ip", .string "192.0.2.1")]

end IpServer
