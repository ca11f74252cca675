import IpServer.Service.Basic

/-!
# Lookups during which a database failed

An address is looked up in two databases, of which one may fail while the other answers.
What is stored is what later lookups of the address are answered, so that nothing should
be stored then.

* `cache_unchanged_iff`: nothing is stored, unless the ASN database alone reports an error: it is
  treated as one that does not know the address.
-/

namespace IpServer.IPGeoService

/-- A database failed: its lookup threw, or reports an error. -/
def Failed : Except Exn Json → Prop
  | .error _ => True
  | .ok result => result.contains "error" = true

variable {ipAddress : String} {queries : MmdbQuery × MmdbQuery} {cityResult asnResult : Json}

/-- What is stored for an address is UTF-8 exactly if what the City database answers is. -/
theorem isUtf8Text_update (h : Described ipAddress cityResult) :
    ((databaseFound ipAddress true).update cityResult).isUtf8Text = true ↔
      cityResult.isUtf8Text = true := by
  obtain ⟨hcity, hip, -⟩ := h
  obtain ⟨hfound, -, -⟩ := described_databaseFound ipAddress
  refine ⟨Json.isUtf8Text_of_update hfound hcity, fun hutf8 => ?_⟩
  have hmembers := hcity.isUtf8Text_iff.1 hutf8
  -- the address is a member of the answer
  have hbase : (databaseFound ipAddress true).Object fun m =>
      Json.validUtf8 m.1 = true ∧ m.2.isUtf8Text = true := by
    refine (Json.Object.null_set (hmembers.get? hip)).set ⟨?_, rfl⟩
    exact Json.validUtf8_of_ascii (by decide)
  have hupdate := hbase.update hmembers
  exact hupdate.isUtf8Text_iff.2 hupdate

/-- If only the ASN database reports an error, what the City database answers is to be stored. -/
theorem compute_of_asnError (hcity : CityDatabase.lookup queries.1 ipAddress = .ok cityResult)
    (hasn : ASNDatabase.lookup queries.2 ipAddress = .ok asnResult)
    (hcityError : cityResult.contains "error" = false)
    (hasnError : asnResult.contains "error" = true) :
    ∃ data dataType, compute ipAddress queries = (data, .ok (some dataType)) ∧
      (data.isUtf8Text = true ↔ cityResult.isUtf8Text = true) := by
  obtain ⟨asnFound, hasnFound, hasnDescribed⟩ := (ASNDatabase.shape hasn).exists_value
  obtain rfl : asnFound = false := by
    by_contra hne
    rw [Bool.not_eq_false] at hne
    rw [(hasnDescribed hne).contains_error] at hasnError
    cases hasnError
  cases CityDatabase.shape hcity with
  | error text => cases hcityError
  | notFound =>
    exact ⟨_, _, compute_of_notFound hcity hasn hcityError rfl hasnFound, Iff.rfl⟩
  | found hdescribed =>
    have hcompute := compute_of_found hcity hasn hcityError
      (Json.value_of_get? hdescribed.2.2) hasnFound (.inl rfl)
    exact ⟨_, _, hcompute, isUtf8Text_update hdescribed⟩

/-- What a lookup during which a database failed is to store, if anything. -/
theorem stores_iff (hfailed : Failed (CityDatabase.lookup queries.1 ipAddress) ∨
      Failed (ASNDatabase.lookup queries.2 ipAddress)) :
    (∃ dataType, (compute ipAddress queries).2 = .ok (some dataType)) ∧
        (compute ipAddress queries).1.isUtf8Text = true ↔
      (∃ cityResult, CityDatabase.lookup queries.1 ipAddress = .ok cityResult ∧
        cityResult.contains "error" = false ∧ cityResult.isUtf8Text = true) ∧
      ∃ asnResult, ASNDatabase.lookup queries.2 ipAddress = .ok asnResult ∧
        asnResult.contains "error" = true := by
  cases hcity : CityDatabase.lookup queries.1 ipAddress with
  | error e =>
    simp only [compute, hcity]
    refine iff_of_false ?_ ?_
    · rintro ⟨⟨_, h⟩, -⟩
      cases h
    · rintro ⟨⟨_, h, -⟩, -⟩
      cases h
  | ok cityResult =>
    cases hasn : ASNDatabase.lookup queries.2 ipAddress with
    | error e =>
      simp only [compute, hcity, hasn]
      refine iff_of_false ?_ ?_
      · rintro ⟨⟨_, h⟩, -⟩
        cases h
      · rintro ⟨-, _, h, -⟩
        cases h
    | ok asnResult =>
      cases hcityError : cityResult.contains "error" with
      | true =>
        obtain ⟨data, hcompute⟩ := compute_of_cityError hcity hasn hcityError
        rw [hcompute]
        refine iff_of_false ?_ ?_
        · rintro ⟨⟨_, h⟩, -⟩
          cases h
        · rintro ⟨⟨_, heq, hnone, -⟩, -⟩
          rw [← Except.ok.inj heq, hcityError] at hnone
          cases hnone
      | false =>
        -- the City database answered, so it was the ASN database that failed
        rw [hcity, hasn, Failed, Failed, hcityError] at hfailed
        have hasnError := hfailed.resolve_left Bool.false_ne_true
        obtain ⟨data, dataType, hcompute, hutf8⟩ :=
          compute_of_asnError hcity hasn hcityError hasnError
        rw [hcompute]
        constructor
        · rintro ⟨-, h⟩
          exact ⟨⟨cityResult, rfl, hcityError, hutf8.1 h⟩, asnResult, rfl, hasnError⟩
        · rintro ⟨⟨_, heq, -, h⟩, -⟩
          rw [← Except.ok.inj heq] at h
          exact ⟨⟨dataType, rfl⟩, hutf8.2 h⟩

variable {n : ℕ} [NeZero n]

/-- A lookup during which a database failed leaves the cache as its reading of it left it, unless
    nothing was found there, the City database answers without an error, in UTF-8, and the ASN
    database reports an error. -/
theorem cache_unchanged_iff (hash : String → ℕ) (lib : JsonLibrary) (cache : IPCache n)
    (ipAddress : String) (looked stored : TimePoint) (queries : MmdbQuery × MmdbQuery) :
    (Failed (CityDatabase.lookup queries.1 ipAddress) ∨
        Failed (ASNDatabase.lookup queries.2 ipAddress) →
      (service.lookup hash lib cache ipAddress looked stored queries).2 =
        (IPCache.step hash lib cache (.get ipAddress looked)).2) ↔
    ¬((IPCache.step hash lib cache (.get ipAddress looked)).1 = .got none ∧
      (∃ cityResult, CityDatabase.lookup queries.1 ipAddress = .ok cityResult ∧
        cityResult.contains "error" = false ∧ cityResult.isUtf8Text = true) ∧
      ∃ asnResult, ASNDatabase.lookup queries.2 ipAddress = .ok asnResult ∧
        asnResult.contains "error" = true) := by
  by_cases hfailed : Failed (CityDatabase.lookup queries.1 ipAddress) ∨
      Failed (ASNDatabase.lookup queries.2 ipAddress)
  · rw [← stores_iff hfailed, forall_prop_of_true hfailed]
    exact Service.snd_lookup_eq_iff
  · refine iff_of_true (fun h => absurd h hfailed) ?_
    rintro ⟨-, -, asnResult, hasn, hasnError⟩
    refine hfailed (.inr ?_)
    rw [hasn]
    exact hasnError

/-- What the database library reports of an IPv6 address and a file of IPv4 addresses. -/
def ipv4OnlyError : String :=
  "You attempted to look up an IPv6 address in an IPv4-only database"

/-- If the City database is the one that fails, nothing is stored. -/
theorem cache_unchanged_of_cityError :
    let cache : IPCache 8 := .new 8 (100 * 1024 * 1024)
    (service.lookup (fun _ => 0) .sample cache "2001:db8::1" 0 0
        (.answered true (.mmdbError ipv4OnlyError), .answered true .notFound)).2 =
      (IPCache.step (fun _ => 0) .sample cache (.get "2001:db8::1" 0)).2 := by
  intro cache
  have hcity : ∀ ipAddress, CityDatabase.lookup (.answered true (.mmdbError ipv4OnlyError))
      ipAddress = .ok (databaseError ipAddress ("MaxMind DB lookup error: " ++ ipv4OnlyError)) :=
    fun _ => rfl
  refine (cache_unchanged_iff (fun _ => 0) .sample cache "2001:db8::1" 0 0 _).2 ?_ (.inl ?_)
  · rintro ⟨-, ⟨cityResult, heq, hnone, -⟩, -⟩
    rw [hcity] at heq
    rw [← Except.ok.inj heq] at hnone
    cases hnone
  · rw [hcity]
    rfl

/-- The answers for an address that the City database does not know, and of which the ASN database
    cannot tell. -/
def failingQueries : MmdbQuery × MmdbQuery :=
  (.answered true .notFound, .answered true (.mmdbError ipv4OnlyError))

theorem compute_failingQueries (ipAddress : String) :
    compute ipAddress failingQueries =
      (databaseFound ipAddress false, .ok (some .negative)) := by
  have hasn : ASNDatabase.lookup failingQueries.2 ipAddress =
      .ok (databaseError ipAddress ("MaxMind DB lookup error: " ++ ipv4OnlyError)) := rfl
  exact compute_of_notFound rfl hasn rfl rfl rfl

/-- Such an address is stored as one that is in no database, and five minutes long no database is
    asked again. -/
theorem asnError_cached :
    let cache : IPCache 8 := .new 8 (100 * 1024 * 1024)
    let failed := service.lookup (fun _ => 0) .sample cache "2001:db8::1" 0 0 failingQueries
    Failed (ASNDatabase.lookup failingQueries.2 "2001:db8::1") ∧
      failed.2 ≠ (IPCache.step (fun _ => 0) .sample cache (.get "2001:db8::1" 0)).2 ∧
      ∀ queries, (service.lookup (fun _ => 0) .sample failed.2 "2001:db8::1" (seconds 300)
        (seconds 300) queries).1 = .ok ⟨databaseFound "2001:db8::1" false, true⟩ := by
  intro cache failed
  have hmiss : (IPCache.step (fun _ => 0) .sample cache (.get "2001:db8::1" 0)).1 = .got none :=
    IPCache.step_answer (fun _ => 0) .sample cache _
  have hutf8 := isUtf8Text_databaseFound
    (Json.validUtf8_of_ascii (by decide) : Json.validUtf8 "2001:db8::1" = true) false
  have hcompute : service.compute "2001:db8::1" failingQueries =
      (databaseFound "2001:db8::1" false, .ok (some .negative)) :=
    compute_failingQueries "2001:db8::1"
  obtain ⟨size, hstored⟩ := @Service.stored_lookup _ 8 _ _ _ _ _ _ _ 0 _ _ _ hmiss hcompute hutf8
  refine ⟨rfl, fun heq => ?_, fun queries => ?_⟩
  · rw [heq, Service.stored_of_miss hmiss] at hstored
    cases hstored
  · have hhit := @Service.get_of_stored 8 _ (fun _ => 0) .sample failed.2 "2001:db8::1" _
      (seconds 300) hstored (sub_zero (seconds 300)).le
    simp only [Service.lookup, hhit]

end IpServer.IPGeoService
