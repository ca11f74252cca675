import IpServer.Cache.History
import IpServer.Database

/-!
# The lookup services

`IPGeoService` and `MACLookupService` answer a lookup from their cache, or else from
their databases, and then put what they computed into the cache: `Service.lookup`, for
what a service computes from the answers of its databases (`Service.compute`).

* `IPGeoService.storable`, `MACLookupService.storable`: what is put into the cache holds no error,
  and its type says whether the address was found.
-/

namespace IpServer

/-- A lookup service with databases whose answers to a lookup are a `δ`: what it computes from
    them, and the type under which it is to be stored, if it is. An exception leaves the data that
    there were. -/
structure Service (δ : Type) where
  compute : String → δ → Json × Except Exn (Option CacheDataType)

namespace Service

variable {δ : Type} {n : ℕ} [NeZero n] (svc : Service δ) (hash : String → ℕ) (lib : JsonLibrary)

/-- The catch clause: the exception is reported in the data. -/
def caught (data : Json) (e : Exn) : Except Exn LookupResult :=
  match e.what? with
  | none => .error e
  | some what => .ok ⟨data.set "error" (.string what), false⟩

/-- What is returned after the data were put into the cache. -/
def finish (data : Json) : CacheAnswer → Except Exn LookupResult
  | .threw e => caught data e
  | _ => .ok ⟨data, false⟩

/-- `lookup`, with the cache read at `looked` and written at `stored`. -/
def lookup (cache : IPCache n) (key : String) (looked stored : TimePoint) (answers : δ) :
    Except Exn LookupResult × IPCache n :=
  let read := IPCache.step hash lib cache (.get key looked)
  match read.1 with
  | .got (some cached) => (.ok ⟨cached, true⟩, read.2)
  | _ =>
    let data := (svc.compute key answers).1
    match (svc.compute key answers).2 with
    | .error e => (caught data e, read.2)
    | .ok none => (.ok ⟨data, false⟩, read.2)
    | .ok (some dataType) =>
      let put := IPCache.step hash lib read.2 (.put key data dataType stored)
      (finish data put.1, put.2)

variable {svc hash lib} {cache : IPCache n} {key : String} {looked stored : TimePoint}
  {answers : δ} {data : Json} {dataType : CacheDataType}

/-- A lookup whose reading of the cache finds nothing leaves nothing there under its key. -/
theorem stored_of_miss (h : (IPCache.step hash lib cache (.get key looked)).1 = .got none) :
    IPCache.stored hash (IPCache.step hash lib cache (.get key looked)).2 key = none := by
  have hanswer := IPCache.step_answer hash lib cache (.get key looked)
  have hstored := IPCache.stored_step_self hash lib cache (.get key looked)
  rw [h] at hanswer
  rw [CacheOp.key] at hanswer hstored
  rw [hstored]
  cases hheld : IPCache.stored hash cache key with
  | none => rfl
  | some e =>
    rw [hheld, TimedMap.effect] at hanswer
    rw [TimedMap.effect]
    split at hanswer
    · next hexpired => rw [if_pos hexpired]
    · cases hanswer

/-- Data that cannot be serialised leave the cache alone. -/
theorem put_of_error {e : Exn} (h : lib.dump data = .error e) :
    IPCache.step hash lib cache (.put key data dataType stored) = (.threw e, cache) := by
  have hsize : CacheShard.estimateEntrySize lib key data = .error e := by
    rw [CacheShard.estimateEntrySize, h]
    rfl
  simp only [IPCache.step, Machine.sharded, CacheShard.step, CacheShard.put_of_error hsize,
    Function.update_eq_self]

/-- Data that can be serialised are stored. -/
theorem put_of_ok {text : String} (h : lib.dump data = .ok text) : ∃ size,
    (IPCache.step hash lib cache (.put key data dataType stored)).1 = .stored ∧
    IPCache.stored hash (IPCache.step hash lib cache (.put key data dataType stored)).2 key =
      some ⟨data, stored, size, dataType⟩ := by
  have hsize : CacheShard.estimateEntrySize lib key data = .ok (key.length * 2 + text.length) := by
    rw [CacheShard.estimateEntrySize, h]
    rfl
  have hanswer := IPCache.step_answer hash lib cache (.put key data dataType stored)
  have hstored := IPCache.stored_step_self hash lib cache (.put key data dataType stored)
  simp only [CacheOp.key, TimedMap.effect, hsize] at hanswer hstored
  exact ⟨_, hanswer, hstored⟩

/-- The answer of a reading. -/
theorem get_cases (hash : String → ℕ) (lib : JsonLibrary) (cache : IPCache n) (key : String)
    (now : TimePoint) :
    (IPCache.step hash lib cache (.get key now)).1 = .got none ∨
      ∃ cached, (IPCache.step hash lib cache (.get key now)).1 = .got (some cached) := by
  rw [IPCache.step_answer]
  cases IPCache.stored hash cache (CacheOp.get key now).key with
  | none => exact .inl rfl
  | some e =>
    rw [TimedMap.effect]
    split
    · exact .inl rfl
    · exact .inr ⟨_, rfl⟩

/-- What a reading finds is held under its key, and has not outlived its type. -/
theorem exists_stored_of_hit {now : TimePoint} {cached : Json}
    (h : (IPCache.step hash lib cache (.get key now)).1 = .got (some cached)) :
    ∃ e, IPCache.stored hash cache key = some e ∧ e.result = cached ∧
      now - e.timestamp ≤ CacheShard.ttlForType e.dataType := by
  rw [IPCache.step_answer, CacheOp.key] at h
  cases hheld : IPCache.stored hash cache key with
  | none =>
    rw [hheld] at h
    cases h
  | some e =>
    rw [hheld, TimedMap.effect] at h
    split at h
    · cases h
    · next hlive => exact ⟨e, rfl, Option.some_inj.1 (CacheAnswer.got.inj h), not_lt.1 hlive⟩

/-- What is held under a key is found there, if it has not outlived its type. -/
theorem get_of_stored {e : Stored} {now : TimePoint} (h : IPCache.stored hash cache key = some e)
    (hlive : now - e.timestamp ≤ CacheShard.ttlForType e.dataType) :
    (IPCache.step hash lib cache (.get key now)).1 = .got (some e.result) := by
  rw [IPCache.step_answer, CacheOp.key, h, TimedMap.effect, if_neg (not_lt.2 hlive)]

/-- A lookup that finds nothing leaves in the cache what it computed, if that is to be stored and
    can be serialised. -/
theorem stored_lookup (hmiss : (IPCache.step hash lib cache (.get key looked)).1 = .got none)
    (hcompute : svc.compute key answers = (data, .ok (some dataType)))
    (hutf8 : data.isUtf8Text = true) : ∃ size,
    IPCache.stored hash (svc.lookup hash lib cache key looked stored answers).2 key =
      some ⟨data, stored, size, dataType⟩ := by
  obtain ⟨text, hdump⟩ := (@JsonLibrary.dump_eq_ok lib data).2 hutf8
  obtain ⟨size, -, hstored⟩ := @put_of_ok n _ hash lib
    (IPCache.step hash lib cache (.get key looked)).2 key stored data dataType text hdump
  refine ⟨size, ?_⟩
  simp only [lookup, hmiss, hcompute]
  exact hstored

/-- When a lookup leaves the cache as its reading of it left it: unless nothing was found there and
    what was computed is to be stored and can be serialised. -/
theorem snd_lookup_eq_iff : (svc.lookup hash lib cache key looked stored answers).2 =
      (IPCache.step hash lib cache (.get key looked)).2 ↔
    ¬((IPCache.step hash lib cache (.get key looked)).1 = .got none ∧
      (∃ dataType, (svc.compute key answers).2 = .ok (some dataType)) ∧
      (svc.compute key answers).1.isUtf8Text = true) := by
  obtain hmiss | ⟨cached, hhit⟩ := get_cases hash lib cache key looked
  · cases hcompute : (svc.compute key answers).2 with
    | error e =>
      simp only [lookup, hmiss, hcompute]
      refine iff_of_true trivial ?_
      rintro ⟨-, ⟨_, h⟩, -⟩
      cases h
    | ok dataType =>
      cases dataType with
      | none =>
        simp only [lookup, hmiss, hcompute]
        refine iff_of_true trivial ?_
        rintro ⟨-, ⟨_, h⟩, -⟩
        cases h
      | some dataType =>
        by_cases hutf8 : (svc.compute key answers).1.isUtf8Text = true
        · -- it is stored, where nothing was
          have hcomputed : svc.compute key answers =
              ((svc.compute key answers).1, .ok (some dataType)) := Prod.ext rfl hcompute
          obtain ⟨size, hstored⟩ := stored_lookup hmiss hcomputed hutf8
          refine iff_of_false (fun heq => ?_) (not_not_intro ⟨hmiss, ⟨dataType, rfl⟩, hutf8⟩)
          rw [heq, stored_of_miss hmiss] at hstored
          cases hstored
        · refine iff_of_true ?_ fun h => hutf8 h.2.2
          rcases hdump : lib.dump (svc.compute key answers).1 with e | text
          · simp only [lookup, hmiss, hcompute]
            rw [put_of_error hdump]
          · exact absurd ((JsonLibrary.dump_eq_ok _).1 ⟨text, hdump⟩) hutf8
  · simp only [lookup, hhit]
    refine iff_of_true trivial ?_
    rintro ⟨h, -⟩
    cases h

end Service

/-- Data that hold no error, and the type that says whether the address was found. -/
structure Storable (foundType : CacheDataType) (data : Json) (dataType : CacheDataType) : Prop where
  contains_error : data.contains "error" = false
  found : dataType = .negative ∧ data.get? "found" = some (.boolean false) ∨
    dataType = foundType ∧ data.get? "found" = some (.boolean true)

/-! ## Addresses -/

namespace IPGeoService

/-- What `IPGeoService::lookup` computes from the answers of the City and the ASN database. -/
def compute (ipAddress : String) (queries : MmdbQuery × MmdbQuery) :
    Json × Except Exn (Option CacheDataType) :=
  let result := databaseFound ipAddress false
  match CityDatabase.lookup queries.1 ipAddress, ASNDatabase.lookup queries.2 ipAddress with
  | .error e, _ => (result, .error e)
  | .ok _, .error e => (result, .error e)
  | .ok cityResult, .ok asnResult =>
    if cityResult.contains "error" then
      (result.set "error" ((cityResult.get? "error").getD .null), .ok none)
    else
      match cityResult.value "found" false, asnResult.value "found" false with
      | .error e, _ => (result, .error e)
      | .ok _, .error e => (result, .error e)
      | .ok cityFound, .ok asnFound =>
        if !cityFound && !asnFound then (result, .ok (some .negative))
        else
          let result := result.set "found" (.boolean true)
          let result := if cityFound then result.update cityResult else result
          let result := if asnFound then result.update asnResult else result
          (result, .ok (some .ipGeolocation))

/-- `IPGeoService`. -/
def service : Service (MmdbQuery × MmdbQuery) := ⟨compute⟩

variable {ipAddress : String} {queries : MmdbQuery × MmdbQuery} {cityResult asnResult : Json}
  {cityFound asnFound : Bool}

/-- What is computed if the City database reports an error. -/
theorem compute_of_cityError (hcity : CityDatabase.lookup queries.1 ipAddress = .ok cityResult)
    (hasn : ASNDatabase.lookup queries.2 ipAddress = .ok asnResult)
    (herror : cityResult.contains "error" = true) : ∃ data,
      compute ipAddress queries = (data, .ok none) := by
  simp only [compute, hcity, hasn, herror, if_true]
  exact ⟨_, rfl⟩

/-- What is computed if neither database knows the address. -/
theorem compute_of_notFound (hcity : CityDatabase.lookup queries.1 ipAddress = .ok cityResult)
    (hasn : ASNDatabase.lookup queries.2 ipAddress = .ok asnResult)
    (herror : cityResult.contains "error" = false)
    (hcityFound : cityResult.value "found" false = .ok false)
    (hasnFound : asnResult.value "found" false = .ok false) :
    compute ipAddress queries = (databaseFound ipAddress false, .ok (some .negative)) := by
  simp only [compute, hcity, hasn, herror, hcityFound, hasnFound]
  rfl

/-- What is computed if a database knows the address. -/
theorem compute_of_found (hcity : CityDatabase.lookup queries.1 ipAddress = .ok cityResult)
    (hasn : ASNDatabase.lookup queries.2 ipAddress = .ok asnResult)
    (herror : cityResult.contains "error" = false)
    (hcityFound : cityResult.value "found" false = .ok cityFound)
    (hasnFound : asnResult.value "found" false = .ok asnFound)
    (hfound : cityFound = true ∨ asnFound = true) :
    let result := databaseFound ipAddress true
    let result := if cityFound then result.update cityResult else result
    let result := if asnFound then result.update asnResult else result
    compute ipAddress queries = (result, .ok (some .ipGeolocation)) := by
  have hsome : (!cityFound && !asnFound) = false := by
    rw [Bool.and_eq_false_iff, Bool.not_eq_false', Bool.not_eq_false']
    exact hfound
  simp only [compute, hcity, hasn, herror, hcityFound, hasnFound, hsome]
  rfl

/-- What is stored holds no error, and says whether the address was found. -/
theorem storable {data : Json} {dataType : CacheDataType}
    (h : compute ipAddress queries = (data, .ok (some dataType))) :
    Storable .ipGeolocation data dataType := by
  cases hcity : CityDatabase.lookup queries.1 ipAddress with
  | error e =>
    simp only [compute, hcity] at h
    cases h
  | ok cityResult =>
    cases hasn : ASNDatabase.lookup queries.2 ipAddress with
    | error e =>
      simp only [compute, hcity, hasn] at h
      cases h
    | ok asnResult =>
      cases herror : cityResult.contains "error" with
      | true =>
        obtain ⟨data', hcompute⟩ := compute_of_cityError hcity hasn herror
        rw [hcompute] at h
        cases h
      | false =>
        obtain ⟨cityFound, hcityFound, hcityDescribed⟩ := (CityDatabase.shape hcity).exists_value
        obtain ⟨asnFound, hasnFound, hasnDescribed⟩ := (ASNDatabase.shape hasn).exists_value
        -- the data are those of the databases that found the address, or none did
        by_cases hfound : cityFound = true ∨ asnFound = true
        · rw [compute_of_found hcity hasn herror hcityFound hasnFound hfound] at h
          obtain ⟨hdata, htype⟩ := Prod.mk.inj h
          obtain rfl := Option.some_inj.1 (Except.ok.inj htype)
          have hdescribed : Described ipAddress data := by
            rw [← hdata]
            exact ((described_databaseFound ipAddress).updateIf hcityDescribed).updateIf
              hasnDescribed
          exact ⟨hdescribed.contains_error, .inr ⟨rfl, hdescribed.2.2⟩⟩
        · rw [not_or, Bool.not_eq_true, Bool.not_eq_true] at hfound
          obtain ⟨rfl, rfl⟩ := hfound
          rw [compute_of_notFound hcity hasn herror hcityFound hasnFound] at h
          obtain ⟨rfl, htype⟩ := Prod.mk.inj h
          obtain rfl := Option.some_inj.1 (Except.ok.inj htype)
          exact ⟨rfl, .inl ⟨rfl, rfl⟩⟩

end IPGeoService

/-! ## MAC addresses -/

namespace MACLookupService

/-- What `MACLookupService::lookup` computes from the answer of the OUI database. -/
def compute (macAddress : String) (query : OuiQuery) : Json × Except Exn (Option CacheDataType) :=
  match OUIDatabase.lookup query macAddress with
  | .error e => (.null, .error e)
  | .ok result =>
    if result.contains "error" then (result, .ok none)
    else
      match result.value "found" false with
      | .error e => (result, .error e)
      | .ok found => (result, .ok (some (if found then .macOui else .negative)))

/-- `MACLookupService`. -/
def service : Service OuiQuery := ⟨compute⟩

theorem storable {macAddress : String} {query : OuiQuery} {data : Json} {dataType : CacheDataType}
    (h : compute macAddress query = (data, .ok (some dataType))) :
    Storable .macOui data dataType := by
  rw [compute] at h
  cases hlookup : OUIDatabase.lookup query macAddress with
  | error e =>
    rw [hlookup] at h
    cases h
  | ok result =>
    rw [hlookup] at h
    dsimp only at h
    split at h
    · cases h
    · next hcontains =>
      rw [Bool.not_eq_true] at hcontains
      cases OUIDatabase.shape hlookup with
      | error text => cases hcontains
      | found b hobject hfound =>
        rw [Json.value_of_get? hfound] at h
        obtain ⟨rfl, htype⟩ := Prod.mk.inj h
        obtain rfl := Option.some_inj.1 (Except.ok.inj htype)
        refine ⟨hcontains, ?_⟩
        cases b with
        | true => exact .inr ⟨rfl, hfound⟩
        | false => exact .inl ⟨rfl, hfound⟩

end MACLookupService

end IpServer
