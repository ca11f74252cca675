import IpServer.JsonObject

/-!
# The databases

What the lookups in the City, ASN and OUI databases make of what the database
libraries answer. An answer may differ from one query to the next, so that it is given
with the query; a query may also end with an exception (of the allocator, say).

* `CityDatabase.lookup`, `ASNDatabase.lookup`: two kinds of records of a `.mmdb` file, read after
  the same query (`performLookup`).
* `OUIDatabase.lookup`: a row of a table, for the first six digits of a MAC address.
* `CityDatabase.shape`, `ASNDatabase.shape`, `OUIDatabase.shape`: an answer without an error
  says whether the address was found, and nothing that looks like an error.
-/

namespace IpServer

/-! ## MaxMind databases -/

/-- A value of an entry, read as each of the types that the lookups read. -/
structure EntryData where
  utf8String : String
  uint32 : UInt32
  /-- the bits of the `double` -/
  doubleValue : UInt64

/-- An entry, by its values: `MMDB_aget_value` for a path of keys. -/
abbrev Entry := List String → Option EntryData

/-- What `MMDB_lookup_string` answers. -/
inductive MmdbAnswer
  /-- the text is no address -/
  | gaiError
  /-- an error, with its text -/
  | mmdbError (text : String)
  | notFound
  | found (entry : Entry)

/-- A query of a database, with what it meets. -/
inductive MmdbQuery
  | threw (e : Exn)
  | answered (isOpen : Bool) (answer : MmdbAnswer)

/-- The answer of a database that failed. -/
def databaseError (ipAddress text : String) : Json :=
  Json.null
    |>.set "error" (.string text)
    |>.set "ip" (.string ipAddress)

/-- The answer of a database that knows whether it has a record. -/
def databaseFound (ipAddress : String) (found : Bool) : Json :=
  Json.null
    |>.set "ip" (.string ipAddress)
    |>.set "found" (.boolean found)

theorem isUtf8Text_databaseFound {ipAddress : String} (h : Json.validUtf8 ipAddress = true)
    (found : Bool) : (databaseFound ipAddress found).isUtf8Text = true := by
  refine Json.isUtf8Text_set (Json.isUtf8Text_set rfl ?_ h) ?_ rfl
  · exact Json.validUtf8_of_ascii (by decide)
  · exact Json.validUtf8_of_ascii (by decide)

/-- `MaxMindDatabase::perform_lookup`. -/
def performLookup (isOpen : Bool) (answer : MmdbAnswer) (ipAddress : String) : Json :=
  if !isOpen then databaseError ipAddress "Database not open"
  else
    match answer with
    | .gaiError => databaseError ipAddress "Invalid IP address"
    | .mmdbError text => databaseError ipAddress ("MaxMind DB lookup error: " ++ text)
    | .notFound => databaseFound ipAddress false
    | .found _ => databaseFound ipAddress true

/-- The entry that an answer gives access to. -/
def MmdbAnswer.entry : MmdbAnswer → Entry
  | .found entry => entry
  | _ => fun _ => none

/-- A member is assigned if the entry has a value at a path. -/
def setValue (entry : Entry) (path : List String) (key : String) (read : EntryData → Json)
    (result : Json) : Json :=
  match entry path with
  | some data => result.set key (read data)
  | none => result

def readString (data : EntryData) : Json := .string data.utf8String
def readDouble (data : EntryData) : Json := .float data.doubleValue
def readUInt32 (data : EntryData) : Json := .unsigned (UInt64.ofNat data.uint32.toNat)

/-- A lookup of a MaxMind database: what is found is described from its entry. -/
def mmdbLookup (describe : Entry → Json → Json) (query : MmdbQuery) (ipAddress : String) :
    Except Exn Json :=
  match query with
  | .threw e => .error e
  | .answered isOpen answer => do
    let result := performLookup isOpen answer ipAddress
    if result.contains "error" || !(← result.value "found" false) then return result
    else return describe answer.entry result

namespace CityDatabase

/-- What a city is described by. -/
def describe (entry : Entry) (result : Json) : Json :=
  result
    |> setValue entry ["country", "names", "en"] "country" readString
    |> setValue entry ["country", "iso_code"] "country_code" readString
    |> setValue entry ["city", "names", "en"] "city" readString
    |> setValue entry ["continent", "names", "en"] "continent" readString
    |> setValue entry ["location", "latitude"] "latitude" readDouble
    |> setValue entry ["location", "longitude"] "longitude" readDouble
    |> setValue entry ["location", "time_zone"] "timezone" readString

/-- `CityDatabase::lookup`. -/
def lookup : MmdbQuery → String → Except Exn Json := mmdbLookup describe

end CityDatabase

namespace ASNDatabase

/-- What an autonomous system is described by. -/
def describe (entry : Entry) (result : Json) : Json :=
  result
    |> setValue entry ["autonomous_system_organization"] "as_organization" readString
    |> setValue entry ["autonomous_system_number"] "as_number" readUInt32

/-- `ASNDatabase::lookup`. -/
def lookup : MmdbQuery → String → Except Exn Json := mmdbLookup describe

end ASNDatabase

/-! ### What they answer -/

/-- A member of an answer for an address that was found: its address, that it was found, or
    something about it. -/
def Tells (ipAddress : String) (m : String × Json) : Prop :=
  m.1 ≠ "error" ∧ (m.1 = "ip" → m.2 = .string ipAddress) ∧ (m.1 = "found" → m.2 = .boolean true)

/-- An answer for an address that was found. -/
def Described (ipAddress : String) (result : Json) : Prop :=
  result.Object (Tells ipAddress) ∧ result.get? "ip" = some (.string ipAddress) ∧
    result.get? "found" = some (.boolean true)

/-- The answers of a MaxMind database. -/
inductive MmdbShape (ipAddress : String) : Json → Prop
  | error (text : String) : MmdbShape ipAddress (databaseError ipAddress text)
  | notFound : MmdbShape ipAddress (databaseFound ipAddress false)
  | found {result : Json} (h : Described ipAddress result) : MmdbShape ipAddress result

section Shape

variable {ipAddress : String} {result : Json} {entry : Entry}

theorem described_databaseFound (ipAddress : String) :
    Described ipAddress (databaseFound ipAddress true) := by
  refine ⟨Json.Object.set (Json.Object.null_set ?_) ?_, rfl, rfl⟩
  · exact ⟨(by decide : "ip" ≠ "error"), fun _ => rfl,
      fun h => absurd h (by decide : "ip" ≠ "found")⟩
  · exact ⟨(by decide : "found" ≠ "error"), fun h => absurd h (by decide : "found" ≠ "ip"),
      fun _ => rfl⟩

/-- Other members may be added. -/
theorem Described.setValue (h : Described ipAddress result) (entry : Entry) (path : List String)
    {key : String} (read : EntryData → Json)
    (hkey : key ≠ "error" ∧ key ≠ "ip" ∧ key ≠ "found") :
    Described ipAddress (setValue entry path key read result) := by
  obtain ⟨htells, hip, hfound⟩ := h
  obtain ⟨herror, hip', hfound'⟩ := hkey
  rw [IpServer.setValue]
  cases entry path with
  | none => exact ⟨htells, hip, hfound⟩
  | some data =>
    refine ⟨htells.set ⟨herror, fun h => absurd h hip', fun h => absurd h hfound'⟩, ?_, ?_⟩
    · rw [htells.get?_set, if_neg hip', hip]
    · rw [htells.get?_set, if_neg hfound', hfound]

/-- An answer may be updated with another one for the same address. -/
theorem Described.update (h : Described ipAddress result) {other : Json}
    (hother : Described ipAddress other) : Described ipAddress (result.update other) := by
  obtain ⟨htells, -, -⟩ := h
  obtain ⟨htells', hip', hfound'⟩ := hother
  have hupdate := htells.update htells'
  obtain ⟨ip, hip⟩ := Json.exists_get?_update htells htells' hip'
  obtain ⟨found, hfound⟩ := Json.exists_get?_update htells htells' hfound'
  refine ⟨hupdate, ?_, ?_⟩
  · exact hip.trans (congrArg some ((hupdate.get? hip).2.1 rfl))
  · exact hfound.trans (congrArg some ((hupdate.get? hfound).2.2 rfl))

/-- An answer may be updated with another one for the same address, if there is one. -/
theorem Described.updateIf (h : Described ipAddress result) {found : Bool} {other : Json}
    (hother : found = true → Described ipAddress other) :
    Described ipAddress (if found then result.update other else result) := by
  split
  · next hfound => exact h.update (hother hfound)
  · exact h

theorem Described.contains_error (h : Described ipAddress result) :
    result.contains "error" = false :=
  Json.contains_eq_false (h.1.mono fun _ hm => hm.1)

theorem CityDatabase.described (h : Described ipAddress result) :
    Described ipAddress (CityDatabase.describe entry result) := by
  refine ((((((h.setValue _ _ _ ?_).setValue _ _ _ ?_).setValue _ _ _ ?_).setValue _ _ _
    ?_).setValue _ _ _ ?_).setValue _ _ _ ?_).setValue _ _ _ ?_
  all_goals decide

theorem ASNDatabase.described (h : Described ipAddress result) :
    Described ipAddress (ASNDatabase.describe entry result) := by
  refine (h.setValue _ _ _ ?_).setValue _ _ _ ?_
  all_goals decide

/-- What a lookup answers has one of the shapes, if its description only adds to what is found. -/
theorem mmdbShape_of_lookup {describe : Entry → Json → Json}
    (hdescribe : ∀ entry result, Described ipAddress result →
      Described ipAddress (describe entry result))
    {query : MmdbQuery} (h : mmdbLookup describe query ipAddress = .ok result) :
    MmdbShape ipAddress result := by
  cases query with
  | threw e => cases h
  | answered isOpen answer =>
    cases isOpen with
    | false =>
      obtain rfl := Except.ok.inj h
      exact .error _
    | true =>
      cases answer with
      | gaiError | mmdbError text =>
        obtain rfl := Except.ok.inj h
        exact .error _
      | notFound =>
        obtain rfl := Except.ok.inj h
        exact .notFound
      | found entry =>
        obtain rfl := Except.ok.inj h
        exact .found (hdescribe entry _ (described_databaseFound ipAddress))

/-- What an answer says of its address, if anything. -/
theorem MmdbShape.exists_value (h : MmdbShape ipAddress result) :
    ∃ found, result.value "found" false = .ok found ∧
      (found = true → Described ipAddress result) := by
  cases h with
  | error text => exact ⟨false, rfl, nofun⟩
  | notFound => exact ⟨false, rfl, nofun⟩
  | found h => exact ⟨true, Json.value_of_get? h.2.2, fun _ => h⟩

theorem CityDatabase.shape {query : MmdbQuery}
    (h : CityDatabase.lookup query ipAddress = .ok result) : MmdbShape ipAddress result :=
  mmdbShape_of_lookup (fun _ _ => CityDatabase.described) h

theorem ASNDatabase.shape {query : MmdbQuery}
    (h : ASNDatabase.lookup query ipAddress = .ok result) : MmdbShape ipAddress result :=
  mmdbShape_of_lookup (fun _ _ => ASNDatabase.described) h

end Shape

/-! ## The OUI database -/

/-- What the statement answers, when a prefix is bound to it and it is stepped. -/
inductive OuiAnswer
  /-- the parameter cannot be bound -/
  | bindError (text : String)
  /-- a row, by the texts of its columns -/
  | row (column : ℕ → Option String)
  | done
  /-- any other status -/
  | failed (text : String)

/-- A query of the database, with what it meets: the statement, by what it answers for each text
    that may be bound to it. -/
inductive OuiQuery
  | threw (e : Exn)
  | answered (isOpen : Bool) (statement : String → OuiAnswer)

namespace OUIDatabase

/-- `std::isxdigit`, in the C locale. -/
def isXDigit (c : Char) : Bool :=
  c.isDigit || ('a' ≤ c && c ≤ 'f') || ('A' ≤ c && c ≤ 'F')

/-- `normalize_mac_address`. -/
def normalizeMacAddress (macAddress : String) : String :=
  String.ofList ((macAddress.toList.filter isXDigit).map Char.toUpper)

/-- `extract_oui`. -/
def extractOui (normalizedMac : String) : String :=
  match normalizedMac.toList with
  | a :: b :: c :: d :: e :: f :: _ => String.ofList [a, b, ':', c, d, ':', e, f]
  | _ => ""

/-- `OUI_COLUMNS`. -/
def ouiColumns : List (ℕ × String) :=
  [(1, "manufacturer"), (2, "registry"), (3, "short_name"), (4, "device_type"),
    (5, "registered_date"), (6, "address"), (7, "sources")]

/-- What a row is described by. -/
def describe (column : ℕ → Option String) (result : Json) : Json :=
  ouiColumns.foldl (fun result col =>
    match column col.1 with
    | some text => result.set col.2 (.string text)
    | none => result) result

/-- The answer for an address whose prefix is looked up. -/
def macFound (macAddress oui : String) (found : Bool) : Json :=
  Json.null
    |>.set "mac" (.string macAddress)
    |>.set "oui" (.string oui)
    |>.set "found" (.boolean found)

/-- `OUIDatabase::lookup`. -/
def lookup (query : OuiQuery) (macAddress : String) : Except Exn Json :=
  match query with
  | .threw e => .error e
  | .answered isOpen statement =>
    if !isOpen then .ok (Json.null.set "error" (.string "Database not open"))
    else
      let normalized := normalizeMacAddress macAddress
      if normalized.length ≠ 12 then
        .ok (Json.null.set "error" (.string "Invalid MAC address format"))
      else
        let oui := extractOui normalized
        match statement oui with
        | .bindError text =>
          .ok (Json.null.set "error" (.string ("Failed to bind parameter: " ++ text)))
        | .row column => .ok (describe column (macFound macAddress oui true))
        | .done => .ok (macFound macAddress oui false)
        | .failed text => .ok (Json.null.set "error" (.string ("Query failed: " ++ text)))

/-! ### What it answers -/

/-- The answers of the database. -/
inductive Shape : Json → Prop
  | error (text : String) : Shape (Json.null.set "error" (.string text))
  | found {result : Json} (b : Bool) (h : result.Object fun m => m.1 ≠ "error")
    (hfound : result.get? "found" = some (.boolean b)) : Shape result

variable {macAddress oui : String} {result : Json}

theorem object_macFound (macAddress oui : String) (found : Bool) :
    (macFound macAddress oui found).Object fun m => m.1 ≠ "error" := by
  refine ((Json.Object.null_set ?_).set ?_).set ?_
  · exact (by decide : "mac" ≠ "error")
  · exact (by decide : "oui" ≠ "error")
  · exact (by decide : "found" ≠ "error")

/-- Describing a row adds its columns. -/
theorem object_describe (column : ℕ → Option String)
    (h : result.Object fun m => m.1 ≠ "error")
    (hfound : result.get? "found" = some (.boolean true)) :
    ((describe column result).Object fun m => m.1 ≠ "error") ∧
      (describe column result).get? "found" = some (.boolean true) := by
  have hkeys : ∀ col ∈ ouiColumns, col.2 ≠ "error" ∧ col.2 ≠ "found" := by decide
  rw [describe]
  generalize ouiColumns = columns at hkeys
  induction columns generalizing result with
  | nil => exact ⟨h, hfound⟩
  | cons col columns ih =>
    obtain ⟨⟨herror, hkey⟩, hkeys⟩ := List.forall_mem_cons.1 hkeys
    rw [List.foldl_cons]
    cases column col.1 with
    | none => exact ih h hfound hkeys
    | some text =>
      refine ih (h.set herror) ?_ hkeys
      rw [h.get?_set, if_neg hkey, hfound]

theorem shape {query : OuiQuery} (h : lookup query macAddress = .ok result) : Shape result := by
  cases query with
  | threw e => cases h
  | answered isOpen statement =>
    rw [lookup] at h
    split at h
    · obtain rfl := Except.ok.inj h
      exact .error _
    · dsimp only at h
      split at h
      · obtain rfl := Except.ok.inj h
        exact .error _
      · cases hanswer : statement (extractOui (normalizeMacAddress macAddress)) with
        | bindError text | failed text =>
          rw [hanswer] at h
          obtain rfl := Except.ok.inj h
          exact .error _
        | done =>
          rw [hanswer] at h
          obtain rfl := Except.ok.inj h
          exact .found false (object_macFound _ _ _) rfl
        | row column =>
          rw [hanswer] at h
          obtain rfl := Except.ok.inj h
          obtain ⟨hobject, hfound⟩ := object_describe column
            (object_macFound macAddress (extractOui (normalizeMacAddress macAddress)) true) rfl
          exact .found true hobject hfound

end OUIDatabase

end IpServer
