import IpServer.Database
import IpServer.Library.MoveClass

/-!
# The handles of the databases

`OUIDatabase` has a connection and a statement prepared on it, `MaxMindDatabase` a mapped file.
Both open them in the constructor, hand them over when they are moved, and close them in the
destructor, or before another database is assigned to them; `is_open_` is false only in a database
that has been moved from. A handle is a number here, that of the construction that opened it, and a
null pointer is `none`; what the libraries answer is part of the input.

* `OUIDatabase.moveClass`, `MaxMindDatabase.moveClass`: the special members and the lookups, with
  the calls of the libraries that they make.
* `SqliteCall.event`, `MmdbCall.event`: what a call does to a handle. A statement is on top of its
  connection.
* `OUIDatabase.owns`, `MaxMindDatabase.owns`: the databases own their handles.
* `handles_closed_once`: so every handle is closed once, by the database that has it last.
-/

namespace IpServer

open ResourceEvent Ownership

/-! ## The OUI database -/

/-- A call of the SQLite library. The statement that is prepared on a connection has its number. -/
inductive SqliteCall
  /-- with the connection it gives, if any -/
  | openV2 (db : Option ℕ)
  | exec (db : Option ℕ)
  | prepareV2 (db : Option ℕ) (prepared : Bool)
  | errmsg (db : Option ℕ)
  | close (db : Option ℕ)
  | reset (stmt : Option ℕ)
  | clearBindings (stmt : Option ℕ)
  | bindText (stmt : Option ℕ) (text : String)
  | step (stmt : Option ℕ)
  | columnText (stmt : Option ℕ) (column : ℕ)
  | finalize (stmt : Option ℕ)
  deriving DecidableEq

/-- What a call does to a connection, at the level `0`, or to a statement, at the level `1`. -/
def SqliteCall.event : SqliteCall → Option ResourceEvent
  | .openV2 db => db.map fun n => .acquire ⟨n, 0⟩
  | .exec db => db.map fun n => .use ⟨n, 0⟩
  | .prepareV2 db prepared => db.map fun n => if prepared then .acquire ⟨n, 1⟩ else .use ⟨n, 0⟩
  | .errmsg db => db.map fun n => .use ⟨n, 0⟩
  | .close db => db.map fun n => .release ⟨n, 0⟩
  | .reset stmt => stmt.map fun n => .use ⟨n, 1⟩
  | .clearBindings stmt => stmt.map fun n => .use ⟨n, 1⟩
  | .bindText stmt _ => stmt.map fun n => .use ⟨n, 1⟩
  | .step stmt => stmt.map fun n => .use ⟨n, 1⟩
  | .columnText stmt _ => stmt.map fun n => .use ⟨n, 1⟩
  | .finalize stmt => stmt.map fun n => .release ⟨n, 1⟩

/-- The OUI database, by the members that its special members handle. -/
structure OUIDatabase where
  db : Option ℕ
  lookupStmt : Option ℕ
  isOpen : Bool
  deriving DecidableEq

namespace OUIDatabase

/-- What `sqlite3_open_v2` answers. -/
inductive OpenStatus
  | ok
  /-- an error, on a connection that is given all the same and tells its text -/
  | failed (text : String)
  /-- an error, without a connection -/
  | noConnection
  deriving DecidableEq

/-- The argument of the constructor, and what the library answers. Whether the journal mode can be
    set is only logged. -/
structure Opening where
  dbPath : String
  opened : OpenStatus
  /-- the text of the error, if the statement cannot be prepared -/
  prepareError : Option String

/-- The argument of a lookup, and what the statement answers for each text. -/
structure Lookup where
  macAddress : String
  statement : String → OuiAnswer

/-- The constructor succeeds. -/
def Opening.succeeds (opening : Opening) : Bool :=
  opening.opened = .ok && opening.prepareError.isNone

/-- The exception for a database that cannot be opened. -/
def openError (dbPath error : String) : Exn :=
  .std ("Failed to open OUI database '" ++ dbPath ++ "': " ++ error)

/-- The constructor. -/
def construct (n : ℕ) (opening : Opening) : Except Exn OUIDatabase × List SqliteCall :=
  match opening.opened with
  | .noConnection => (.error (openError opening.dbPath "unknown error"), [.openV2 none])
  | .failed text =>
    (.error (openError opening.dbPath text),
      [.openV2 (some n), .errmsg (some n), .close (some n)])
  | .ok =>
    match opening.prepareError with
    | some text =>
      (.error (.std ("Failed to prepare OUI lookup statement: " ++ text)),
        [.openV2 (some n), .exec (some n), .prepareV2 (some n) false, .errmsg (some n),
          .close (some n)])
    | none =>
      (.ok { db := some n, lookupStmt := some n, isOpen := true },
        [.openV2 (some n), .exec (some n), .prepareV2 (some n) true])

/-- `lookup_stmt_` is reset, or destroyed: its deleter finalizes the statement, if it has one. -/
def resetStmt (stmt : Option ℕ) : List SqliteCall :=
  match stmt with
  | some n => [.finalize (some n)]
  | none => []

variable (d other : OUIDatabase)

/-- An open database is closed, its statement first. -/
def closeIfOpen : OUIDatabase × List SqliteCall :=
  if d.isOpen then ({ d with lookupStmt := none }, resetStmt d.lookupStmt ++ [.close d.db])
  else (d, [])

/-- The destructor, and those of the members after it. -/
def destroy : List SqliteCall :=
  let closed := d.closeIfOpen
  closed.2 ++ resetStmt closed.1.lookupStmt

/-- The move constructor: the new database, and what is left of the other. -/
def moveConstruct : OUIDatabase × OUIDatabase :=
  ({ db := other.db, lookupStmt := other.lookupStmt, isOpen := other.isOpen },
    { db := none, lookupStmt := none, isOpen := false })

/-- The move assignment, where `same` says that the two are one object. -/
def moveAssign (same : Bool) : (OUIDatabase × OUIDatabase) × List SqliteCall :=
  if !same then
    let closed := d.closeIfOpen
    -- assigning to `lookup_stmt_` resets what it still has
    (({ db := other.db, lookupStmt := other.lookupStmt, isOpen := other.isOpen },
      { db := none, lookupStmt := none, isOpen := false }),
      closed.2 ++ resetStmt closed.1.lookupStmt)
  else ((d, other), [])

/-- The calls that `lookup` makes. -/
def lookupCalls (l : Lookup) : List SqliteCall :=
  if !d.isOpen then []
  else if (normalizeMacAddress l.macAddress).length ≠ 12 then []
  else
    let oui := extractOui (normalizeMacAddress l.macAddress)
    [.reset d.lookupStmt, .clearBindings d.lookupStmt, .bindText d.lookupStmt oui] ++
      match l.statement oui with
      | .bindError _ => [.errmsg d.db]
      | .row _ => .step d.lookupStmt :: ouiColumns.map fun col => .columnText d.lookupStmt col.1
      | .done => [.step d.lookupStmt]
      | .failed _ => [.step d.lookupStmt, .errmsg d.db]

/-- The class. -/
def moveClass : MoveClass OUIDatabase Opening Lookup (Except Exn Json) Exn SqliteCall where
  construct := construct
  moveConstruct := moveConstruct
  moveAssign same d other := d.moveAssign other same
  use d l := (lookup (.answered d.isOpen l.statement) l.macAddress, d.lookupCalls l)
  destroy := destroy

/-- The answer of a database that has been moved from. -/
def notOpen (_ : Lookup) : Except Exn Json :=
  .ok (Json.null.set "error" (.string "Database not open"))

/-- A database that has been moved from has nothing, and any other one a connection and the
    statement prepared on it. -/
def Valid : Prop :=
  d = { db := none, lookupStmt := none, isOpen := false } ∨
    ∃ n, d = { db := some n, lookupStmt := some n, isOpen := true }

variable {d other}

/-- Closing a database releases what it has, and leaves no statement behind. -/
theorem givesUp_close (h : d.Valid) : GivesUp 2 d.db
    ((d.closeIfOpen.2 ++ resetStmt d.closeIfOpen.1.lookupStmt).filterMap SqliteCall.event) := by
  rcases h with rfl | ⟨n, rfl⟩
  · exact rfl
  · exact .release (.release (.nil 0))

/-- A lookup uses the statement of an open database, and its connection for the texts of errors. -/
theorem event_lookupCalls (h : d.Valid) (l : Lookup) : ∀ call ∈ d.lookupCalls l,
    ∃ n level, d.db = some n ∧ level < 2 ∧ call.event = some (.use ⟨n, level⟩) := by
  rcases h with rfl | ⟨n, rfl⟩
  · exact List.forall_mem_nil _
  · have hdb {call : SqliteCall} (hevent : call.event = some (.use ⟨n, 0⟩)) :
        ∃ m level, some n = some m ∧ level < 2 ∧ call.event = some (.use ⟨m, level⟩) :=
      ⟨n, 0, rfl, Nat.zero_lt_two, hevent⟩
    have hstmt {call : SqliteCall} (hevent : call.event = some (.use ⟨n, 1⟩)) :
        ∃ m level, some n = some m ∧ level < 2 ∧ call.event = some (.use ⟨m, level⟩) :=
      ⟨n, 1, rfl, Nat.one_lt_two, hevent⟩
    rw [lookupCalls]
    split
    · exact List.forall_mem_nil _
    split
    · exact List.forall_mem_nil _
    · dsimp only
      refine List.forall_mem_append.2 ⟨List.forall_mem_cons.2 ⟨hstmt rfl,
        List.forall_mem_cons.2 ⟨hstmt rfl, List.forall_mem_singleton.2 (hstmt rfl)⟩⟩, ?_⟩
      rcases l.statement (extractOui (normalizeMacAddress l.macAddress)) with
        text | column | _ | text
      · exact List.forall_mem_singleton.2 (hdb rfl)
      · exact List.forall_mem_cons.2 ⟨hstmt rfl, List.forall_mem_map.2 fun _ _ => hstmt rfl⟩
      · exact List.forall_mem_singleton.2 (hstmt rfl)
      · exact List.forall_mem_cons.2 ⟨hstmt rfl, List.forall_mem_singleton.2 (hdb rfl)⟩

theorem owns : moveClass.Owns SqliteCall.event db 2 Opening.succeeds Valid notOpen where
  construct_ok n opening d h := by
    obtain ⟨dbPath, opened, prepareError⟩ := opening
    rcases opened with _ | text | _
    · rcases prepareError with _ | text
      · obtain rfl := Except.ok.inj h
        exact ⟨rfl, .inr ⟨n, rfl⟩, rfl⟩
      · cases h
    · cases h
    · cases h
  construct_error n opening e h := by
    obtain ⟨dbPath, opened, prepareError⟩ := opening
    rcases opened with _ | text | _
    · rcases prepareError with _ | text
      · cases h
      · rfl
    · rfl
    · rfl
  construct_events n opening := by
    obtain ⟨dbPath, opened, prepareError⟩ := opening
    have hone : (0 : ℕ) < 1 := Nat.one_pos
    rcases opened with _ | text | _
    · rcases prepareError with _ | text
      · exact .acquire (.use hone (.acquire (.nil 2)))
      · exact ⟨1, Nat.le_succ 1, _, _, rfl,
          .acquire (.use hone (.use hone (.use hone (.nil 1)))), .release (.nil 0)⟩
    · exact ⟨1, Nat.le_succ 1, _, _, rfl, .acquire (.use hone (.nil 1)), .release (.nil 0)⟩
    · exact ⟨0, Nat.zero_le 2, [], [], rfl, .nil 0, .nil 0⟩
  moveConstruct d h := ⟨h, .inl rfl, rfl, rfl⟩
  selfAssign d := rfl
  moveAssign d other h hother := ⟨hother, .inl rfl, rfl, rfl, givesUp_close h⟩
  use d l h := event_lookupCalls h l
  use_empty d l h hdb := by
    rcases h with rfl | ⟨n, rfl⟩
    · rfl
    · cases hdb
  destroy d h := givesUp_close h

end OUIDatabase

/-! ## MaxMind databases -/

/-- A call of the MaxMind library. -/
inductive MmdbCall
  /-- with the file it maps, if it succeeds -/
  | mmdbOpen (mmdb : Option ℕ)
  | mmdbLookupString (mmdb : Option ℕ)
  | mmdbAgetValue (mmdb : Option ℕ) (path : List String)
  | mmdbClose (mmdb : Option ℕ)
  deriving DecidableEq

/-- What a call does to a mapped file. -/
def MmdbCall.event : MmdbCall → Option ResourceEvent
  | .mmdbOpen mmdb => mmdb.map fun n => .acquire ⟨n, 0⟩
  | .mmdbLookupString mmdb => mmdb.map fun n => .use ⟨n, 0⟩
  | .mmdbAgetValue mmdb _ => mmdb.map fun n => .use ⟨n, 0⟩
  | .mmdbClose mmdb => mmdb.map fun n => .release ⟨n, 0⟩

/-- The MaxMind database, by its members. -/
structure MaxMindDatabase where
  mmdb : Option ℕ
  isOpen : Bool
  deriving DecidableEq

namespace MaxMindDatabase

/-- The argument of the constructor, and the text of the error if the file cannot be opened. -/
structure Opening where
  dbPath : String
  openError : Option String

/-- The classes of databases. -/
inductive Kind
  | city
  | asn
  deriving DecidableEq

/-- The argument of a lookup, the class it is called on, and what the library answers. -/
structure Lookup where
  kind : Kind
  ipAddress : String
  answer : MmdbAnswer

/-- The paths that are read of an entry. -/
def Kind.paths : Kind → List (List String)
  | .city =>
    [["country", "names", "en"], ["country", "iso_code"], ["city", "names", "en"],
      ["continent", "names", "en"], ["location", "latitude"], ["location", "longitude"],
      ["location", "time_zone"]]
  | .asn => [["autonomous_system_organization"], ["autonomous_system_number"]]

/-- The lookup of a class. -/
def Kind.lookup : Kind → MmdbQuery → String → Except Exn Json
  | .city => CityDatabase.lookup
  | .asn => ASNDatabase.lookup

/-- The constructor succeeds. -/
def Opening.succeeds (opening : Opening) : Bool := opening.openError.isNone

/-- The constructor. -/
def construct (n : ℕ) (opening : Opening) : Except Exn MaxMindDatabase × List MmdbCall :=
  match opening.openError with
  | some text =>
    (.error (.std ("Failed to open MaxMind DB '" ++ opening.dbPath ++ "': " ++ text)),
      [.mmdbOpen none])
  | none => (.ok { mmdb := some n, isOpen := true }, [.mmdbOpen (some n)])

variable (d other : MaxMindDatabase)

/-- The destructor. -/
def destroy : List MmdbCall := if d.isOpen then [.mmdbClose d.mmdb] else []

/-- The move constructor: the new database, and what is left of the other. -/
def moveConstruct : MaxMindDatabase × MaxMindDatabase :=
  ({ mmdb := other.mmdb, isOpen := other.isOpen }, { mmdb := none, isOpen := false })

/-- The move assignment, where `same` says that the two are one object. -/
def moveAssign (same : Bool) : (MaxMindDatabase × MaxMindDatabase) × List MmdbCall :=
  if !same then
    (({ mmdb := other.mmdb, isOpen := other.isOpen }, { mmdb := none, isOpen := false }),
      if d.isOpen then [.mmdbClose d.mmdb] else [])
  else ((d, other), [])

/-- The calls that `perform_lookup` makes, and those of `get_value` if there is an entry. -/
def lookupCalls (l : Lookup) : List MmdbCall :=
  if !d.isOpen then []
  else
    .mmdbLookupString d.mmdb ::
      match l.answer with
      | .found _ => l.kind.paths.map fun path => .mmdbAgetValue d.mmdb path
      | _ => []

/-- The class. -/
def moveClass : MoveClass MaxMindDatabase Opening Lookup (Except Exn Json) Exn MmdbCall where
  construct := construct
  moveConstruct := moveConstruct
  moveAssign same d other := d.moveAssign other same
  use d l := (l.kind.lookup (.answered d.isOpen l.answer) l.ipAddress, d.lookupCalls l)
  destroy := destroy

/-- The answer of a database that has been moved from. -/
def notOpen (l : Lookup) : Except Exn Json :=
  .ok (databaseError l.ipAddress "Database not open")

/-- A database that has been moved from has nothing, and any other one a mapped file. -/
def Valid : Prop :=
  d = { mmdb := none, isOpen := false } ∨ ∃ n, d = { mmdb := some n, isOpen := true }

variable {d other}

theorem givesUp_destroy (h : d.Valid) :
    GivesUp 1 d.mmdb (d.destroy.filterMap MmdbCall.event) := by
  rcases h with rfl | ⟨n, rfl⟩
  · exact rfl
  · exact .release (.nil 0)

/-- A lookup uses the file of an open database. -/
theorem event_lookupCalls (h : d.Valid) (l : Lookup) : ∀ call ∈ d.lookupCalls l,
    ∃ n level, d.mmdb = some n ∧ level < 1 ∧ call.event = some (.use ⟨n, level⟩) := by
  rcases h with rfl | ⟨n, rfl⟩
  · exact List.forall_mem_nil _
  · have hmmdb {call : MmdbCall} (hevent : call.event = some (.use ⟨n, 0⟩)) :
        ∃ m level, some n = some m ∧ level < 1 ∧ call.event = some (.use ⟨m, level⟩) :=
      ⟨n, 0, rfl, Nat.one_pos, hevent⟩
    refine List.forall_mem_cons.2 ⟨hmmdb rfl, ?_⟩
    rcases l.answer with _ | text | _ | entry
    · exact List.forall_mem_nil _
    · exact List.forall_mem_nil _
    · exact List.forall_mem_nil _
    · exact List.forall_mem_map.2 fun _ _ => hmmdb rfl

theorem owns : moveClass.Owns MmdbCall.event mmdb 1 Opening.succeeds Valid notOpen where
  construct_ok n opening d h := by
    obtain ⟨dbPath, _ | text⟩ := opening
    · obtain rfl := Except.ok.inj h
      exact ⟨rfl, .inr ⟨n, rfl⟩, rfl⟩
    · cases h
  construct_error n opening e h := by
    obtain ⟨dbPath, _ | text⟩ := opening
    · cases h
    · rfl
  construct_events n opening := by
    obtain ⟨dbPath, _ | text⟩ := opening
    · exact .acquire (.nil 1)
    · exact ⟨0, Nat.zero_le 1, [], [], rfl, .nil 0, .nil 0⟩
  moveConstruct d h := ⟨h, .inl rfl, rfl, rfl⟩
  selfAssign d := rfl
  moveAssign d other h hother := ⟨hother, .inl rfl, rfl, rfl, givesUp_destroy h⟩
  use d l h := event_lookupCalls h l
  use_empty d l h hmmdb := by
    rcases h with rfl | ⟨n, rfl⟩
    · obtain ⟨_ | _, ipAddress, answer⟩ := l
      · rfl
      · rfl
    · cases hmmdb
  destroy d h := givesUp_destroy h

end MaxMindDatabase

/-! ## Both -/

/-- Which calls open a handle, and which close one. -/
theorem SqliteCall.event_eq_acquire {n level : ℕ} {call : SqliteCall} :
    call.event = some (.acquire ⟨n, level⟩) ↔
      level = 0 ∧ call = .openV2 (some n) ∨ level = 1 ∧ call = .prepareV2 (some n) true := by
  rcases call with db | db | ⟨db, _ | _⟩ | db | db | stmt | stmt | stmt | stmt | ⟨stmt, column⟩ |
    stmt <;> simp [event, and_comm, eq_comm]

theorem SqliteCall.event_eq_release {n level : ℕ} {call : SqliteCall} :
    call.event = some (.release ⟨n, level⟩) ↔
      level = 0 ∧ call = .close (some n) ∨ level = 1 ∧ call = .finalize (some n) := by
  rcases call with db | db | ⟨db, _ | _⟩ | db | db | stmt | stmt | stmt | stmt | ⟨stmt, column⟩ |
    stmt <;> simp [event, and_comm, eq_comm]

theorem MmdbCall.event_eq_acquire {n : ℕ} {call : MmdbCall} :
    call.event = some (.acquire ⟨n, 0⟩) ↔ call = .mmdbOpen (some n) := by
  rcases call with mmdb | mmdb | ⟨mmdb, path⟩ | mmdb <;> simp [event]

theorem MmdbCall.event_eq_release {n : ℕ} {call : MmdbCall} :
    call.event = some (.release ⟨n, 0⟩) ↔ call = .mmdbClose (some n) := by
  rcases call with mmdb | mmdb | ⟨mmdb, path⟩ | mmdb <;> simp [event]

variable {ι : Type*} [DecidableEq ι]

namespace OUIDatabase

variable (ops : List (ObjectOp ι Opening Lookup))

theorem closedOnce_db : moveClass.ClosedOnce db ops (fun n => .openV2 (some n))
    fun n => .close (some n) :=
  (owns.safe ops).closedOnce 0 (fun n call => by simp [SqliteCall.event_eq_acquire])
    fun n call => by simp [SqliteCall.event_eq_release]

theorem closedOnce_lookupStmt : moveClass.ClosedOnce db ops (fun n => .prepareV2 (some n) true)
    fun n => .finalize (some n) :=
  (owns.safe ops).closedOnce 1 (fun n call => by simp [SqliteCall.event_eq_acquire])
    fun n call => by simp [SqliteCall.event_eq_release]

variable {ops}

/-- A statement has been finalized when its connection is closed. -/
theorem finalize_mem {pre post : List SqliteCall} {n : ℕ}
    (hcalls : moveClass.calls ops = pre ++ .close (some n) :: post)
    (hprepared : .prepareV2 (some n) true ∈ pre) : .finalize (some n) ∈ pre := by
  have hopened : .acquire ⟨n, 1⟩ ∈ pre.filterMap SqliteCall.event :=
    List.mem_filterMap.2 ⟨_, hprepared, rfl⟩
  obtain ⟨call, hcall, hevent⟩ := List.mem_filterMap.1
    ((owns.safe ops).mem_of_append hcalls rfl Nat.one_pos hopened)
  rcases SqliteCall.event_eq_release.1 hevent with ⟨hlevel, -⟩ | ⟨-, rfl⟩
  · exact absurd hlevel Nat.one_ne_zero
  · exact hcall

end OUIDatabase

namespace MaxMindDatabase

theorem closedOnce_mmdb (ops : List (ObjectOp ι Opening Lookup)) :
    moveClass.ClosedOnce mmdb ops (fun n => .mmdbOpen (some n)) fun n => .mmdbClose (some n) :=
  (owns.safe ops).closedOnce 0 (fun _ _ => MmdbCall.event_eq_acquire)
    fun _ _ => MmdbCall.event_eq_release

end MaxMindDatabase

/-- Whatever databases are opened, moved, assigned, looked up in and destroyed: every handle that
    was opened is closed once, unless one database still has it, and closed by the one that has
    it last; a statement is finalized before its connection is closed; a lookup only uses handles
    that are open and its own; and in a database that has been moved from it answers that the
    database is not open, and uses none. -/
theorem handles_closed_once :
    (∀ ops : List (ObjectOp ι OUIDatabase.Opening OUIDatabase.Lookup),
      let c := OUIDatabase.moveClass
      c.Safe SqliteCall.event OUIDatabase.db OUIDatabase.Opening.succeeds OUIDatabase.notOpen ops ∧
      c.ClosedOnce OUIDatabase.db ops (fun n => .openV2 (some n)) (fun n => .close (some n)) ∧
      c.ClosedOnce OUIDatabase.db ops (fun n => .prepareV2 (some n) true)
        (fun n => .finalize (some n)) ∧
      ∀ pre n post, c.calls ops = pre ++ .close (some n) :: post →
        .prepareV2 (some n) true ∈ pre → .finalize (some n) ∈ pre) ∧
    ∀ ops : List (ObjectOp ι MaxMindDatabase.Opening MaxMindDatabase.Lookup),
      let c := MaxMindDatabase.moveClass
      c.Safe MmdbCall.event MaxMindDatabase.mmdb MaxMindDatabase.Opening.succeeds
        MaxMindDatabase.notOpen ops ∧
      c.ClosedOnce MaxMindDatabase.mmdb ops (fun n => .mmdbOpen (some n))
        fun n => .mmdbClose (some n) := by
  refine ⟨fun ops => ⟨OUIDatabase.owns.safe ops, OUIDatabase.closedOnce_db ops,
    OUIDatabase.closedOnce_lookupStmt ops, fun _ _ _ => OUIDatabase.finalize_mem⟩, fun ops => ?_⟩
  exact ⟨MaxMindDatabase.owns.safe ops, MaxMindDatabase.closedOnce_mmdb ops⟩

/-- A database that is moved and destroyed closes nothing, and the one it was moved to does. -/
example : OUIDatabase.moveClass.calls [.construct 0 ⟨"oui.db", .ok, none⟩, .moveConstruct 1 0,
      .use 0 ⟨"00:1A:2B:3C:4D:5E", fun _ => .done⟩, .destroy 0, .moveAssign 1 1, .destroy (1 : ℕ)] =
    [.openV2 (some 0), .exec (some 0), .prepareV2 (some 0) true, .finalize (some 0),
      .close (some 0)] := rfl

end IpServer
