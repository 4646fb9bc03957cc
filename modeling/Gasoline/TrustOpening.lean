import Gasoline.Interaction
import Gasoline.TrustStore

/-!
# Opening the trust store

The constructor of `TrustStore` as a program over the calls it makes: the
directory and the lock file, the inspection of the database file and of the
files SQLite keeps beside it, the creation of a new database, and the
pragmas, queries and schema statements it gives to SQLite. Each failed check
is a failure of the program with the message of the source; where the
message is SQLite's or the system's own it is left empty.

`TrustStorage.step` is the system that answers. It knows of a database what
the constructor can tell apart (`DatabaseImage`): the two header fields, what
`quick_check` says, whether the journal is a write-ahead log, and for each
table of the schema whether it is there, has the columns the store reads, and
with which rows. SQLite commits a transaction as a whole and durably
(`synchronous` is `FULL` before the first one), and it lets one connection
write at a time.

Calls that the source repeats after `EINTR`, and the `flock` it repeats until
its deadline, are one call here. A call that fails changes nothing.
-/

namespace Gasoline

/-! ## Databases -/

/-- `trust_schema::APPLICATION_ID`. -/
def trustApplicationId : ℤ := 0x47535452

/-- `trust_schema::VERSION`. -/
def trustVersion : ℤ := 2

/-- **What stands under the name of a table**: nothing, something that lacks
columns the store reads, or a table with these rows. -/
inductive StoredTable (R : Type)
  | missing
  | foreign
  | rows (list : List R)
  deriving DecidableEq, Repr

namespace StoredTable

variable {R : Type}

/-- `CREATE TABLE`. -/
def create : StoredTable R → Option (StoredTable R)
  | .missing => some (.rows [])
  | _ => none

/-- Whether a query over the columns the store reads can be prepared. -/
def readable : StoredTable R → Bool
  | .rows _ => true
  | _ => false

/-- The rows of a table that can be read. -/
def rows? : StoredTable R → Option (List R)
  | .rows list => some list
  | _ => none

end StoredTable

/-- **What a database file holds**, as far as the constructor can tell. -/
structure DatabaseImage where
  /-- Whether `PRAGMA quick_check` finds nothing. -/
  intact : Bool
  /-- Whether the journal mode is `WAL`. -/
  wal : Bool
  applicationId : ℤ
  userVersion : ℤ
  trustedDevices : StoredTable DeviceRow
  devicePermissions : StoredTable PermissionRow
  pairingAttempts : StoredTable AttemptRow
  /-- Whether there is an index `pairing_attempt_peer`. -/
  pairingAttemptPeer : Bool
  pairingAttemptPermissions : StoredTable PermissionRow
  deriving DecidableEq, Repr

namespace DatabaseImage

/-- What SQLite finds in an empty file. -/
def blank : DatabaseImage where
  intact := true
  wal := false
  applicationId := 0
  userVersion := 0
  trustedDevices := .missing
  devicePermissions := .missing
  pairingAttempts := .missing
  pairingAttemptPeer := false
  pairingAttemptPermissions := .missing

/-- The records, where all four tables can be read. -/
def database? (i : DatabaseImage) : Option Database := do
  let devices ← i.trustedDevices.rows?
  let permissions ← i.devicePermissions.rows?
  let attempts ← i.pairingAttempts.rows?
  let attemptPermissions ← i.pairingAttemptPermissions.rows?
  return ⟨devices, permissions, attempts, attemptPermissions⟩

/-- Other records in the four tables. -/
def withDatabase (i : DatabaseImage) (db : Database) : DatabaseImage :=
  { i with
    trustedDevices := .rows db.trustedDevices
    devicePermissions := .rows db.devicePermissions
    pairingAttempts := .rows db.pairingAttempts
    pairingAttemptPermissions := .rows db.pairingAttemptPermissions }

/-- Whether `PRAGMA foreign_key_check` reports a row of a permission table.
What it reports of a table that is not the schema's is not known. -/
def orphaned {R : Type} (key : R → SqlValue) (parents : StoredTable R)
    (children : StoredTable PermissionRow) : Option Bool :=
  match parents, children with
  | _, .missing => some false
  | .rows parents, .rows children =>
    some (children.any (fun c => c.owner != .null && !parents.any (fun r => key r == c.owner)))
  | .missing, .rows children => some (children.any (fun c => c.owner != .null))
  | _, _ => none

/-- Whether `PRAGMA foreign_key_check` reports a row. -/
def foreignKeyCheck (i : DatabaseImage) : Option Bool := do
  let devices ← orphaned DeviceRow.uuid i.trustedDevices i.devicePermissions
  let attempts ← orphaned AttemptRow.attemptId i.pairingAttempts i.pairingAttemptPermissions
  return devices || attempts

end DatabaseImage

/-- The statements of the migration. -/
inductive SchemaStatement
  | createTrustedDevices
  | createDevicePermissions
  | createPairingAttempts
  | createPairingAttemptPeer
  | createPairingAttemptPermissions
  /-- `PRAGMA application_id=`. -/
  | setApplicationId (value : ℤ)
  /-- `PRAGMA user_version=`. -/
  | setUserVersion (value : ℤ)
  deriving DecidableEq, Repr

namespace SchemaStatement

/-- What a statement does in the transaction, `none` where SQLite refuses
it. -/
def apply (i : DatabaseImage) : SchemaStatement → Option DatabaseImage
  | .createTrustedDevices =>
    i.trustedDevices.create.map (fun table => { i with trustedDevices := table })
  | .createDevicePermissions =>
    i.devicePermissions.create.map (fun table => { i with devicePermissions := table })
  | .createPairingAttempts =>
    i.pairingAttempts.create.map (fun table => { i with pairingAttempts := table })
  | .createPairingAttemptPeer =>
    if i.pairingAttempts.readable && !i.pairingAttemptPeer then
      some { i with pairingAttemptPeer := true }
    else none
  | .createPairingAttemptPermissions =>
    i.pairingAttemptPermissions.create.map
      (fun table => { i with pairingAttemptPermissions := table })
  | .setApplicationId value => some { i with applicationId := value }
  | .setUserVersion value => some { i with userVersion := value }

/-- `trust_schema::V1`. -/
def v1 : List SchemaStatement := [.createTrustedDevices, .createDevicePermissions]

/-- `trust_schema::V2`. -/
def v2 : List SchemaStatement :=
  [.createPairingAttempts, .createPairingAttemptPeer, .createPairingAttemptPermissions]

end SchemaStatement

/-! ## Calls -/

/-- The files SQLite keeps beside the database, by their suffixes `-wal`,
`-shm` and `-journal`. -/
inductive Sidecar
  | wal
  | shm
  | journal
  deriving DecidableEq, Repr

/-- The calls of the constructor. -/
inductive OpeningCall
  /-- `sqlite3_threadsafe` and `sqlite3_libversion_number`. -/
  | checkLibrary
  /-- `create_directories`, and `open`, `fstat`, `fchmod` and `F_DUPFD` of the
  state directory. -/
  | createDirectories
  | openDirectory
  | statDirectory
  | chmodDirectory
  | duplicateDirectory
  /-- `fsync` of the state directory. -/
  | syncDirectory
  /-- `fsync` of a directory above it. -/
  | syncAncestor
  | openAncestor
  | statAncestor
  /-- `std::filesystem::canonical`. -/
  | canonicalPath
  /-- `openat` and `fstatat` of the lock file. -/
  | openLock
  | inspectLock
  /-- `flock`, until it succeeds or its deadline passes. -/
  | lock
  /-- `fstatat` of the database and of a file beside it. -/
  | inspectDatabase
  | inspectSidecar (file : Sidecar)
  /-- `openat` with `O_CREAT | O_EXCL`, and `fchmod` and `fsync` of the new
  file. -/
  | createDatabase
  | chmodDatabase
  | syncDatabase
  /-- `sqlite3_open_v2`, without `SQLITE_OPEN_CREATE`. -/
  | openSqlite
  | extendedResultCodes
  | busyTimeout
  | defensive
  /-- `PRAGMA trusted_schema=OFF; PRAGMA foreign_keys=ON; PRAGMA temp_store=MEMORY;`. -/
  | configure
  | foreignKeys
  | quickCheck
  | userVersion
  | applicationId
  /-- `PRAGMA journal_mode=WAL`. -/
  | journalMode
  /-- `PRAGMA synchronous=FULL`, and `PRAGMA synchronous`. -/
  | setSynchronous
  | synchronous
  /-- `BEGIN IMMEDIATE`. -/
  | beginImmediate
  | execute (statement : SchemaStatement)
  | foreignKeyCheck
  /-- The queries over the columns of devices and of attempts. -/
  | selectDevices
  | selectAttempts
  /-- The query of `read_permissions`, of no device and of no attempt. -/
  | readPermissions (attempt : Bool)
  | commit
  deriving DecidableEq, Repr

/-- What a call returns. -/
inductive OpeningReply
  | ok
  | error
  /-- There is no such file. -/
  | absent
  /-- There is a file, but not a single-link, user-owned regular 0600 one. -/
  | improper
  | present (size : ℕ)
  | integer (value : ℤ)
  | text (value : String)
  /-- Whether the query has a row. -/
  | row (found : Bool)
  deriving DecidableEq, Repr

/-- A computation over the calls. -/
abbrev OpeningProg := Prog OpeningCall OpeningReply

namespace TrustOpening

/-- A call that returns nothing but whether it succeeded. -/
def perform (c : OpeningCall) (message : String) : OpeningProg Unit :=
  .call c (fun r => if r = .ok then .done () else .failed message)

/-- The loop of `sync_tree`, over the directories above the one it is at. -/
def syncTree (sync : OpeningCall) : ℕ → OpeningProg Unit
  | 0 => do
    perform sync "cannot synchronize storage directory"
    perform .openAncestor "cannot open storage handle"
    perform .statAncestor "cannot inspect storage ancestors"
  | above + 1 => do
    perform sync "cannot synchronize storage directory"
    perform .openAncestor "cannot open storage handle"
    perform .statAncestor "cannot inspect storage ancestors"
    syncTree .syncAncestor above

/-- `inspect_file`: the size of the file, if there is one. -/
def inspectFile (c : OpeningCall) : OpeningProg (Option ℕ) :=
  .call c (fun
    | .absent => .done none
    | .present size => .done (some size)
    | .improper =>
      .failed "database files must be single-link, user-owned regular 0600 files"
    | _ => .failed "cannot inspect database files")

/-- `pragma_integer`. -/
def pragmaInteger (c : OpeningCall) : OpeningProg ℤ :=
  .call c (fun
    | .integer value => .done value
    | .row false => .failed "missing pragma result"
    | _ => .failed "")

/-- `pragma_text`. -/
def pragmaText (c : OpeningCall) : OpeningProg String :=
  .call c (fun
    | .text value => .done value
    | .integer _ => .failed "invalid stored text"
    | .row false => .failed "missing pragma result"
    | _ => .failed "")

/-- `execute`, of several statements in one string: the first one that
fails ends it. -/
def executeAll : List SchemaStatement → OpeningProg Unit
  | [] => .done ()
  | statement :: rest => do
    perform (.execute statement) ""
    executeAll rest

/-- `require`. -/
def demand (condition : Bool) (message : String) : OpeningProg Unit :=
  if condition then .done () else .failed message

/-- The state directory: created, secured and synced. -/
def openStateDirectory (above : ℕ) : OpeningProg Unit := do
  perform .createDirectories "cannot create state directory"
  perform .openDirectory "cannot open storage handle"
  perform .statDirectory "state directory must be user-owned"
  perform .chmodDirectory "cannot secure state directory"
  perform .duplicateDirectory "cannot open storage handle"
  syncTree .syncDirectory above
  perform .canonicalPath ""

/-- The lock file, and the lock. -/
def acquireLock : OpeningProg Unit := do
  perform .openLock "cannot open storage handle"
  let _ ← inspectFile .inspectLock
  perform .lock "cannot acquire database initialization lock"

/-- The loop over the files beside the database: whether there is one. -/
def inspectSidecars : List Sidecar → Bool → OpeningProg Bool
  | [], sidecar => .done sidecar
  | file :: rest, sidecar => do
    let found ← inspectFile (.inspectSidecar file)
    inspectSidecars rest (found.isSome || sidecar)

/-- The three suffixes, in the order of the source. -/
def sidecars : List Sidecar := [.wal, .shm, .journal]

/-- The database file: whether there was one, which must be long enough for
a header. Otherwise a new one is created and synced. -/
def prepareDatabase : OpeningProg Bool := do
  let size ← inspectFile .inspectDatabase
  let sidecar ← inspectSidecars sidecars false
  demand (size.isSome || !sidecar) "database is missing but SQLite recovery files remain"
  match size with
  | some size =>
    demand (decide (100 ≤ size)) "database is truncated or initialization was interrupted"
    return true
  | none =>
    perform .createDatabase "cannot open storage handle"
    perform .chmodDatabase "cannot secure database file"
    perform .syncDatabase "cannot synchronize storage directory"
    perform .syncDirectory "cannot synchronize storage directory"
    return false

/-- Whether the two header fields are those of a database the constructor
may open. -/
def recognized (existing : Bool) (app version : ℤ) : Bool :=
  if existing then
    app == trustApplicationId && decide (1 ≤ version) && decide (version ≤ trustVersion)
  else app == 0 && version == 0

/-- The connection: opened, configured and checked. It returns the version
of the schema. -/
def connect (existing : Bool) : OpeningProg ℤ := do
  perform .openSqlite "cannot open SQLite database"
  perform .extendedResultCodes ""
  perform .busyTimeout ""
  perform .defensive ""
  perform .configure ""
  let foreignKeys ← pragmaInteger .foreignKeys
  demand (foreignKeys == 1) "SQLite foreign keys unavailable"
  let check ← pragmaText .quickCheck
  demand (check == "ok") "database integrity check failed"
  let version ← pragmaInteger .userVersion
  let app ← pragmaInteger .applicationId
  demand (recognized existing app version) "unrecognized database or unsupported schema version"
  let journal ← pragmaText .journalMode
  demand (journal == "wal") "SQLite WAL mode unavailable"
  perform .setSynchronous ""
  let synchronous ← pragmaInteger .synchronous
  demand (synchronous == 2) "SQLite FULL synchronization unavailable"
  return version

/-- `check_files`. -/
def checkFiles : OpeningProg Unit := do
  let size ← inspectFile .inspectDatabase
  demand size.isSome "established database is missing"
  let _ ← inspectSidecars sidecars false

/-- The schema statements that a database of a version lacks. -/
def migration (version : ℤ) : List SchemaStatement :=
  (if version < 1 then SchemaStatement.v1 else [])
    ++ (if version < 2 then SchemaStatement.v2 else [])
    ++ [.setApplicationId trustApplicationId, .setUserVersion trustVersion]

/-- The block of the migration transaction. -/
def migrate (version : ℤ) : OpeningProg Unit := do
  perform .beginImmediate ""
  executeAll (migration version)
  let violated ← (.call .foreignKeyCheck (fun
    | .row found => .done found
    | _ => .failed "") : OpeningProg Bool)
  demand (!violated) "database has foreign-key violations"
  perform .selectDevices ""
  perform .selectAttempts ""
  perform (.readPermissions false) ""
  perform (.readPermissions true) ""
  checkFiles
  perform .commit ""

/-- **The constructor**, of a file name in a directory with `above`
directories above it. -/
def openStore (filename : Bytes) (above : ℕ) : OpeningProg Unit := do
  perform .checkLibrary "a thread-safe SQLite >= 3.37.0 is required"
  demand (!(filename.isEmpty || filename == ascii "." || filename == ascii ".."))
    "invalid database filename"
  openStateDirectory above
  acquireLock
  let existing ← prepareDatabase
  let version ← connect existing
  migrate version
  perform .syncDirectory "cannot synchronize storage directory"

end TrustOpening

/-! ## The system -/

/-- **A file under the database's name**: too short for a header, or one that
SQLite reads. -/
inductive DatabaseFile
  | short (size : Fin 100)
  | image (contents : DatabaseImage)
  deriving DecidableEq, Repr

namespace DatabaseFile

/-- A file that was just created. -/
abbrev empty : DatabaseFile := .short 0

/-- What SQLite reads in the file. -/
def read : DatabaseFile → DatabaseImage
  | .short _ => .blank
  | .image contents => contents

/-- Whether `fstatat` may report the size. -/
def hasSize (size : ℕ) : DatabaseFile → Bool
  | .short n => size == n.val
  | .image _ => decide (100 ≤ size)

end DatabaseFile

/-- The state directory with the database, the lock, and the transaction
under way. -/
structure TrustStorage where
  database : Option DatabaseFile
  /-- Whether the name of the database is as a power loss would leave it. -/
  named : Bool
  sidecar : Sidecar → Bool
  /-- Whether SQLite has had the database open. -/
  ran : Bool
  /-- The process that holds the initialization lock. -/
  holder : Option ℕ
  /-- The process that writes, and what it has made of the database. -/
  writer : Option (ℕ × DatabaseImage)
  /-- The operations that have returned, in order. -/
  committed : List StoreEvent

namespace TrustStorage

/-- What SQLite reads of the database. -/
def read (s : TrustStorage) : DatabaseImage := (s.database.map DatabaseFile.read).getD .blank

/-- What the transaction of a process sees. -/
def working (s : TrustStorage) (process : ℕ) : Option DatabaseImage :=
  s.writer.bind (fun w => if w.1 = process then some w.2 else none)

/-- A reply that leaves everything as it is, where it is one the system
gives. -/
def answer (s : TrustStorage) (condition : Bool) : Option TrustStorage :=
  if condition then some s else none

/-- **How the system answers a call of a process**: the state it leaves, or
`none` where the reply is not one it gives. -/
def step (process : ℕ) (s : TrustStorage) (c : OpeningCall) (r : OpeningReply) :
    Option TrustStorage :=
  match c, r with
  -- any call may fail, and then changes nothing
  | _, .error => some s
  | .syncDirectory, .ok => some { s with named := true }
  | .lock, .ok => if s.holder = none then some { s with holder := some process } else none
  | .inspectLock, .present _ => some s
  | .inspectLock, .absent => some s
  | .inspectLock, .improper => some s
  | .inspectDatabase, .absent => s.answer s.database.isNone
  | .inspectDatabase, .present size => s.answer (s.database.any (DatabaseFile.hasSize size))
  | .inspectDatabase, .improper => s.answer s.database.isSome
  | .inspectSidecar file, .absent => s.answer (!s.sidecar file)
  | .inspectSidecar file, .present _ => s.answer (s.sidecar file)
  | .inspectSidecar file, .improper => s.answer (s.sidecar file)
  | .createDatabase, .ok =>
    if s.database = none then some { s with database := some .empty, named := false }
    else none
  | .openSqlite, .ok => if s.database.isSome then some { s with ran := true } else none
  | .foreignKeys, .integer _ => some s
  | .quickCheck, .text value => s.answer ((value == "ok") == s.read.intact)
  | .userVersion, .integer value => s.answer (value == s.read.userVersion)
  | .applicationId, .integer value => s.answer (value == s.read.applicationId)
  | .journalMode, .text value =>
    if value = "wal" then some { s with database := some (.image { s.read with wal := true }) }
    else some s
  | .synchronous, .integer _ => some s
  | .beginImmediate, .ok =>
    if s.writer = none then some { s with writer := some (process, s.read) } else none
  | .execute statement, .ok =>
    ((s.working process).bind (fun w => statement.apply w)).map (fun w =>
      { s with writer := some (process, w) })
  | .foreignKeyCheck, .row found =>
    s.answer ((s.working process).any (fun w => w.foreignKeyCheck.all (· == found)))
  | .selectDevices, .ok => s.answer ((s.working process).any (·.trustedDevices.readable))
  | .selectAttempts, .ok => s.answer ((s.working process).any (·.pairingAttempts.readable))
  | .readPermissions attempt, .ok =>
    s.answer ((s.working process).any (fun w =>
      if attempt then w.pairingAttemptPermissions.readable
      else w.devicePermissions.readable && w.trustedDevices.readable))
  | .commit, .ok =>
    (s.working process).map (fun w => { s with database := some (.image w), writer := none })
  | .checkLibrary, .ok => some s
  | .createDirectories, .ok => some s
  | .openDirectory, .ok => some s
  | .statDirectory, .ok => some s
  | .chmodDirectory, .ok => some s
  | .duplicateDirectory, .ok => some s
  | .syncAncestor, .ok => some s
  | .openAncestor, .ok => some s
  | .statAncestor, .ok => some s
  | .canonicalPath, .ok => some s
  | .openLock, .ok => some s
  | .chmodDatabase, .ok => some s
  | .syncDatabase, .ok => some s
  | .extendedResultCodes, .ok => some s
  | .busyTimeout, .ok => some s
  | .defensive, .ok => some s
  | .configure, .ok => some s
  | .setSynchronous, .ok => some s
  | _, _ => none

end TrustStorage

end Gasoline
