import Gasoline.Bytes

/-!
# The trust database

The trust store keeps its records in four SQLite tables. This module is the
part of SQLite the store uses: values, rows, the constraints of the schema
(`STRICT` typing, `NOT NULL`, `CHECK`, `PRIMARY KEY`, `UNIQUE`, foreign
keys with `ON DELETE CASCADE`), and the statements the store runs on them.

A prepared statement refers to what was bound to it by number, and a
`SELECT` is read back by column number. Both numberings are kept: `Params`
is what `bind` has stored so far, the rows of a table are built from it by
position, and a selected row is read through its `column` function. What
ties the two together is proved, not assumed.
-/

namespace Gasoline

/-- A device or attempt UUID, `std::array<unsigned char, 16>`. -/
abbrev TrustUuid := List.Vector UInt8 16

/-- An Ed25519 public key, `std::array<unsigned char, 32>`. -/
abbrev TrustPublicKey := List.Vector UInt8 32

/-- A value of a SQLite column. What a floating-point value is does not
matter: no column of the schema admits one. -/
inductive SqlValue
  | null
  | integer (value : Int64)
  | real
  | text (value : Bytes)
  | blob (value : Bytes)
  deriving DecidableEq, Repr

/-- The constraints a statement can violate. -/
inductive SqlConstraint
  | check
  | primaryKey
  | unique
  | foreignKey
  deriving DecidableEq, Repr

/-- `TrustStoreError`: a check of the store's own, with its message, or an
error of SQLite. -/
inductive StoreError
  | rejected (message : String)
  | sqlite (violated : SqlConstraint)
  deriving DecidableEq, Repr

/-- `require`. -/
def require (condition : Bool) (message : String) : Except StoreError Unit :=
  if condition then .ok () else .error (.rejected message)

namespace SqlValue

/-- SQLite's `length` of a text: how many characters, where a lead byte and
the continuation bytes behind it are one. -/
def characters : Bytes → ℕ
  | [] => 0
  | b :: rest => go (decide (0xc0 ≤ b)) rest + 1
where
  /-- The characters that start in `rest`; `inside` says whether a
  continuation byte still belongs to the character before it. -/
  go (inside : Bool) : Bytes → ℕ
    | [] => 0
    | b :: rest =>
      if inside && (0x80 ≤ b && b < 0xc0) then go true rest
      else go (decide (0xc0 ≤ b)) rest + 1

/-- A `BLOB NOT NULL` of a given length. -/
def isBlob (length : ℕ) : SqlValue → Bool
  | .blob b => b.length == length
  | _ => false

/-- A `TEXT NOT NULL` whose length satisfies `p`. -/
def isText (p : ℕ → Bool) : SqlValue → Bool
  | .text t => p (characters t)
  | _ => false

/-- An `INTEGER NOT NULL` that satisfies `p`. -/
def isInteger (p : Int64 → Bool) : SqlValue → Bool
  | .integer i => p i
  | _ => false

/-- A nullable `INTEGER`. -/
def isNullableInteger : SqlValue → Bool
  | .null => true
  | .integer _ => true
  | _ => false

/-- `a = b` in a `WHERE` clause: never true of a null. -/
def equals (a b : SqlValue) : Bool := decide (a ≠ .null ∧ a = b)

/-- `a >= b` of two integers: not true of a null. -/
def atLeast : SqlValue → SqlValue → Bool
  | .integer a, .integer b => decide (b ≤ a)
  | _, _ => false

/-- `a + 1`: SQLite turns an integer that would overflow into a
floating-point value. -/
def succ : SqlValue → SqlValue
  | .integer i => if i = Int64.maxValue then .real else .integer (i + 1)
  | .real => .real
  | _ => .null

end SqlValue

/-! ## Binding -/

/-- What has been bound to a statement, by parameter number. -/
abbrev Params := ℕ → SqlValue

namespace Params

/-- A statement with nothing bound. -/
def empty : Params := fun _ => .null

/-- Bind a value to a parameter. -/
def bind (p : Params) (index : ℕ) (value : SqlValue) : Params := Function.update p index value

/-- Bind an optional integer. -/
def bindOptional (p : Params) (index : ℕ) : Option Int64 → Params
  | some i => p.bind index (.integer i)
  | none => p.bind index .null

/-- The texts the store binds: at most 4096 bytes, none of them NUL. -/
def validText (value : Bytes) : Bool := decide (value.length ≤ 4096) && !value.contains 0

/-- Bind a text, checking it first. -/
def bindText (p : Params) (index : ℕ) (value : Bytes) : Except StoreError Params := do
  require (validText value) "invalid text field"
  return p.bind index (.text value)

end Params

/-! ## Rows -/

/-- A row of `trusted_devices`, in the order of its columns. -/
structure DeviceRow where
  uuid : SqlValue
  publicKey : SqlValue
  status : SqlValue
  revision : SqlValue
  localAlias : SqlValue
  peerName : SqlValue
  peerPlatform : SqlValue
  pairingMethod : SqlValue
  pairedAt : SqlValue
  revokedAt : SqlValue
  lastAuthenticatedAt : SqlValue
  deriving DecidableEq, Repr

/-- A row of `pairing_attempts`, in the order of its columns. -/
structure AttemptRow where
  attemptId : SqlValue
  peerUuid : SqlValue
  peerPublicKey : SqlValue
  status : SqlValue
  revision : SqlValue
  localConfirmed : SqlValue
  peerConfirmed : SqlValue
  createdAt : SqlValue
  updatedAt : SqlValue
  expiresAt : SqlValue
  deriving DecidableEq, Repr

/-- A row of `device_permissions` or of `pairing_attempt_permissions`. -/
structure PermissionRow where
  owner : SqlValue
  permission : SqlValue
  deriving DecidableEq, Repr

namespace DeviceRow

/-- `INSERT INTO trusted_devices VALUES(?,?,?,?,?,?,?,?,?,?,?)`. -/
def ofParams (p : Params) : DeviceRow :=
  ⟨p 1, p 2, p 3, p 4, p 5, p 6, p 7, p 8, p 9, p 10, p 11⟩

/-- The column list of every `SELECT` that is read back as a device,
`DEVICE_COLUMNS`. -/
def column (r : DeviceRow) (index : ℕ) : SqlValue :=
  [r.uuid, r.publicKey, r.status, r.revision, r.localAlias, r.peerName, r.peerPlatform,
    r.pairingMethod, r.pairedAt, r.revokedAt, r.lastAuthenticatedAt].getD index .null

/-- The constraints of a single row. -/
def check (r : DeviceRow) : Bool :=
  r.uuid.isBlob 16 && r.publicKey.isBlob 32
    && (r.status == .text (ascii "ACTIVE") || r.status == .text (ascii "REVOKED"))
    && r.revision.isInteger (fun i => decide (1 ≤ i))
    && r.localAlias.isText (fun n => decide (n ≤ 256))
    && r.peerName.isText (fun n => decide (n ≤ 256))
    && r.peerPlatform.isText (fun n => decide (n ≤ 64))
    && r.pairingMethod.isText (fun n => decide (1 ≤ n) && decide (n ≤ 64))
    && r.pairedAt.isInteger (fun i => decide (0 ≤ i))
    && r.revokedAt.isNullableInteger && r.lastAuthenticatedAt.isNullableInteger
    && ((r.status == .text (ascii "ACTIVE") && r.revokedAt == .null)
      || (r.status == .text (ascii "REVOKED") && r.revokedAt != .null
        && r.revokedAt.atLeast r.pairedAt))
    && (r.lastAuthenticatedAt == .null || r.lastAuthenticatedAt.atLeast r.pairedAt)

end DeviceRow

namespace AttemptRow

/-- `INSERT INTO pairing_attempts VALUES(?,?,?,?,?,?,?,?,?,?)`. -/
def ofParams (p : Params) : AttemptRow :=
  ⟨p 1, p 2, p 3, p 4, p 5, p 6, p 7, p 8, p 9, p 10⟩

/-- The column list of the `SELECT` of `find_attempt`. -/
def column (r : AttemptRow) (index : ℕ) : SqlValue :=
  [r.attemptId, r.peerUuid, r.peerPublicKey, r.status, r.revision, r.localConfirmed,
    r.peerConfirmed, r.createdAt, r.updatedAt, r.expiresAt].getD index .null

/-- The constraints of a single row. -/
def check (r : AttemptRow) : Bool :=
  r.attemptId.isBlob 16 && r.peerUuid.isBlob 16 && r.peerPublicKey.isBlob 32
    && (r.status == .text (ascii "PENDING") || r.status == .text (ascii "CONFIRMED")
      || r.status == .text (ascii "CANCELLED") || r.status == .text (ascii "EXPIRED"))
    && r.revision.isInteger (fun i => decide (1 ≤ i))
    && r.localConfirmed.isInteger (fun i => i == 0 || i == 1)
    && r.peerConfirmed.isInteger (fun i => i == 0 || i == 1)
    && r.createdAt.isInteger (fun i => decide (0 ≤ i))
    && r.updatedAt.isInteger (fun _ => true) && r.updatedAt.atLeast r.createdAt
    && r.expiresAt.isInteger (fun _ => true) && r.expiresAt.atLeast r.updatedAt
    && (r.status != .text (ascii "CONFIRMED")
      || (r.localConfirmed == .integer 1 && r.peerConfirmed == .integer 1))

end AttemptRow

namespace PermissionRow

/-- `INSERT INTO ... VALUES(?,?)`. -/
def ofParams (p : Params) : PermissionRow := ⟨p 1, p 2⟩

/-- The constraints of a single row. -/
def check (r : PermissionRow) : Bool :=
  r.owner.isBlob 16 && r.permission.isText (fun n => decide (1 ≤ n) && decide (n ≤ 64))

end PermissionRow

/-! ## Tables and statements -/

/-- **The database**: the four tables of the schema. -/
structure Database where
  trustedDevices : List DeviceRow
  devicePermissions : List PermissionRow
  pairingAttempts : List AttemptRow
  pairingAttemptPermissions : List PermissionRow
  deriving DecidableEq, Repr

namespace Database

/-- A new database. -/
def empty : Database := ⟨[], [], [], []⟩

/-- Insert a device row. The index of the public keys is looked at before that
of the primary key. -/
def insertDevice (db : Database) (p : Params) : Except StoreError Database :=
  let row := DeviceRow.ofParams p
  if !row.check then .error (.sqlite .check)
  else if db.trustedDevices.any (fun r => r.publicKey == row.publicKey) then
    .error (.sqlite .unique)
  else if db.trustedDevices.any (fun r => r.uuid == row.uuid) then .error (.sqlite .primaryKey)
  else .ok { db with trustedDevices := db.trustedDevices ++ [row] }

/-- Update the device rows that satisfy `cond`; the second component is
what `sqlite3_changes` reports. No `UPDATE` of the store sets a column of a
key. -/
def updateDevices (db : Database) (cond : DeviceRow → Bool) (set : DeviceRow → DeviceRow) :
    Except StoreError (Database × ℕ) :=
  if (db.trustedDevices.filter cond).all (fun r => (set r).check) then
    .ok ({ db with
      trustedDevices := db.trustedDevices.map (fun r => if cond r then set r else r) },
      db.trustedDevices.countP cond)
  else .error (.sqlite .check)

/-- `DELETE FROM device_permissions WHERE device_uuid=?`. -/
def deleteDevicePermissions (db : Database) (owner : SqlValue) : Database :=
  { db with devicePermissions := db.devicePermissions.filter (fun r => !r.owner.equals owner) }

/-- `DELETE FROM pairing_attempt_permissions WHERE attempt_id=?`. -/
def deleteAttemptPermissions (db : Database) (owner : SqlValue) : Database :=
  { db with
    pairingAttemptPermissions :=
      db.pairingAttemptPermissions.filter (fun r => !r.owner.equals owner) }

/-- Insert a row of `device_permissions`. -/
def insertDevicePermission (db : Database) (p : Params) : Except StoreError Database :=
  let row := PermissionRow.ofParams p
  if !row.check then .error (.sqlite .check)
  else if db.devicePermissions.contains row then .error (.sqlite .primaryKey)
  else if !db.trustedDevices.any (fun r => r.uuid == row.owner) then
    .error (.sqlite .foreignKey)
  else .ok { db with devicePermissions := db.devicePermissions ++ [row] }

/-- Insert a row of `pairing_attempt_permissions`. -/
def insertAttemptPermission (db : Database) (p : Params) : Except StoreError Database :=
  let row := PermissionRow.ofParams p
  if !row.check then .error (.sqlite .check)
  else if db.pairingAttemptPermissions.contains row then .error (.sqlite .primaryKey)
  else if !db.pairingAttempts.any (fun r => r.attemptId == row.owner) then
    .error (.sqlite .foreignKey)
  else .ok { db with pairingAttemptPermissions := db.pairingAttemptPermissions ++ [row] }

/-- Insert an attempt row. -/
def insertAttempt (db : Database) (p : Params) : Except StoreError Database :=
  let row := AttemptRow.ofParams p
  if !row.check then .error (.sqlite .check)
  else if db.pairingAttempts.any (fun r => r.attemptId == row.attemptId) then
    .error (.sqlite .primaryKey)
  else .ok { db with pairingAttempts := db.pairingAttempts ++ [row] }

/-- Update the attempt rows that satisfy `cond`. -/
def updateAttempts (db : Database) (cond : AttemptRow → Bool)
    (set : AttemptRow → AttemptRow) : Except StoreError (Database × ℕ) :=
  if (db.pairingAttempts.filter cond).all (fun r => (set r).check) then
    .ok ({ db with
      pairingAttempts := db.pairingAttempts.map (fun r => if cond r then set r else r) },
      db.pairingAttempts.countP cond)
  else .error (.sqlite .check)

/-- Delete the attempt rows that satisfy `cond`, and with each of them its
permission rows. -/
def deleteAttempts (db : Database) (cond : AttemptRow → Bool) : Database × ℕ :=
  ({ db with
    pairingAttempts := db.pairingAttempts.filter (fun r => !cond r)
    pairingAttemptPermissions := db.pairingAttemptPermissions.filter (fun p =>
      !(db.pairingAttempts.any (fun r => cond r && r.attemptId == p.owner))) },
    db.pairingAttempts.countP cond)

end Database

end Gasoline
