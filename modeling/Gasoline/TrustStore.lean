import Gasoline.TrustSchema

/-!
# The trust store

`TrustStore` keeps trusted devices and pairing attempts. Every operation is
one SQLite transaction: it validates its arguments, runs its statements and
commits, or throws and leaves the database as it was. An operation is
therefore a function `Database → Except StoreError Database`, and a reading
one `Database → Except StoreError α`; the bodies follow the source statement
by statement.

Several instances – of one process or of several – may have the same
database open, and `TrustStores` is that system: the database, and for each
instance the two counters its `change_token` reports. An operation may fail
in any state (a busy database, a failing disk, a file that fails its
permission check), and then changes nothing.
-/

namespace Gasoline

/-- `TrustStatus`. -/
inductive TrustStatus
  | active
  | revoked
  deriving DecidableEq, Repr

/-- `TrustState`. -/
inductive TrustState
  | unknown
  | pairingPending
  | active
  | revoked
  deriving DecidableEq, Repr

/-- `PairingAttemptStatus`. -/
inductive PairingAttemptStatus
  | pending
  | confirmed
  | cancelled
  | expired
  deriving DecidableEq, Repr

/-- `TrustedDevice`. Timestamps are Unix seconds. -/
structure TrustedDevice where
  uuid : TrustUuid
  publicKey : TrustPublicKey
  status : TrustStatus := .active
  revision : Int64 := 1
  localAlias : Bytes := []
  peerName : Bytes := []
  peerPlatform : Bytes := []
  pairingMethod : Bytes := []
  pairedAt : Int64 := 0
  revokedAt : Option Int64 := none
  lastAuthenticatedAt : Option Int64 := none
  permissions : List Bytes := []
  deriving DecidableEq

/-- `PairingAttempt`. -/
structure PairingAttempt where
  attemptId : TrustUuid
  peerUuid : TrustUuid
  peerPublicKey : TrustPublicKey
  status : PairingAttemptStatus := .pending
  revision : Int64 := 1
  localConfirmed : Bool := false
  peerConfirmed : Bool := false
  createdAt : Int64 := 0
  updatedAt : Int64 := 0
  expiresAt : Int64 := 0
  proposedPermissions : List Bytes := []
  deriving DecidableEq

/-- `ActivePeerAuthorization`. -/
structure ActivePeerAuthorization where
  revision : Int64
  permissions : List Bytes
  deriving DecidableEq, Repr

/-- `PairingFinalization`. -/
structure PairingFinalization where
  peerUuid : TrustUuid
  peerPublicKey : TrustPublicKey
  localAlias : Bytes := []
  peerName : Bytes := []
  peerPlatform : Bytes := []
  pairingMethod : Bytes := []
  deriving DecidableEq

/-- `status_text` of a device. -/
def TrustStatus.text : TrustStatus → Bytes
  | .active => ascii "ACTIVE"
  | .revoked => ascii "REVOKED"

/-- `status_text` of an attempt. -/
def PairingAttemptStatus.text : PairingAttemptStatus → Bytes
  | .pending => ascii "PENDING"
  | .confirmed => ascii "CONFIRMED"
  | .cancelled => ascii "CANCELLED"
  | .expired => ascii "EXPIRED"

/-- The value a UUID or a key is bound as. -/
def blobOf {n : ℕ} (v : List.Vector UInt8 n) : SqlValue := .blob v.toList

/-! ## Reading columns -/

namespace SqlValue

/-- `integer`: of an `INTEGER` column, its value. -/
def toInteger : SqlValue → Int64
  | .integer i => i
  | _ => 0

/-- `optional_integer`. -/
def toOptionalInteger : SqlValue → Option Int64
  | .null => none
  | v => some v.toInteger

/-- `text`. -/
def toText : SqlValue → Except StoreError Bytes
  | .text t => .ok t
  | _ => .error (.rejected "invalid stored text")

/-- `blob<N>`. -/
def toBlob (n : ℕ) : SqlValue → Except StoreError (List.Vector UInt8 n)
  | .blob b =>
    if h : b.length = n then .ok ⟨b, h⟩
    else .error (.rejected "invalid stored UUID/public-key length or type")
  | _ => .error (.rejected "invalid stored UUID/public-key length or type")

end SqlValue

namespace TrustStore

/-- `next_revision`. -/
def nextRevision (revision expected : Int64) : Except StoreError Unit :=
  require (decide (0 < expected) && decide (expected < Int64.maxValue)
    && decide (revision = expected + 1)) "replacement revision must advance by one"

/-- `changed_one`. -/
def changedOne (changes : ℕ) : Except StoreError Unit :=
  require (changes == 1) "record missing, immutable identity changed, or stale revision"

/-- The loop of `write_permissions`, with the `INSERT` of one row as a
parameter. -/
def writePermissionRows (insert : Database → Params → Except StoreError Database)
    (id : TrustUuid) : List Bytes → Database → Except StoreError Database
  | [], db => .ok db
  | permission :: permissions, db => do
    let p ← (Params.empty.bind 1 (blobOf id)).bindText 2 permission
    let db ← insert db p
    writePermissionRows insert id permissions db

/-- `write_permissions`; `attempt` chooses the table. -/
def writePermissions (db : Database) (id : TrustUuid) (permissions : List Bytes)
    (attempt : Bool) : Except StoreError Database := do
  require (decide (permissions.length ≤ 128)) "too many permissions"
  writePermissionRows
    (if attempt then Database.insertAttemptPermission else Database.insertDevicePermission)
    id permissions db

/-- The rows `read_permissions` steps through, before they are ordered. -/
def permissionValues (db : Database) (id : TrustUuid) (attempt : Bool) : List SqlValue :=
  if attempt then
    (db.pairingAttemptPermissions.filter (fun p => p.owner.equals (blobOf id))).map
      PermissionRow.permission
  else
    db.devicePermissions.flatMap (fun p =>
      (db.trustedDevices.filter (fun d => d.uuid.equals p.owner && d.uuid.equals (blobOf id)
        && d.status.equals (.text (ascii "ACTIVE")))).map (fun _ => p.permission))

/-- `read_permissions`: `ORDER BY permission`, in byte order. -/
def readPermissions (db : Database) (id : TrustUuid) (attempt : Bool) :
    Except StoreError (List Bytes) := do
  let permissions ← (permissionValues db id attempt).mapM SqlValue.toText
  return permissions.mergeSort Bytes.le

/-- `read_device`, of a row a statement has selected. -/
def readDevice (db : Database) (row : DeviceRow) : Except StoreError TrustedDevice := do
  let uuid ← (row.column 0).toBlob 16
  let publicKey ← (row.column 1).toBlob 32
  let status ← (row.column 2).toText
  require (status == ascii "ACTIVE" || status == ascii "REVOKED") "invalid stored trust status"
  let localAlias ← (row.column 4).toText
  let peerName ← (row.column 5).toText
  let peerPlatform ← (row.column 6).toText
  let pairingMethod ← (row.column 7).toText
  let permissions ← readPermissions db uuid false
  return {
    uuid := uuid
    publicKey := publicKey
    status := if status == ascii "ACTIVE" then .active else .revoked
    revision := (row.column 3).toInteger
    localAlias := localAlias
    peerName := peerName
    peerPlatform := peerPlatform
    pairingMethod := pairingMethod
    pairedAt := (row.column 8).toInteger
    revokedAt := (row.column 9).toOptionalInteger
    lastAuthenticatedAt := (row.column 10).toOptionalInteger
    permissions := permissions }

/-- `bind_device`. -/
def bindDevice (d : TrustedDevice) : Except StoreError Params := do
  require (d.status != .revoked || d.permissions.isEmpty)
    "revoked devices cannot be granted permissions"
  let p := Params.empty
  let p := p.bind 1 (blobOf d.uuid)
  let p := p.bind 2 (blobOf d.publicKey)
  let p ← p.bindText 3 d.status.text
  let p := p.bind 4 (.integer d.revision)
  let p ← p.bindText 5 d.localAlias
  let p ← p.bindText 6 d.peerName
  let p ← p.bindText 7 d.peerPlatform
  let p ← p.bindText 8 d.pairingMethod
  let p := p.bind 9 (.integer d.pairedAt)
  let p := p.bindOptional 10 d.revokedAt
  return p.bindOptional 11 d.lastAuthenticatedAt

/-- `bind_attempt`. -/
def bindAttempt (a : PairingAttempt) : Except StoreError Params := do
  let p := Params.empty
  let p := p.bind 1 (blobOf a.attemptId)
  let p := p.bind 2 (blobOf a.peerUuid)
  let p := p.bind 3 (blobOf a.peerPublicKey)
  let p ← p.bindText 4 a.status.text
  let p := p.bind 5 (.integer a.revision)
  let p := p.bind 6 (.integer (if a.localConfirmed then 1 else 0))
  let p := p.bind 7 (.integer (if a.peerConfirmed then 1 else 0))
  let p := p.bind 8 (.integer a.createdAt)
  let p := p.bind 9 (.integer a.updatedAt)
  return p.bind 10 (.integer a.expiresAt)

/-! ## Operations on devices -/

/-- `import_device_for_admin`. -/
def importDeviceForAdmin (device : TrustedDevice) (db : Database) :
    Except StoreError Database := do
  require (device.revision == 1) "initial trust revision must be one"
  let p ← bindDevice device
  let db ← db.insertDevice p
  writePermissions db device.uuid device.permissions false

/-- `find_device`. -/
def findDevice (db : Database) (uuid : TrustUuid) : Except StoreError (Option TrustedDevice) :=
  match db.trustedDevices.find? (fun r => r.uuid.equals (blobOf uuid)) with
  | none => .ok none
  | some row => (readDevice db row).map some

/-- `find_by_public_key`. -/
def findByPublicKey (db : Database) (key : TrustPublicKey) :
    Except StoreError (Option TrustedDevice) :=
  match db.trustedDevices.find? (fun r => r.publicKey.equals (blobOf key)) with
  | none => .ok none
  | some row => (readDevice db row).map some

/-- `find_active_authorization`: uuid, key and status are matched in one
query. -/
def findActiveAuthorization (db : Database) (uuid : TrustUuid) (publicKey : TrustPublicKey) :
    Except StoreError (Option ActivePeerAuthorization) :=
  match db.trustedDevices.find? (fun r => r.uuid.equals (blobOf uuid)
    && r.publicKey.equals (blobOf publicKey) && r.status.equals (.text (ascii "ACTIVE"))) with
  | none => .ok none
  | some row => do
    let permissions ← readPermissions db uuid false
    return some ⟨row.revision.toInteger, permissions⟩

/-- The `SET` clause of `update_device` and of a reactivation: every column
but the two keys. -/
def setDevice (p : Params) (r : DeviceRow) : DeviceRow :=
  { r with
    status := p 3
    revision := p 4
    localAlias := p 5
    peerName := p 6
    peerPlatform := p 7
    pairingMethod := p 8
    pairedAt := p 9
    revokedAt := p 10
    lastAuthenticatedAt := p 11 }

/-- `update_device`. -/
def updateDevice (device : TrustedDevice) (expectedRevision : Int64) (db : Database) :
    Except StoreError Database := do
  nextRevision device.revision expectedRevision
  let p ← bindDevice device
  let p := p.bind 12 (.integer expectedRevision)
  let (db, changes) ← db.updateDevices
    (fun r => r.uuid.equals (p 1) && r.publicKey.equals (p 2) && r.status.equals (p 3)
      && r.revision.equals (p 12))
    (setDevice p)
  changedOne changes
  let db := db.deleteDevicePermissions (blobOf device.uuid)
  writePermissions db device.uuid device.permissions false

/-- `revoke_device`. -/
def revokeDevice (uuid : TrustUuid) (expectedRevision revokedAt : Int64) (db : Database) :
    Except StoreError Database := do
  require (decide (0 < expectedRevision) && decide (expectedRevision < Int64.maxValue))
    "invalid trust revision"
  let (db, changes) ← db.updateDevices
    (fun r => r.uuid.equals (blobOf uuid) && r.revision.equals (.integer expectedRevision))
    (fun r => { r with
      status := .text (ascii "REVOKED")
      revision := r.revision.succ
      revokedAt := .integer revokedAt })
  changedOne changes
  return db.deleteDevicePermissions (blobOf uuid)

/-- `state`: a stored device decides, then an open attempt. -/
def state (db : Database) (uuid : TrustUuid) : Except StoreError TrustState := do
  let value : SqlValue :=
    match db.trustedDevices.find? (fun r => r.uuid.equals (blobOf uuid)) with
    | some row => row.status
    | none =>
      if db.pairingAttempts.any (fun r => r.peerUuid.equals (blobOf uuid)
          && (r.status.equals (.text (ascii "PENDING"))
            || r.status.equals (.text (ascii "CONFIRMED")))) then
        .text (ascii "PENDING")
      else .text (ascii "UNKNOWN")
  let value ← value.toText
  if value == ascii "ACTIVE" then return .active
  if value == ascii "REVOKED" then return .revoked
  if value == ascii "PENDING" then return .pairingPending
  require (value == ascii "UNKNOWN") "invalid stored trust state"
  return .unknown

/-- `permissions`: of an active device only. -/
def permissions (db : Database) (uuid : TrustUuid) : Except StoreError (List Bytes) :=
  readPermissions db uuid false

/-! ## Operations on attempts -/

/-- `create_attempt`. -/
def createAttempt (attempt : PairingAttempt) (db : Database) : Except StoreError Database := do
  require (attempt.revision == 1) "initial attempt revision must be one"
  let p ← bindAttempt attempt
  let db ← db.insertAttempt p
  writePermissions db attempt.attemptId attempt.proposedPermissions true

/-- The status column of an attempt, read back. -/
def readAttemptStatus (status : Bytes) : Except StoreError PairingAttemptStatus :=
  if status == ascii "PENDING" then .ok .pending
  else if status == ascii "CONFIRMED" then .ok .confirmed
  else if status == ascii "CANCELLED" then .ok .cancelled
  else if status == ascii "EXPIRED" then .ok .expired
  else .error (.rejected "invalid stored attempt status")

/-- `find_attempt`. -/
def findAttempt (db : Database) (id : TrustUuid) : Except StoreError (Option PairingAttempt) :=
  match db.pairingAttempts.find? (fun r => r.attemptId.equals (blobOf id)) with
  | none => .ok none
  | some row => do
    let attemptId ← (row.column 0).toBlob 16
    let peerUuid ← (row.column 1).toBlob 16
    let peerPublicKey ← (row.column 2).toBlob 32
    let status ← (row.column 3).toText
    let status ← readAttemptStatus status
    let proposedPermissions ← readPermissions db id true
    return some {
      attemptId := attemptId
      peerUuid := peerUuid
      peerPublicKey := peerPublicKey
      status := status
      revision := (row.column 4).toInteger
      localConfirmed := (row.column 5).toInteger != 0
      peerConfirmed := (row.column 6).toInteger != 0
      createdAt := (row.column 7).toInteger
      updatedAt := (row.column 8).toInteger
      expiresAt := (row.column 9).toInteger
      proposedPermissions := proposedPermissions }

/-- `update_attempt`. -/
def updateAttempt (attempt : PairingAttempt) (expectedRevision : Int64) (db : Database) :
    Except StoreError Database := do
  nextRevision attempt.revision expectedRevision
  let p ← bindAttempt attempt
  let p := p.bind 11 (.integer expectedRevision)
  let (db, changes) ← db.updateAttempts
    (fun r => r.attemptId.equals (p 1) && r.peerUuid.equals (p 2)
      && r.peerPublicKey.equals (p 3) && r.createdAt.equals (p 8) && r.revision.equals (p 11))
    (fun r => { r with
      status := p 4
      revision := p 5
      localConfirmed := p 6
      peerConfirmed := p 7
      updatedAt := p 9
      expiresAt := p 10 })
  changedOne changes
  let db := db.deleteAttemptPermissions (blobOf attempt.attemptId)
  writePermissions db attempt.attemptId attempt.proposedPermissions true

/-- `delete_attempt`. -/
def deleteAttempt (id : TrustUuid) (expectedRevision : Int64) (db : Database) :
    Except StoreError Database := do
  let (db, changes) := db.deleteAttempts (fun r =>
    r.attemptId.equals (blobOf id) && r.revision.equals (.integer expectedRevision))
  changedOne changes
  return db

/-! ## Finalization -/

/-- The condition both statements of `finalize_pairing` put on the attempt,
at a reading of the clock. -/
def finalizable (attemptId : TrustUuid) (expectedRevision now : Int64) (r : AttemptRow) : Bool :=
  r.attemptId.equals (blobOf attemptId) && r.revision.equals (.integer expectedRevision)
    && r.status.equals (.text (ascii "CONFIRMED")) && r.localConfirmed.equals (.integer 1)
    && r.peerConfirmed.equals (.integer 1) && r.expiresAt.atLeast (.integer now)

/-- What the stored record of the peer says: the revision the finalized one
gets, and whether it reactivates a revoked record. -/
def existingTrust (db : Database) (finalization : PairingFinalization) :
    Except StoreError (Int64 × Bool) :=
  match db.trustedDevices.find? (fun r => r.uuid.equals (blobOf finalization.peerUuid)) with
  | none => .ok (1, false)
  | some row => do
    let publicKey ← row.publicKey.toBlob 32
    require (publicKey == finalization.peerPublicKey)
      "revoked trust identity does not match pairing attempt"
    let status ← row.status.toText
    require (status == ascii "REVOKED") "active trust record already exists"
    let previousRevision := row.revision.toInteger
    require (decide (0 < previousRevision) && decide (previousRevision < Int64.maxValue))
      "invalid trust revision for reactivation"
    return (previousRevision + 1, true)

/-- Write the finalized record: reactivate the revoked one, or insert. -/
def writeFinalized (db : Database) (device : TrustedDevice) (reactivating : Bool) :
    Except StoreError Database := do
  let p ← bindDevice device
  if reactivating then
    let p := p.bind 12 (.integer (device.revision - 1))
    let (db, changes) ← db.updateDevices
      (fun r => r.uuid.equals (p 1) && r.publicKey.equals (p 2)
        && r.status.equals (.text (ascii "REVOKED")) && r.revision.equals (p 12))
      (setDevice p)
    changedOne changes
    return db
  else
    db.insertDevice p

/-- The record `finalize_pairing` writes. Its permissions are those of the
attempt; they are written behind it, not bound with it. -/
def finalizedDevice (finalization : PairingFinalization) (revision now : Int64) :
    TrustedDevice where
  uuid := finalization.peerUuid
  publicKey := finalization.peerPublicKey
  status := .active
  revision := revision
  localAlias := finalization.localAlias
  peerName := finalization.peerName
  peerPlatform := finalization.peerPlatform
  pairingMethod := finalization.pairingMethod
  pairedAt := now

/-- **`finalize_pairing`**, with its two readings of the clock. -/
def finalizePairing (attemptId : TrustUuid) (expectedRevision : Int64)
    (finalization : PairingFinalization) (now completionTime : Int64) (db : Database) :
    Except StoreError Database := do
  require (decide (0 < expectedRevision)) "invalid attempt revision"
  require (decide (0 ≤ now)) "system clock precedes Unix epoch"
  match db.pairingAttempts.find? (finalizable attemptId expectedRevision now) with
  | none =>
    .error (.rejected "pairing attempt missing, stale, unconfirmed, consumed, or expired")
  | some row =>
    let peerUuid ← row.peerUuid.toBlob 16
    let peerPublicKey ← row.peerPublicKey.toBlob 32
    require (peerUuid == finalization.peerUuid && peerPublicKey == finalization.peerPublicKey)
      "pairing finalization identity does not match attempt"
    let permissions ← readPermissions db attemptId true
    let (trustRevision, reactivating) ← existingTrust db finalization
    let device := finalizedDevice finalization trustRevision now
    let db ← writeFinalized db device reactivating
    let db := db.deleteDevicePermissions (blobOf device.uuid)
    let db ← writePermissions db device.uuid permissions false
    require (decide (0 ≤ completionTime)) "system clock precedes Unix epoch"
    let (db, changes) := db.deleteAttempts
      (finalizable attemptId expectedRevision completionTime)
    changedOne changes
    return db

end TrustStore

/-! ## Several instances of the store -/

/-- The operations that write. The clock readings of a finalization are the
environment's. -/
inductive StoreOperation
  | importDeviceForAdmin (device : TrustedDevice)
  | updateDevice (device : TrustedDevice) (expectedRevision : Int64)
  | revokeDevice (uuid : TrustUuid) (expectedRevision revokedAt : Int64)
  | createAttempt (attempt : PairingAttempt)
  | updateAttempt (attempt : PairingAttempt) (expectedRevision : Int64)
  | deleteAttempt (attemptId : TrustUuid) (expectedRevision : Int64)
  | finalizePairing (attemptId : TrustUuid) (expectedRevision : Int64)
      (finalization : PairingFinalization) (now completionTime : Int64)
  deriving DecidableEq

namespace StoreOperation

/-- What the operation does to the database. -/
def run : StoreOperation → Database → Except StoreError Database
  | .importDeviceForAdmin device => TrustStore.importDeviceForAdmin device
  | .updateDevice device expected => TrustStore.updateDevice device expected
  | .revokeDevice uuid expected revokedAt => TrustStore.revokeDevice uuid expected revokedAt
  | .createAttempt attempt => TrustStore.createAttempt attempt
  | .updateAttempt attempt expected => TrustStore.updateAttempt attempt expected
  | .deleteAttempt id expected => TrustStore.deleteAttempt id expected
  | .finalizePairing id expected finalization now completionTime =>
    TrustStore.finalizePairing id expected finalization now completionTime

/-- Whether the operation advances `local_generation` once it has
committed. -/
def advancesGeneration : StoreOperation → Bool
  | .importDeviceForAdmin _ => true
  | .updateDevice _ _ => true
  | .revokeDevice _ _ _ => true
  | .finalizePairing _ _ _ _ _ => true
  | .createAttempt _ => false
  | .updateAttempt _ _ => false
  | .deleteAttempt _ _ => false

end StoreOperation

/-- `TrustStore::ChangeToken`. -/
structure ChangeToken where
  localGeneration : ℕ
  externalGeneration : ℕ
  deriving DecidableEq, Repr

/-- **The instances open on one database**, by number. -/
structure TrustStores where
  database : Database
  /-- Each instance's `local_generation`. -/
  localGeneration : ℕ → ℕ
  /-- What `PRAGMA data_version` reports to each instance: it moves with
  every commit made through another connection. -/
  dataVersion : ℕ → ℕ

/-- A call of an operation through an instance, and whether it succeeds. -/
structure StoreEvent where
  store : ℕ
  operation : StoreOperation
  succeeds : Bool
  deriving DecidableEq

namespace TrustStores

/-- A new database. -/
def initial : TrustStores := ⟨Database.empty, fun _ => 0, fun _ => 0⟩

/-- `change_token`, read through an instance. -/
def changeToken (s : TrustStores) (store : ℕ) : ChangeToken :=
  ⟨s.localGeneration store, s.dataVersion store⟩

/-- A commit through an instance. -/
def commit (s : TrustStores) (store : ℕ) (operation : StoreOperation) (db : Database) :
    TrustStores where
  database := db
  localGeneration :=
    if operation.advancesGeneration then
      Function.update s.localGeneration store (s.localGeneration store + 1)
    else s.localGeneration
  dataVersion := fun i => if i = store then s.dataVersion i else s.dataVersion i + 1

/-- **One call.** It commits, or fails and changes nothing. -/
def step (s : TrustStores) (e : StoreEvent) : Option TrustStores :=
  if e.succeeds then
    match e.operation.run s.database with
    | .ok db => some (s.commit e.store e.operation db)
    | .error _ => none
  else some s

end TrustStores

end Gasoline
