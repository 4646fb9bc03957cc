import Gasoline.TrustRecords

/-!
# The trust ledger

What the trust store is for, without its tables: a ledger holds at most one
record per device and one attempt per attempt id, and each of the seven
operations changes one entry of each at most. `Ledger.Step` says which
ledgers an operation may lead to, and under which conditions it may succeed
at all.

The database is connected to it by `Database.ledger`, what `find_device`
and `find_attempt` return for every id. The main result is that the store
refines the ledger (`StoreOperation.run_refines`): on a well-formed
database an operation that succeeds leaves a well-formed database, and the
two ledgers are related by the step of that operation.
-/

namespace Gasoline

/-! ## The abstract ledger -/

/-- A record as it is read back: its permissions are in order. -/
def TrustedDevice.sorted (d : TrustedDevice) : TrustedDevice :=
  { d with permissions := d.permissions.mergeSort Bytes.le }

/-- An attempt as it is read back: its permissions are in order. -/
def PairingAttempt.sorted (a : PairingAttempt) : PairingAttempt :=
  { a with proposedPermissions := a.proposedPermissions.mergeSort Bytes.le }

/-- The record of a device once it is revoked. -/
def TrustedDevice.revoke (d : TrustedDevice) (revokedAt : Int64) : TrustedDevice :=
  { d with
    status := .revoked
    revision := d.revision + 1
    revokedAt := some revokedAt
    permissions := [] }

/-- **The ledger**: the records and the attempts, by id. -/
@[ext] structure Ledger where
  device : TrustUuid → Option TrustedDevice
  attempt : TrustUuid → Option PairingAttempt

namespace Ledger

/-- The ledger of an empty database. -/
def empty : Ledger := ⟨fun _ => none, fun _ => none⟩

/-- Enter a record. -/
def setDevice (L : Ledger) (d : TrustedDevice) : Ledger :=
  { L with device := Function.update L.device d.uuid (some d) }

/-- Enter an attempt. -/
def setAttempt (L : Ledger) (a : PairingAttempt) : Ledger :=
  { L with attempt := Function.update L.attempt a.attemptId (some a) }

/-- Remove an attempt. -/
def removeAttempt (L : Ledger) (id : TrustUuid) : Ledger :=
  { L with attempt := Function.update L.attempt id none }

/-- No device of the ledger has the key. -/
def KeyFree (L : Ledger) (key : TrustPublicKey) : Prop :=
  ∀ u d, L.device u = some d → d.publicKey ≠ key

/-- An attempt that a finalization may consume: confirmed by both sides, and
not expired at either reading of the clock. -/
structure Consumable (a : PairingAttempt) (finalization : PairingFinalization)
    (now completionTime : Int64) : Prop where
  status : a.status = .confirmed
  localConfirmed : a.localConfirmed = true
  peerConfirmed : a.peerConfirmed = true
  notExpired : now ≤ a.expiresAt
  notExpiredAtCompletion : completionTime ≤ a.expiresAt
  peerUuid : a.peerUuid = finalization.peerUuid
  peerPublicKey : a.peerPublicKey = finalization.peerPublicKey

/-- The record a finalization enters. -/
def finalized (a : PairingAttempt) (finalization : PairingFinalization) (revision now : Int64) :
    TrustedDevice :=
  { TrustStore.finalizedDevice finalization revision now with
    permissions := a.proposedPermissions }

/-- **What each operation may do to the ledger.** -/
inductive Step (L : Ledger) : StoreOperation → Ledger → Prop
  | importDeviceForAdmin {d : TrustedDevice} (fresh : L.device d.uuid = none)
      (keyFree : L.KeyFree d.publicKey) (revision : d.revision = 1) :
      Step L (.importDeviceForAdmin d) (L.setDevice d.sorted)
  | updateDevice {d old : TrustedDevice} {expected : Int64} (stored : L.device d.uuid = some old)
      (key : d.publicKey = old.publicKey) (status : d.status = old.status)
      (oldRevision : old.revision = expected) (positive : 0 < expected)
      (bounded : expected < Int64.maxValue) (revision : d.revision = expected + 1) :
      Step L (.updateDevice d expected) (L.setDevice d.sorted)
  | revokeDevice {u : TrustUuid} {old : TrustedDevice} {expected revokedAt : Int64}
      (stored : L.device u = some old) (oldRevision : old.revision = expected)
      (positive : 0 < expected) (bounded : expected < Int64.maxValue) :
      Step L (.revokeDevice u expected revokedAt) (L.setDevice (old.revoke revokedAt))
  | createAttempt {a : PairingAttempt} (fresh : L.attempt a.attemptId = none)
      (revision : a.revision = 1) : Step L (.createAttempt a) (L.setAttempt a.sorted)
  | updateAttempt {a old : PairingAttempt} {expected : Int64}
      (stored : L.attempt a.attemptId = some old) (peerUuid : a.peerUuid = old.peerUuid)
      (peerPublicKey : a.peerPublicKey = old.peerPublicKey)
      (createdAt : a.createdAt = old.createdAt) (oldRevision : old.revision = expected)
      (positive : 0 < expected) (bounded : expected < Int64.maxValue)
      (revision : a.revision = expected + 1) :
      Step L (.updateAttempt a expected) (L.setAttempt a.sorted)
  | deleteAttempt {id : TrustUuid} {old : PairingAttempt} {expected : Int64}
      (stored : L.attempt id = some old) (oldRevision : old.revision = expected) :
      Step L (.deleteAttempt id expected) (L.removeAttempt id)
  | finalizeNew {id : TrustUuid} {a : PairingAttempt} {expected now completionTime : Int64}
      {finalization : PairingFinalization} (stored : L.attempt id = some a)
      (revision : a.revision = expected)
      (consumable : Consumable a finalization now completionTime)
      (fresh : L.device finalization.peerUuid = none)
      (keyFree : L.KeyFree finalization.peerPublicKey) :
      Step L (.finalizePairing id expected finalization now completionTime)
        ((L.setDevice (finalized a finalization 1 now)).removeAttempt id)
  | finalizeRevoked {id : TrustUuid} {a : PairingAttempt} {old : TrustedDevice}
      {expected now completionTime : Int64} {finalization : PairingFinalization}
      (stored : L.attempt id = some a) (revision : a.revision = expected)
      (consumable : Consumable a finalization now completionTime)
      (known : L.device finalization.peerUuid = some old)
      (key : old.publicKey = finalization.peerPublicKey) (revoked : old.status = .revoked)
      (positive : 0 < old.revision) (bounded : old.revision < Int64.maxValue) :
      Step L (.finalizePairing id expected finalization now completionTime)
        ((L.setDevice (finalized a finalization (old.revision + 1) now)).removeAttempt id)

end Ledger

/-- The texts of a record. -/
def TrustedDevice.texts (d : TrustedDevice) : List Bytes :=
  [d.localAlias, d.peerName, d.peerPlatform, d.pairingMethod]

/-! ## Well-formed databases -/

/-- The ledger a database holds. -/
def Database.ledger (db : Database) : Ledger where
  device u := (TrustStore.findDevice db u).toOption.join
  attempt id := (TrustStore.findAttempt db id).toOption.join

/-- **What the constraints of the schema keep true.** -/
structure Database.WellFormed (db : Database) : Prop where
  deviceChecks : ∀ r ∈ db.trustedDevices, r.check = true
  publicKeys : (db.trustedDevices.map DeviceRow.publicKey).Nodup
  devices : References DeviceRow.uuid PermissionRow.owner db.trustedDevices db.devicePermissions
  devicePermissionChecks : ∀ p ∈ db.devicePermissions, p.check = true
  attemptChecks : ∀ r ∈ db.pairingAttempts, r.check = true
  attempts : References AttemptRow.attemptId PermissionRow.owner db.pairingAttempts
    db.pairingAttemptPermissions
  attemptPermissionChecks : ∀ p ∈ db.pairingAttemptPermissions, p.check = true

theorem Database.wellFormed_empty : Database.empty.WellFormed where
  deviceChecks := fun _ h => by cases h
  publicKeys := List.nodup_nil
  devices := ⟨List.nodup_nil, fun _ h => by cases h⟩
  devicePermissionChecks := fun _ h => by cases h
  attemptChecks := fun _ h => by cases h
  attempts := ⟨List.nodup_nil, fun _ h => by cases h⟩
  attemptPermissionChecks := fun _ h => by cases h

/-! ## Reading the ledger -/

namespace TrustStore

/-- `find_device` is a lookup by UUID. -/
theorem findDevice_eq (db : Database) (u : TrustUuid) :
    findDevice db u = match lookup DeviceRow.uuid db.trustedDevices (blobOf u) with
      | none => .ok none
      | some row => (readDevice db row).map some := by
  have hfind : db.trustedDevices.find? (fun r => r.uuid.equals (blobOf u))
      = lookup DeviceRow.uuid db.trustedDevices (blobOf u) := by
    simp only [lookup, SqlValue.equals_blobOf]
  cases hrow : lookup DeviceRow.uuid db.trustedDevices (blobOf u) with
  | none => simp only [findDevice, hfind.trans hrow]
  | some row => simp only [findDevice, hfind.trans hrow]

/-- **What `find_device` returns**: the record of the row, with the
permissions it has while it is active. -/
theorem findDevice_of_lookup {db : Database} (hwf : db.WellFormed) {u : TrustUuid}
    {d : TrustedDevice}
    (h : lookup DeviceRow.uuid db.trustedDevices (blobOf u) = some (.ofDevice d)) :
    findDevice db u = .ok (some { d with
      permissions := if d.status = .active then permissionsOf db.devicePermissions u else [] }) := by
  have hu : d.uuid = u := blobOf_inj.mp (lookup_spec h).2
  rw [findDevice_eq, h]
  show (readDevice db (.ofDevice d)).map some = _
  rw [readDevice_ofDevice, hu,
    readPermissions_device hwf.devicePermissionChecks hwf.devices.nodup, h]
  have hactive : (SqlValue.text d.status.text = .text (ascii "ACTIVE")) ↔ d.status = .active := by
    rw [SqlValue.text.injEq]
    exact TrustStatus.text_injective.eq_iff' rfl
  simp [Except.map, hactive]

/-- Without a row there is nothing to find. -/
theorem findDevice_of_lookup_none {db : Database} {u : TrustUuid}
    (h : lookup DeviceRow.uuid db.trustedDevices (blobOf u) = none) :
    findDevice db u = .ok none := by
  rw [findDevice_eq, h]

/-- **What `find_attempt` returns**: the attempt of the row, with its
permissions. -/
theorem findAttempt_of_lookup {db : Database} (hwf : db.WellFormed) {id : TrustUuid}
    {a : PairingAttempt}
    (h : lookup AttemptRow.attemptId db.pairingAttempts (blobOf id) = some (.ofAttempt a)) :
    findAttempt db id = .ok (some { a with
      proposedPermissions := permissionsOf db.pairingAttemptPermissions id }) := by
  have hflag : ∀ b : Bool, ((if b then (1 : Int64) else 0) != 0) = b := by decide
  have hfind : db.pairingAttempts.find? (fun r => r.attemptId.equals (blobOf id))
      = some (.ofAttempt a) := by
    simp only [SqlValue.equals_blobOf]
    exact h
  unfold findAttempt
  rw [hfind]
  simp only [AttemptRow.column, AttemptRow.ofAttempt, List.getD_cons_zero, List.getD_cons_succ,
    SqlValue.toText, SqlValue.toInteger, SqlValue.toBlob_blobOf, readAttemptStatus_text, ok_bind,
    readPermissions_attempt hwf.attemptPermissionChecks, hflag, pure, Except.pure]

/-- Without a row there is nothing to find. -/
theorem findAttempt_of_lookup_none {db : Database} {id : TrustUuid}
    (h : lookup AttemptRow.attemptId db.pairingAttempts (blobOf id) = none) :
    findAttempt db id = .ok none := by
  have hfind : db.pairingAttempts.find? (fun r => r.attemptId.equals (blobOf id)) = none := by
    simp only [SqlValue.equals_blobOf]
    exact h
  unfold findAttempt
  rw [hfind]

end TrustStore

namespace Database

variable {db : Database}

/-- `find_device` on a well-formed database: it finds no row, or the record
of one. -/
theorem findDevice_cases (hwf : db.WellFormed) (u : TrustUuid) :
    (lookup DeviceRow.uuid db.trustedDevices (blobOf u) = none
        ∧ TrustStore.findDevice db u = .ok none)
      ∨ ∃ d : TrustedDevice,
        lookup DeviceRow.uuid db.trustedDevices (blobOf u) = some (.ofDevice d)
          ∧ d.permissions
            = (if d.status = .active then permissionsOf db.devicePermissions u else [])
          ∧ TrustStore.findDevice db u = .ok (some d) := by
  cases hrow : lookup DeviceRow.uuid db.trustedDevices (blobOf u) with
  | none => exact .inl ⟨rfl, TrustStore.findDevice_of_lookup_none hrow⟩
  | some r =>
    obtain ⟨d, rfl, -⟩ := DeviceRow.exists_ofDevice (hwf.deviceChecks r (lookup_spec hrow).1)
    exact .inr ⟨{ d with
      permissions := if d.status = .active then permissionsOf db.devicePermissions u else [] },
      rfl, rfl, TrustStore.findDevice_of_lookup hwf hrow⟩

/-- **On a well-formed database `find_device` never throws.** -/
theorem findDevice_eq_ledger (hwf : db.WellFormed) (u : TrustUuid) :
    TrustStore.findDevice db u = .ok (db.ledger.device u) := by
  show _ = Except.ok (TrustStore.findDevice db u).toOption.join
  obtain ⟨-, h⟩ | ⟨d, -, -, h⟩ := findDevice_cases hwf u
  · rw [h]
    rfl
  · rw [h]
    rfl

/-- A device of the ledger is a row, and its permissions are the rows that
refer to it while it is active. -/
theorem device_eq_some_iff (hwf : db.WellFormed) {u : TrustUuid} {d : TrustedDevice} :
    db.ledger.device u = some d ↔
      lookup DeviceRow.uuid db.trustedDevices (blobOf u) = some (.ofDevice d)
        ∧ d.permissions
          = if d.status = .active then permissionsOf db.devicePermissions u else [] := by
  have hledger := findDevice_eq_ledger hwf u
  obtain ⟨hrow, h⟩ | ⟨e, hrow, hperm, h⟩ := findDevice_cases hwf u
  · rw [h, Except.ok.injEq] at hledger
    simp [← hledger, hrow]
  · rw [h, Except.ok.injEq] at hledger
    rw [← hledger, hrow, Option.some.injEq, Option.some.injEq]
    constructor
    · rintro rfl
      exact ⟨rfl, hperm⟩
    · rintro ⟨hrows, hdperm⟩
      have hstatus : e.status = d.status :=
        TrustStatus.text_injective (SqlValue.text.inj (congrArg DeviceRow.status hrows))
      exact DeviceRow.ofDevice_inj hrows (by rw [hdperm, hperm, hstatus])

/-- A device is absent from the ledger where it has no row. -/
theorem device_eq_none_iff (hwf : db.WellFormed) {u : TrustUuid} :
    db.ledger.device u = none ↔ lookup DeviceRow.uuid db.trustedDevices (blobOf u) = none := by
  have hledger := findDevice_eq_ledger hwf u
  obtain ⟨hrow, h⟩ | ⟨e, hrow, -, h⟩ := findDevice_cases hwf u
  · rw [h, Except.ok.injEq] at hledger
    simp [← hledger, hrow]
  · rw [h, Except.ok.injEq] at hledger
    simp [← hledger, hrow]

/-- `find_attempt` on a well-formed database: it finds no row, or the
attempt of one. -/
theorem findAttempt_cases (hwf : db.WellFormed) (id : TrustUuid) :
    (lookup AttemptRow.attemptId db.pairingAttempts (blobOf id) = none
        ∧ TrustStore.findAttempt db id = .ok none)
      ∨ ∃ a : PairingAttempt,
        lookup AttemptRow.attemptId db.pairingAttempts (blobOf id) = some (.ofAttempt a)
          ∧ a.proposedPermissions = permissionsOf db.pairingAttemptPermissions id
          ∧ TrustStore.findAttempt db id = .ok (some a) := by
  cases hrow : lookup AttemptRow.attemptId db.pairingAttempts (blobOf id) with
  | none => exact .inl ⟨rfl, TrustStore.findAttempt_of_lookup_none hrow⟩
  | some r =>
    obtain ⟨a, rfl⟩ := AttemptRow.exists_ofAttempt (hwf.attemptChecks r (lookup_spec hrow).1)
    exact .inr ⟨{ a with proposedPermissions := permissionsOf db.pairingAttemptPermissions id },
      rfl, rfl, TrustStore.findAttempt_of_lookup hwf hrow⟩

/-- **On a well-formed database `find_attempt` never throws.** -/
theorem findAttempt_eq_ledger (hwf : db.WellFormed) (id : TrustUuid) :
    TrustStore.findAttempt db id = .ok (db.ledger.attempt id) := by
  show _ = Except.ok (TrustStore.findAttempt db id).toOption.join
  obtain ⟨-, h⟩ | ⟨a, -, -, h⟩ := findAttempt_cases hwf id
  · rw [h]
    rfl
  · rw [h]
    rfl

/-- An attempt of the ledger is a row, and its permissions are the rows that
refer to it. -/
theorem attempt_eq_some_iff (hwf : db.WellFormed) {id : TrustUuid} {a : PairingAttempt} :
    db.ledger.attempt id = some a ↔
      lookup AttemptRow.attemptId db.pairingAttempts (blobOf id) = some (.ofAttempt a)
        ∧ a.proposedPermissions = permissionsOf db.pairingAttemptPermissions id := by
  have hledger := findAttempt_eq_ledger hwf id
  obtain ⟨hrow, h⟩ | ⟨b, hrow, hperm, h⟩ := findAttempt_cases hwf id
  · rw [h, Except.ok.injEq] at hledger
    simp [← hledger, hrow]
  · rw [h, Except.ok.injEq] at hledger
    rw [← hledger, hrow, Option.some.injEq, Option.some.injEq]
    constructor
    · rintro rfl
      exact ⟨rfl, hperm⟩
    · rintro ⟨hrows, haperm⟩
      exact AttemptRow.ofAttempt_inj hrows (hperm.trans haperm.symm)

/-- An attempt is absent from the ledger where it has no row. -/
theorem attempt_eq_none_iff (hwf : db.WellFormed) {id : TrustUuid} :
    db.ledger.attempt id = none ↔
      lookup AttemptRow.attemptId db.pairingAttempts (blobOf id) = none := by
  have hledger := findAttempt_eq_ledger hwf id
  obtain ⟨hrow, h⟩ | ⟨b, hrow, -, h⟩ := findAttempt_cases hwf id
  · rw [h, Except.ok.injEq] at hledger
    simp [← hledger, hrow]
  · rw [h, Except.ok.injEq] at hledger
    simp [← hledger, hrow]

/-- A row found by UUID is the row of the ledger's record. -/
theorem exists_device_of_lookup (hwf : db.WellFormed) {u : TrustUuid} {r : DeviceRow}
    (h : lookup DeviceRow.uuid db.trustedDevices (blobOf u) = some r) :
    ∃ d, r = .ofDevice d ∧ d.uuid = u ∧ db.ledger.device u = some d := by
  obtain ⟨hrow, -⟩ | ⟨d, hrow, hperm, -⟩ := findDevice_cases hwf u
  · rw [hrow] at h
    cases h
  · refine ⟨d, ?_, blobOf_inj.mp (lookup_spec hrow).2,
      (device_eq_some_iff hwf).mpr ⟨hrow, hperm⟩⟩
    rw [hrow] at h
    exact (Option.some.inj h).symm

/-- A row found by attempt id is the row of the ledger's attempt. -/
theorem exists_attempt_of_lookup (hwf : db.WellFormed) {id : TrustUuid} {r : AttemptRow}
    (h : lookup AttemptRow.attemptId db.pairingAttempts (blobOf id) = some r) :
    ∃ a, r = .ofAttempt a ∧ a.attemptId = id ∧ db.ledger.attempt id = some a := by
  obtain ⟨hrow, -⟩ | ⟨a, hrow, hperm, -⟩ := findAttempt_cases hwf id
  · rw [hrow] at h
    cases h
  · refine ⟨a, ?_, blobOf_inj.mp (lookup_spec hrow).2,
      (attempt_eq_some_iff hwf).mpr ⟨hrow, hperm⟩⟩
    rw [hrow] at h
    exact (Option.some.inj h).symm

theorem keyFree_of_rows (hwf : db.WellFormed) {key : TrustPublicKey}
    (h : ∀ r ∈ db.trustedDevices, r.publicKey ≠ blobOf key) : db.ledger.KeyFree key := by
  intro u d hd hkey
  have hmem := (lookup_spec ((device_eq_some_iff hwf).mp hd).1).1
  exact h _ hmem (congrArg blobOf hkey)

/-- Every record stands under its own UUID. -/
theorem device_uuid (hwf : db.WellFormed) {u : TrustUuid} {d : TrustedDevice}
    (h : db.ledger.device u = some d) : d.uuid = u :=
  blobOf_inj.mp (lookup_spec ((device_eq_some_iff hwf).mp h).1).2

theorem device_publicKey_inj (hwf : db.WellFormed) {u v : TrustUuid} {d e : TrustedDevice}
    (hd : db.ledger.device u = some d) (he : db.ledger.device v = some e)
    (hkey : d.publicKey = e.publicKey) : u = v := by
  have hdrow := (lookup_spec ((device_eq_some_iff hwf).mp hd).1).1
  have herow := (lookup_spec ((device_eq_some_iff hwf).mp he).1).1
  have hrows := List.inj_on_of_nodup_map hwf.publicKeys hdrow herow (congrArg blobOf hkey)
  rw [← device_uuid hwf hd, ← device_uuid hwf he]
  exact blobOf_inj.mp (congrArg DeviceRow.uuid hrows)

/-- **What `find_active_authorization` returns**: the revision and the
permissions of the device's record, if that is active and has the key. -/
theorem findActiveAuthorization_eq (hwf : db.WellFormed) (u : TrustUuid)
    (key : TrustPublicKey) :
    TrustStore.findActiveAuthorization db u key
      = .ok (((db.ledger.device u).filter
          (fun d => decide (d.publicKey = key) && decide (d.status = .active))).map
        (fun d => ⟨d.revision, d.permissions⟩)) := by
  have hfind : db.trustedDevices.find? (fun r => r.uuid.equals (blobOf u)
      && r.publicKey.equals (blobOf key) && r.status.equals (.text (ascii "ACTIVE")))
      = (lookup DeviceRow.uuid db.trustedDevices (blobOf u)).filter (fun r =>
        decide (r.publicKey = blobOf key) && decide (r.status = .text (ascii "ACTIVE"))) := by
    rw [← find?_lookup hwf.devices.nodup]
    simp only [SqlValue.equals_blobOf, SqlValue.equals_text, Bool.and_assoc]
  unfold TrustStore.findActiveAuthorization
  rw [hfind, TrustStore.readPermissions_device hwf.devicePermissionChecks hwf.devices.nodup]
  cases hd : db.ledger.device u with
  | none =>
    rw [(device_eq_none_iff hwf).mp hd]
    rfl
  | some d =>
    obtain ⟨hrow, hperm⟩ := (device_eq_some_iff hwf).mp hd
    have hactive : SqlValue.text d.status.text = .text (ascii "ACTIVE") ↔ d.status = .active := by
      rw [SqlValue.text.injEq]
      exact TrustStatus.text_injective.eq_iff' rfl
    rw [hrow]
    by_cases hmatch : d.publicKey = key ∧ d.status = .active
    · obtain ⟨rfl, hs⟩ := hmatch
      have htext : TrustStatus.active.text = ascii "ACTIVE" := rfl
      simp [Option.filter, hs, hperm, htext, pure, Except.pure]
    · have hno : (decide (d.publicKey = key) && decide (d.status = .active)) = false := by
        simpa using hmatch
      simp [Option.filter, hno, hactive]

/-- **What `permissions` returns**: those of the device's record. -/
theorem permissions_eq (hwf : db.WellFormed) (u : TrustUuid) :
    TrustStore.permissions db u
      = .ok (((db.ledger.device u).map TrustedDevice.permissions).getD []) := by
  unfold TrustStore.permissions
  rw [TrustStore.readPermissions_device hwf.devicePermissionChecks hwf.devices.nodup]
  cases hd : db.ledger.device u with
  | none =>
    rw [(device_eq_none_iff hwf).mp hd]
    rfl
  | some d =>
    obtain ⟨hrow, hperm⟩ := (device_eq_some_iff hwf).mp hd
    have hactive : d.status.text = ascii "ACTIVE" ↔ d.status = .active :=
      TrustStatus.text_injective.eq_iff' rfl
    rw [hrow, Option.map_some, Option.getD_some, hperm]
    simp [hactive]

/-! ## What a change of the tables does to the ledger -/

/-- Replacing the permissions of an owner replaces them, and no others. -/
theorem permissionsOf_replace (rows : List PermissionRow) (owner : TrustUuid) (ps : List Bytes)
    (u : TrustUuid) :
    permissionsOf (rows.filter (fun r => decide (r.owner ≠ blobOf owner))
        ++ ps.map (PermissionRow.ofText owner)) u
      = if u = owner then ps.mergeSort Bytes.le else permissionsOf rows u := by
  split
  · subst u
    refine permissionsOf_append_self (fun r hr => ?_) ps
    simpa using (List.mem_filter.mp hr).2
  · rename_i hu
    rw [permissionsOf_append_of_ne hu]
    refine permissionsOf_filter (fun r hr => ?_)
    simpa [hr] using hu

/-- **A record was entered**: its row and its permissions took the place of
what was stored for the device, and the attempts are as they were. A text of
the record was checked, or stood in the database already. -/
structure Enters (db : Database) (d : TrustedDevice) (ps : List Bytes) (db' : Database) :
    Prop where
  table : Replaces DeviceRow.uuid PermissionRow.owner db.trustedDevices db.devicePermissions
    (.ofDevice d) (ps.map (PermissionRow.ofText d.uuid)) db'.trustedDevices db'.devicePermissions
  writable : TrustStore.Writable ps
  texts : ∀ t ∈ d.texts, Params.validText t = true
    ∨ ∃ old, DeviceRow.ofDevice old ∈ db.trustedDevices ∧ t ∈ old.texts
  revoked : d.status = .revoked → ps = []
  pairingAttempts : db'.pairingAttempts = db.pairingAttempts
  pairingAttemptPermissions : db'.pairingAttemptPermissions = db.pairingAttemptPermissions

/-- **An attempt was entered**: its row and its permissions took the place
of what was stored for it, and the devices are as they were. -/
structure Proposes (db : Database) (a : PairingAttempt) (db' : Database) : Prop where
  table : Replaces AttemptRow.attemptId PermissionRow.owner db.pairingAttempts
    db.pairingAttemptPermissions (.ofAttempt a)
    (a.proposedPermissions.map (PermissionRow.ofText a.attemptId)) db'.pairingAttempts
    db'.pairingAttemptPermissions
  writable : TrustStore.Writable a.proposedPermissions
  trustedDevices : db'.trustedDevices = db.trustedDevices
  devicePermissions : db'.devicePermissions = db.devicePermissions

/-- **An attempt was removed**, and its permissions with it. -/
structure Removes (db : Database) (id : TrustUuid) (db' : Database) : Prop where
  pairingAttempts : db'.pairingAttempts
    = db.pairingAttempts.filter (fun r => decide (r.attemptId ≠ blobOf id))
  pairingAttemptPermissions : db'.pairingAttemptPermissions
    = db.pairingAttemptPermissions.filter (fun r => decide (r.owner ≠ blobOf id))
  trustedDevices : db'.trustedDevices = db.trustedDevices
  devicePermissions : db'.devicePermissions = db.devicePermissions

/-- The devices of the ledger are read from two of the tables. -/
theorem ledger_device_congr {db' : Database} (hwf : db.WellFormed) (hwf' : db'.WellFormed)
    (hrows : db'.trustedDevices = db.trustedDevices)
    (hperms : db'.devicePermissions = db.devicePermissions) :
    db'.ledger.device = db.ledger.device := by
  refine funext fun u => Option.ext fun d => ?_
  rw [device_eq_some_iff hwf', device_eq_some_iff hwf, hrows, hperms]

/-- The attempts of the ledger are read from the other two. -/
theorem ledger_attempt_congr {db' : Database} (hwf : db.WellFormed) (hwf' : db'.WellFormed)
    (hrows : db'.pairingAttempts = db.pairingAttempts)
    (hperms : db'.pairingAttemptPermissions = db.pairingAttemptPermissions) :
    db'.ledger.attempt = db.ledger.attempt := by
  refine funext fun id => Option.ext fun a => ?_
  rw [attempt_eq_some_iff hwf', attempt_eq_some_iff hwf, hrows, hperms]

theorem Enters.ledger {db' : Database} {d : TrustedDevice} {ps : List Bytes}
    (h : db.Enters d ps db') (hwf : db.WellFormed) (hwf' : db'.WellFormed) :
    db'.ledger = db.ledger.setDevice { d with permissions := ps.mergeSort Bytes.le } := by
  refine Ledger.ext (funext fun u => ?_)
    (ledger_attempt_congr hwf hwf' h.pairingAttempts h.pairingAttemptPermissions)
  have hlookup := h.table.lookup_eq hwf'.devices.nodup (blobOf u)
  have hperms := h.table.children_eq
  rw [DeviceRow.ofDevice_uuid] at hlookup hperms
  show db'.ledger.device u = Function.update db.ledger.device d.uuid _ u
  by_cases hu : u = d.uuid
  · subst hu
    rw [Function.update_self]
    refine (device_eq_some_iff hwf').mpr ⟨hlookup.trans (if_pos rfl), ?_⟩
    rw [hperms, permissionsOf_replace, if_pos rfl]
    cases hs : d.status with
    | active => rfl
    | revoked =>
      rw [h.revoked hs]
      exact List.mergeSort_nil
  · rw [Function.update_of_ne hu]
    refine Option.ext (fun e => ?_)
    rw [device_eq_some_iff hwf', device_eq_some_iff hwf, hlookup,
      if_neg (fun e => hu (blobOf_inj.mp e)), hperms, permissionsOf_replace, if_neg hu]

/-- The ledger after an attempt was entered. -/
theorem Proposes.ledger {db' : Database} {a : PairingAttempt} (h : db.Proposes a db')
    (hwf : db.WellFormed) (hwf' : db'.WellFormed) :
    db'.ledger = db.ledger.setAttempt a.sorted := by
  refine Ledger.ext (ledger_device_congr hwf hwf' h.trustedDevices h.devicePermissions)
    (funext fun id => ?_)
  have hlookup := h.table.lookup_eq hwf'.attempts.nodup (blobOf id)
  have hperms := h.table.children_eq
  rw [AttemptRow.ofAttempt_attemptId] at hlookup hperms
  show db'.ledger.attempt id = Function.update db.ledger.attempt a.attemptId (some a.sorted) id
  by_cases hid : id = a.attemptId
  · subst hid
    rw [Function.update_self]
    refine (attempt_eq_some_iff hwf').mpr ⟨hlookup.trans (if_pos rfl), ?_⟩
    rw [hperms, permissionsOf_replace, if_pos rfl]
    rfl
  · rw [Function.update_of_ne hid]
    refine Option.ext (fun b => ?_)
    rw [attempt_eq_some_iff hwf', attempt_eq_some_iff hwf, hlookup,
      if_neg (fun e => hid (blobOf_inj.mp e)), hperms, permissionsOf_replace, if_neg hid]

/-- The ledger after an attempt was removed. -/
theorem Removes.ledger {db' : Database} {id : TrustUuid} (h : db.Removes id db')
    (hwf : db.WellFormed) (hwf' : db'.WellFormed) :
    db'.ledger = db.ledger.removeAttempt id := by
  refine Ledger.ext (ledger_device_congr hwf hwf' h.trustedDevices h.devicePermissions)
    (funext fun i => ?_)
  have hlookup := lookup_delete hwf.attempts.nodup
    (fun r => decide (r.attemptId ≠ blobOf id)) (blobOf i)
  rw [← h.pairingAttempts] at hlookup
  show db'.ledger.attempt i = Function.update db.ledger.attempt id none i
  by_cases hi : i = id
  · subst hi
    rw [Function.update_self, attempt_eq_none_iff hwf', hlookup, Option.filter_eq_none_iff]
    intro r hr
    simpa using (lookup_spec hr).2
  · have hne : blobOf i ≠ blobOf id := fun e => hi (blobOf_inj.mp e)
    have hsame : lookup AttemptRow.attemptId db'.pairingAttempts (blobOf i)
        = lookup AttemptRow.attemptId db.pairingAttempts (blobOf i) := by
      rw [hlookup]
      cases hrow : lookup AttemptRow.attemptId db.pairingAttempts (blobOf i) with
      | none => rfl
      | some r =>
        refine Option.filter_some_pos (decide_eq_true ?_)
        rw [(lookup_spec hrow).2]
        exact hne
    have hperms : permissionsOf db'.pairingAttemptPermissions i
        = permissionsOf db.pairingAttemptPermissions i := by
      rw [h.pairingAttemptPermissions]
      exact permissionsOf_filter (fun p hp => decide_eq_true (hp ▸ hne))
    rw [Function.update_of_ne hi]
    refine Option.ext (fun b => ?_)
    rw [attempt_eq_some_iff hwf', attempt_eq_some_iff hwf, hsame, hperms]

/-- Granting permissions to a device keeps a database well-formed. -/
theorem WellFormed.grant (hwf : db.WellFormed) {new : List PermissionRow}
    (hnew : ∀ r ∈ new, r.check = true ∧ ∃ d ∈ db.trustedDevices, d.uuid = r.owner) :
    WellFormed { db with devicePermissions := db.devicePermissions ++ new } where
  deviceChecks := hwf.deviceChecks
  publicKeys := hwf.publicKeys
  devices := hwf.devices.appendChildren (fun r hr => (hnew r hr).2)
  devicePermissionChecks := List.forall_mem_append.mpr
    ⟨hwf.devicePermissionChecks, fun r hr => (hnew r hr).1⟩
  attemptChecks := hwf.attemptChecks
  attempts := hwf.attempts
  attemptPermissionChecks := hwf.attemptPermissionChecks

/-- Deleting permissions of devices keeps a database well-formed. -/
theorem WellFormed.deleteDevicePermissions (hwf : db.WellFormed) (owner : SqlValue) :
    (db.deleteDevicePermissions owner).WellFormed where
  deviceChecks := hwf.deviceChecks
  publicKeys := hwf.publicKeys
  devices := hwf.devices.filterChildren _
  devicePermissionChecks := fun r hr => hwf.devicePermissionChecks r (List.mem_of_mem_filter hr)
  attemptChecks := hwf.attemptChecks
  attempts := hwf.attempts
  attemptPermissionChecks := hwf.attemptPermissionChecks

/-- Inserting a device keeps a database well-formed. -/
theorem WellFormed.insertDevice (hwf : db.WellFormed) {p : Params} {db' : Database}
    (h : db.insertDevice p = .ok db') : db'.WellFormed := by
  obtain ⟨hcheck, huuid, hkey, rfl⟩ := insertDevice_eq_ok h
  exact {
    deviceChecks := List.forall_mem_append.mpr ⟨hwf.deviceChecks, by simpa using hcheck⟩
    publicKeys := nodup_append_row hwf.publicKeys hkey
    devices := hwf.devices.appendRow huuid
    devicePermissionChecks := hwf.devicePermissionChecks
    attemptChecks := hwf.attemptChecks
    attempts := hwf.attempts
    attemptPermissionChecks := hwf.attemptPermissionChecks }

/-- Updating devices keeps a database well-formed. -/
theorem WellFormed.updateDevices (hwf : db.WellFormed) {cond : DeviceRow → Bool}
    {set : DeviceRow → DeviceRow} {db' : Database} {n : ℕ}
    (h : db.updateDevices cond set = .ok (db', n)) (huuid : ∀ r, (set r).uuid = r.uuid)
    (hkey : ∀ r, (set r).publicKey = r.publicKey) : db'.WellFormed := by
  obtain ⟨hcheck, heq⟩ := updateDevices_eq_ok h
  obtain ⟨rfl, -⟩ := Prod.mk.inj heq
  exact {
    deviceChecks := fun r hr => by
      obtain ⟨x, hx, rfl⟩ := List.mem_map.mp hr
      split
      · exact hcheck x hx ‹_›
      · exact hwf.deviceChecks x hx
    publicKeys := by
      rw [map_key_update hkey]
      exact hwf.publicKeys
    devices := hwf.devices.update huuid
    devicePermissionChecks := hwf.devicePermissionChecks
    attemptChecks := hwf.attemptChecks
    attempts := hwf.attempts
    attemptPermissionChecks := hwf.attemptPermissionChecks }

/-- Proposing permissions for an attempt keeps a database well-formed. -/
theorem WellFormed.propose (hwf : db.WellFormed) {new : List PermissionRow}
    (hnew : ∀ r ∈ new, r.check = true ∧ ∃ a ∈ db.pairingAttempts, a.attemptId = r.owner) :
    WellFormed { db with
      pairingAttemptPermissions := db.pairingAttemptPermissions ++ new } where
  deviceChecks := hwf.deviceChecks
  publicKeys := hwf.publicKeys
  devices := hwf.devices
  devicePermissionChecks := hwf.devicePermissionChecks
  attemptChecks := hwf.attemptChecks
  attempts := hwf.attempts.appendChildren (fun r hr => (hnew r hr).2)
  attemptPermissionChecks := List.forall_mem_append.mpr
    ⟨hwf.attemptPermissionChecks, fun r hr => (hnew r hr).1⟩

/-- Deleting permissions of attempts keeps a database well-formed. -/
theorem WellFormed.deleteAttemptPermissions (hwf : db.WellFormed) (owner : SqlValue) :
    (db.deleteAttemptPermissions owner).WellFormed where
  deviceChecks := hwf.deviceChecks
  publicKeys := hwf.publicKeys
  devices := hwf.devices
  devicePermissionChecks := hwf.devicePermissionChecks
  attemptChecks := hwf.attemptChecks
  attempts := hwf.attempts.filterChildren _
  attemptPermissionChecks := fun r hr => hwf.attemptPermissionChecks r (List.mem_of_mem_filter hr)

/-- Inserting an attempt keeps a database well-formed. -/
theorem WellFormed.insertAttempt (hwf : db.WellFormed) {p : Params} {db' : Database}
    (h : db.insertAttempt p = .ok db') : db'.WellFormed := by
  obtain ⟨hcheck, hid, rfl⟩ := insertAttempt_eq_ok h
  exact {
    deviceChecks := hwf.deviceChecks
    publicKeys := hwf.publicKeys
    devices := hwf.devices
    devicePermissionChecks := hwf.devicePermissionChecks
    attemptChecks := List.forall_mem_append.mpr ⟨hwf.attemptChecks, by simpa using hcheck⟩
    attempts := hwf.attempts.appendRow hid
    attemptPermissionChecks := hwf.attemptPermissionChecks }

/-- Updating attempts keeps a database well-formed. -/
theorem WellFormed.updateAttempts (hwf : db.WellFormed) {cond : AttemptRow → Bool}
    {set : AttemptRow → AttemptRow} {db' : Database} {n : ℕ}
    (h : db.updateAttempts cond set = .ok (db', n))
    (hid : ∀ r, (set r).attemptId = r.attemptId) : db'.WellFormed := by
  obtain ⟨hcheck, heq⟩ := updateAttempts_eq_ok h
  obtain ⟨rfl, -⟩ := Prod.mk.inj heq
  exact {
    deviceChecks := hwf.deviceChecks
    publicKeys := hwf.publicKeys
    devices := hwf.devices
    devicePermissionChecks := hwf.devicePermissionChecks
    attemptChecks := fun r hr => by
      obtain ⟨x, hx, rfl⟩ := List.mem_map.mp hr
      split
      · exact hcheck x hx ‹_›
      · exact hwf.attemptChecks x hx
    attempts := hwf.attempts.update hid
    attemptPermissionChecks := hwf.attemptPermissionChecks }

/-- Deleting attempts keeps a database well-formed. -/
theorem WellFormed.deleteAttempts (hwf : db.WellFormed) (cond : AttemptRow → Bool) :
    (db.deleteAttempts cond).1.WellFormed where
  deviceChecks := hwf.deviceChecks
  publicKeys := hwf.publicKeys
  devices := hwf.devices
  devicePermissionChecks := hwf.devicePermissionChecks
  attemptChecks := fun r hr => hwf.attemptChecks r (List.mem_of_mem_filter hr)
  attempts := hwf.attempts.delete cond
  attemptPermissionChecks := fun r hr => hwf.attemptPermissionChecks r (List.mem_of_mem_filter hr)

/-- An update of one device row updates the row of a record of the
ledger. -/
theorem updateDevices_one (hwf : db.WellFormed) (u : TrustUuid) {cond : DeviceRow → Bool}
    {set : DeviceRow → DeviceRow} {mid : Database} {n : ℕ}
    (h : db.updateDevices cond set = .ok (mid, n)) (hn : n = 1)
    (huuid : ∀ r, (set r).uuid = r.uuid) (hcond : ∀ r, cond r = true → r.uuid = blobOf u) :
    ∃ old, db.ledger.device u = some old ∧ old.uuid = u ∧ cond (.ofDevice old) = true
      ∧ DeviceRow.ofDevice old ∈ db.trustedDevices
      ∧ set (.ofDevice old) ∈ db.trustedDevices.map (fun r => if cond r then set r else r)
      ∧ mid = { db with
        trustedDevices := db.trustedDevices.map (fun r => if cond r then set r else r) } := by
  obtain ⟨-, heq⟩ := updateDevices_eq_ok h
  obtain ⟨rfl, rfl⟩ := Prod.mk.inj heq
  obtain ⟨r, hr, hc, hself, -⟩ := lookup_update_one hwf.devices.nodup huuid hcond hn
  obtain ⟨old, rfl, hu, hold⟩ := exists_device_of_lookup hwf hr
  exact ⟨old, hold, hu, hc, (lookup_spec hr).1, (lookup_spec hself).1, rfl⟩

/-- An update of one attempt row updates the row of an attempt of the
ledger. -/
theorem updateAttempts_one (hwf : db.WellFormed) (id : TrustUuid) {cond : AttemptRow → Bool}
    {set : AttemptRow → AttemptRow} {mid : Database} {n : ℕ}
    (h : db.updateAttempts cond set = .ok (mid, n)) (hn : n = 1)
    (hid : ∀ r, (set r).attemptId = r.attemptId)
    (hcond : ∀ r, cond r = true → r.attemptId = blobOf id) :
    ∃ old, db.ledger.attempt id = some old ∧ old.attemptId = id ∧ cond (.ofAttempt old) = true
      ∧ set (.ofAttempt old) ∈ db.pairingAttempts.map (fun r => if cond r then set r else r)
      ∧ mid = { db with
        pairingAttempts := db.pairingAttempts.map (fun r => if cond r then set r else r) } := by
  obtain ⟨-, heq⟩ := updateAttempts_eq_ok h
  obtain ⟨rfl, rfl⟩ := Prod.mk.inj heq
  obtain ⟨r, hr, hc, hself, -⟩ := lookup_update_one hwf.attempts.nodup hid hcond hn
  obtain ⟨old, rfl, hi, hold⟩ := exists_attempt_of_lookup hwf hr
  exact ⟨old, hold, hi, hc, (lookup_spec hself).1, rfl⟩

/-- A deletion of one attempt row removes an attempt of the ledger. -/
theorem deleteAttempts_one (hwf : db.WellFormed) (id : TrustUuid) {cond : AttemptRow → Bool}
    (hn : (db.deleteAttempts cond).2 = 1)
    (hcond : ∀ r, cond r = true → r.attemptId = blobOf id) :
    ∃ old, db.ledger.attempt id = some old ∧ cond (.ofAttempt old) = true
      ∧ db.Removes id (db.deleteAttempts cond).1 := by
  have hiff := cond_iff_of_countP_one hwf.attempts.nodup hcond hn
  have hpos : 0 < db.pairingAttempts.countP cond := by
    have : db.pairingAttempts.countP cond = 1 := hn
    omega
  obtain ⟨r, hr, hc⟩ := List.countP_pos_iff.mp hpos
  obtain ⟨old, rfl, -, hold⟩ := exists_attempt_of_lookup hwf
    ((lookup_eq_some_iff hwf.attempts.nodup).mpr ⟨hr, hcond r hc⟩)
  refine ⟨old, hold, hc, ?_, ?_, rfl, rfl⟩
  · refine List.filter_congr (fun x hx => ?_)
    rw [decide_not, Bool.not_inj_iff, Bool.eq_iff_iff, decide_eq_true_eq]
    exact hiff x hx
  · refine List.filter_congr (fun p _ => ?_)
    rw [decide_not]
    congr 1
    rw [Bool.eq_iff_iff, List.any_eq_true, decide_eq_true_eq]
    constructor
    · rintro ⟨x, -, hx⟩
      rw [Bool.and_eq_true, beq_iff_eq] at hx
      exact hx.2.symm.trans (hcond x hx.1)
    · intro hp
      refine ⟨_, hr, ?_⟩
      rw [Bool.and_eq_true, beq_iff_eq]
      exact ⟨hc, (hcond _ hc).trans hp.symm⟩

theorem devicePermissions_delete (db : Database) (u : TrustUuid) :
    (db.deleteDevicePermissions (blobOf u)).devicePermissions
      = db.devicePermissions.filter (fun r => decide (r.owner ≠ blobOf u)) := by
  simp [Database.deleteDevicePermissions]

theorem attemptPermissions_delete (db : Database) (id : TrustUuid) :
    (db.deleteAttemptPermissions (blobOf id)).pairingAttemptPermissions
      = db.pairingAttemptPermissions.filter (fun r => decide (r.owner ≠ blobOf id)) := by
  simp [Database.deleteAttemptPermissions]

/-- The rows of an owner's permissions are the owner's. -/
theorem owner_ofText {owner : TrustUuid} {ps : List Bytes} :
    ∀ p ∈ ps.map (PermissionRow.ofText owner), p.owner = blobOf owner := by
  intro p hp
  obtain ⟨t, -, rfl⟩ := List.mem_map.mp hp
  rfl

end Database

/-! ## The operations refine the ledger -/

namespace TrustStore

variable {db db' : Database}

/-- `import_device_for_admin` enters a new record. -/
theorem importDeviceForAdmin_refines (hwf : db.WellFormed) {d : TrustedDevice}
    (h : importDeviceForAdmin d db = .ok db') :
    db'.WellFormed ∧ db.Enters d d.permissions db'
      ∧ db.ledger.Step (.importDeviceForAdmin d) db'.ledger := by
  unfold importDeviceForAdmin at h
  obtain ⟨hrev, h⟩ := require_bind_eq_ok.mp h
  obtain ⟨p, hp, h⟩ := bind_eq_ok.mp h
  obtain ⟨mid, hmid, h⟩ := bind_eq_ok.mp h
  obtain ⟨hrow, hrevoked⟩ := bindDevice_eq_ok hp
  have htexts := (exists_bindDevice.mp ⟨p, hp⟩).2
  have hwritable := (writePermissions_device_iff.mp h).1
  obtain ⟨hdb', hnew⟩ := writePermissions_device h
  have hwf' : db'.WellFormed := hdb' ▸ (hwf.insertDevice hmid).grant hnew
  obtain ⟨-, huuid, hkey, rfl⟩ := Database.insertDevice_eq_ok hmid
  rw [hrow] at huuid hkey hdb'
  have henters : db.Enters d d.permissions db' := by
    rw [hdb']
    exact {
      table := .append (hwf.devices.not_owned huuid) Database.owner_ofText
      writable := hwritable
      texts := fun t ht => .inl (htexts t ht)
      revoked := hrevoked
      pairingAttempts := rfl
      pairingAttemptPermissions := rfl }
  refine ⟨hwf', henters, (henters.ledger hwf hwf').symm ▸ ?_⟩
  exact .importDeviceForAdmin ((Database.device_eq_none_iff hwf).mpr (lookup_eq_none_iff.mpr huuid))
    (Database.keyFree_of_rows hwf hkey) (beq_iff_eq.mp hrev)

/-- `next_revision` admits the successor of a revision that has one. -/
theorem nextRevision_eq_ok {revision expected : Int64} {u : Unit} :
    nextRevision revision expected = .ok u
      ↔ 0 < expected ∧ expected < Int64.maxValue ∧ revision = expected + 1 := by
  unfold nextRevision
  rw [require_eq_ok]
  simp [and_assoc]

/-- `update_device` replaces a record by its next revision. -/
theorem updateDevice_refines (hwf : db.WellFormed) {d : TrustedDevice} {expected : Int64}
    (h : updateDevice d expected db = .ok db') :
    db'.WellFormed ∧ db.Enters d d.permissions db'
      ∧ db.ledger.Step (.updateDevice d expected) db'.ledger := by
  unfold updateDevice at h
  obtain ⟨_, hnext, h⟩ := bind_eq_ok.mp h
  obtain ⟨p, hp, h⟩ := bind_eq_ok.mp h
  obtain ⟨⟨mid, n⟩, hmid, h⟩ := bind_eq_ok.mp h
  obtain ⟨_, hone, h⟩ := bind_eq_ok.mp h
  obtain ⟨hpos, hlt, hrev⟩ := nextRevision_eq_ok.mp hnext
  obtain ⟨hrow, hrevoked⟩ := bindDevice_eq_ok hp
  have htexts := (exists_bindDevice.mp ⟨p, hp⟩).2
  have hwritable := (writePermissions_device_iff.mp h).1
  have h₁ : p 1 = blobOf d.uuid := congrArg DeviceRow.uuid hrow
  have h₂ : p 2 = blobOf d.publicKey := congrArg DeviceRow.publicKey hrow
  have h₃ : p 3 = .text d.status.text := congrArg DeviceRow.status hrow
  have hwf₁ := hwf.updateDevices hmid (fun _ => rfl) (fun _ => rfl)
  obtain ⟨hdb', hnew⟩ := writePermissions_device h
  have hwf' : db'.WellFormed :=
    hdb' ▸ (hwf₁.deleteDevicePermissions (blobOf d.uuid)).grant hnew
  simp (disch := decide) only [Params.bind_self, Params.bind_of_ne, h₁, h₂, h₃,
    SqlValue.equals_blobOf, SqlValue.equals_text, SqlValue.equals_integer] at hmid
  obtain ⟨old, hold, hu, hcond, -, hself, rfl⟩ := Database.updateDevices_one hwf d.uuid
    hmid (changedOne_eq_ok.mp hone) (fun _ => rfl) (fun r hr => by simp_all)
  simp only [DeviceRow.ofDevice_uuid, DeviceRow.ofDevice_publicKey, DeviceRow.ofDevice_status,
    DeviceRow.ofDevice_revision, Bool.and_eq_true, decide_eq_true_eq, blobOf_inj,
    SqlValue.text.injEq, SqlValue.integer.injEq, TrustStatus.text_injective.eq_iff] at hcond
  obtain ⟨⟨⟨-, hkey⟩, hstatus⟩, holdrev⟩ := hcond
  have hrow₁₂ : DeviceRow.ofParams (p.bind 12 (.integer expected)) = .ofDevice d := hrow
  rw [setDevice_eq hrow₁₂ (congrArg blobOf hu) (congrArg blobOf hkey)] at hself
  rw [Database.devicePermissions_delete] at hdb'
  have henters : db.Enters d d.permissions db' := by
    rw [hdb']
    exact {
      table := .update (fun _ => rfl) (fun r hr => by simp_all) hself Database.owner_ofText
      writable := hwritable
      texts := fun t ht => .inl (htexts t ht)
      revoked := hrevoked
      pairingAttempts := rfl
      pairingAttemptPermissions := rfl }
  refine ⟨hwf', henters, (henters.ledger hwf hwf').symm ▸ ?_⟩
  exact .updateDevice hold hkey.symm hstatus.symm holdrev hpos hlt hrev

theorem revokeDevice_refines (hwf : db.WellFormed) {u : TrustUuid} {expected revokedAt : Int64}
    (h : revokeDevice u expected revokedAt db = .ok db') :
    db'.WellFormed ∧ (∃ old : TrustedDevice, db.Enters (old.revoke revokedAt) [] db')
      ∧ db.ledger.Step (.revokeDevice u expected revokedAt) db'.ledger := by
  unfold revokeDevice at h
  obtain ⟨hexpected, h⟩ := require_bind_eq_ok.mp h
  obtain ⟨⟨mid, n⟩, hmid, h⟩ := bind_eq_ok.mp h
  obtain ⟨_, hone, h⟩ := bind_eq_ok.mp h
  have hdb' := Except.ok.inj h
  simp only [Bool.and_eq_true, decide_eq_true_eq] at hexpected
  have hwf' : db'.WellFormed := hdb' ▸
    (hwf.updateDevices hmid (fun _ => rfl) (fun _ => rfl)).deleteDevicePermissions (blobOf u)
  simp only [SqlValue.equals_blobOf, SqlValue.equals_integer] at hmid
  obtain ⟨old, hold, rfl, hcond, hmem, hself, rfl⟩ := Database.updateDevices_one hwf u hmid
    (changedOne_eq_ok.mp hone) (fun _ => rfl) (fun r hr => by simp_all)
  simp only [DeviceRow.ofDevice_uuid, DeviceRow.ofDevice_revision, decide_true, Bool.true_and,
    decide_eq_true_eq, SqlValue.integer.injEq] at hcond
  have hsucc : (SqlValue.integer old.revision).succ = .integer (old.revision + 1) :=
    if_neg (by grind)
  rw [DeviceRow.ofDevice_revision, hsucc] at hself
  have henters : db.Enters (old.revoke revokedAt) [] db' := by
    refine ⟨?_, ⟨by simp, List.nodup_nil, by simp, by simp⟩, fun t ht => .inr ⟨old, hmem, ht⟩,
      fun _ => rfl, by rw [← hdb']; rfl, by rw [← hdb']; rfl⟩
    have hperms : db'.devicePermissions
        = db.devicePermissions.filter (fun r => decide (r.owner ≠ blobOf old.uuid))
          ++ [].map (PermissionRow.ofText old.uuid) := by
      rw [← hdb', Database.devicePermissions_delete, List.map_nil, List.append_nil]
    rw [hperms, ← hdb']
    exact .update (fun _ => rfl) (fun r hr => of_decide_eq_true (Bool.and_eq_true_iff.mp hr).1)
      hself Database.owner_ofText
  have hledger := henters.ledger hwf hwf'
  rw [List.mergeSort_nil] at hledger
  exact ⟨hwf', ⟨old, henters⟩, hledger ▸ .revokeDevice hold hcond hexpected.1 hexpected.2⟩

theorem createAttempt_refines (hwf : db.WellFormed) {a : PairingAttempt}
    (h : createAttempt a db = .ok db') :
    db'.WellFormed ∧ db.Proposes a db' ∧ db.ledger.Step (.createAttempt a) db'.ledger := by
  unfold createAttempt at h
  obtain ⟨hrev, h⟩ := require_bind_eq_ok.mp h
  obtain ⟨p, hp, h⟩ := bind_eq_ok.mp h
  obtain ⟨mid, hmid, h⟩ := bind_eq_ok.mp h
  have hwritable := (writePermissions_attempt_iff.mp h).1
  obtain ⟨hdb', hnew⟩ := writePermissions_attempt h
  have hwf' : db'.WellFormed := hdb' ▸ (hwf.insertAttempt hmid).propose hnew
  have hrow := bindAttempt_eq_ok hp
  obtain ⟨-, hid, rfl⟩ := Database.insertAttempt_eq_ok hmid
  rw [hrow] at hid hdb'
  have hproposes : db.Proposes a db' := by
    rw [hdb']
    exact {
      table := .append (hwf.attempts.not_owned hid) Database.owner_ofText
      writable := hwritable
      trustedDevices := rfl
      devicePermissions := rfl }
  have hfresh := (Database.attempt_eq_none_iff hwf).mpr (lookup_eq_none_iff.mpr hid)
  exact ⟨hwf', hproposes,
    (hproposes.ledger hwf hwf').symm ▸ .createAttempt hfresh (beq_iff_eq.mp hrev)⟩

/-- `update_attempt` replaces an attempt by its next revision. -/
theorem updateAttempt_refines (hwf : db.WellFormed) {a : PairingAttempt} {expected : Int64}
    (h : updateAttempt a expected db = .ok db') :
    db'.WellFormed ∧ db.Proposes a db'
      ∧ db.ledger.Step (.updateAttempt a expected) db'.ledger := by
  unfold updateAttempt at h
  obtain ⟨_, hnext, h⟩ := bind_eq_ok.mp h
  obtain ⟨p, hp, h⟩ := bind_eq_ok.mp h
  obtain ⟨⟨mid, n⟩, hmid, h⟩ := bind_eq_ok.mp h
  obtain ⟨_, hone, h⟩ := bind_eq_ok.mp h
  obtain ⟨hpos, hlt, hrev⟩ := nextRevision_eq_ok.mp hnext
  have hwritable := (writePermissions_attempt_iff.mp h).1
  have hrow := bindAttempt_eq_ok hp
  have h₁ : p 1 = blobOf a.attemptId := congrArg AttemptRow.attemptId hrow
  have h₂ : p 2 = blobOf a.peerUuid := congrArg AttemptRow.peerUuid hrow
  have h₃ : p 3 = blobOf a.peerPublicKey := congrArg AttemptRow.peerPublicKey hrow
  have h₈ : p 8 = .integer a.createdAt := congrArg AttemptRow.createdAt hrow
  have hwf₁ := hwf.updateAttempts hmid (fun _ => rfl)
  obtain ⟨hdb', hnew⟩ := writePermissions_attempt h
  have hwf' : db'.WellFormed :=
    hdb' ▸ (hwf₁.deleteAttemptPermissions (blobOf a.attemptId)).propose hnew
  simp (disch := decide) only [Params.bind_self, Params.bind_of_ne, h₁, h₂, h₃, h₈,
    SqlValue.equals_blobOf, SqlValue.equals_integer] at hmid
  obtain ⟨old, hold, hi, hcond, hself, rfl⟩ := Database.updateAttempts_one hwf
    a.attemptId hmid (changedOne_eq_ok.mp hone) (fun _ => rfl) (fun r hr => by simp_all)
  simp only [AttemptRow.ofAttempt, Bool.and_eq_true, decide_eq_true_eq, blobOf_inj,
    SqlValue.integer.injEq] at hcond
  obtain ⟨⟨⟨⟨-, huuid⟩, hkey⟩, hcreated⟩, holdrev⟩ := hcond
  have hset : AttemptRow.ofAttempt a = { AttemptRow.ofAttempt old with
      status := p 4, revision := p 5, localConfirmed := p 6, peerConfirmed := p 7,
      updatedAt := p 9, expiresAt := p 10 } := by
    rw [← hrow]
    simp [AttemptRow.ofParams, AttemptRow.ofAttempt, h₁, h₂, h₃, h₈, hi, huuid, hkey, hcreated]
  rw [← hset] at hself
  rw [Database.attemptPermissions_delete] at hdb'
  have hproposes : db.Proposes a db' := by
    rw [hdb']
    exact {
      table := .update (fun _ => rfl) (fun r hr => by simp_all) hself Database.owner_ofText
      writable := hwritable
      trustedDevices := rfl
      devicePermissions := rfl }
  refine ⟨hwf', hproposes, (hproposes.ledger hwf hwf').symm ▸ ?_⟩
  exact .updateAttempt hold huuid.symm hkey.symm hcreated.symm holdrev hpos hlt hrev

theorem deleteAttempt_refines (hwf : db.WellFormed) {id : TrustUuid} {expected : Int64}
    (h : deleteAttempt id expected db = .ok db') :
    db'.WellFormed ∧ db.Removes id db'
      ∧ db.ledger.Step (.deleteAttempt id expected) db'.ledger := by
  unfold deleteAttempt at h
  obtain ⟨_, hone, h⟩ := bind_eq_ok.mp h
  obtain rfl := Except.ok.inj h
  have hwf' := hwf.deleteAttempts (fun r => r.attemptId.equals (blobOf id)
    && r.revision.equals (.integer expected))
  obtain ⟨old, hold, hcond, hremoves⟩ := Database.deleteAttempts_one hwf id
    (changedOne_eq_ok.mp hone) (fun r hr => by simp_all)
  simp [AttemptRow.ofAttempt] at hcond
  exact ⟨hwf', hremoves, (hremoves.ledger hwf hwf').symm ▸ .deleteAttempt hold hcond.2⟩

/-- What `finalize_pairing` finds stored for the peer: nothing, or a revoked
record with the peer's key. -/
theorem existingTrust_eq_ok (hwf : db.WellFormed) {f : PairingFinalization} {revision : Int64}
    {reactivating : Bool} (h : existingTrust db f = .ok (revision, reactivating)) :
    (reactivating = false ∧ revision = 1 ∧ db.ledger.device f.peerUuid = none)
      ∨ ∃ old, reactivating = true ∧ revision = old.revision + 1
        ∧ db.ledger.device f.peerUuid = some old ∧ old.publicKey = f.peerPublicKey
        ∧ old.status = .revoked ∧ 0 < old.revision ∧ old.revision < Int64.maxValue := by
  unfold existingTrust at h
  simp only [SqlValue.equals_blobOf] at h
  cases hrow : lookup DeviceRow.uuid db.trustedDevices (blobOf f.peerUuid) with
  | none =>
    unfold lookup at hrow
    rw [hrow] at h
    obtain ⟨rfl, rfl⟩ := Prod.mk.inj (Except.ok.inj h)
    exact .inl ⟨rfl, rfl, (Database.device_eq_none_iff hwf).mpr hrow⟩
  | some r =>
    obtain ⟨old, rfl, -, hold⟩ := Database.exists_device_of_lookup hwf hrow
    unfold lookup at hrow
    rw [hrow] at h
    simp only [DeviceRow.ofDevice_publicKey, SqlValue.toBlob_blobOf, ok_bind,
      DeviceRow.ofDevice_status, SqlValue.toText, DeviceRow.ofDevice_revision,
      SqlValue.toInteger] at h
    obtain ⟨hkey, h⟩ := require_bind_eq_ok.mp h
    obtain ⟨hstatus, h⟩ := require_bind_eq_ok.mp h
    obtain ⟨hbound, h⟩ := require_bind_eq_ok.mp h
    obtain ⟨rfl, rfl⟩ := Prod.mk.inj (Except.ok.inj h)
    simp only [beq_iff_eq, Bool.and_eq_true] at hkey hstatus hbound
    have hpos := of_decide_eq_true hbound.1
    have hlt := of_decide_eq_true hbound.2
    exact .inr ⟨old, rfl, rfl, hold, hkey, TrustStatus.text_injective hstatus, hpos, hlt⟩

/-- `finalize_pairing` writes the row of the new record, and no other. -/
theorem writeFinalized_eq_ok (hwf : db.WellFormed) {d : TrustedDevice} {reactivating : Bool}
    {mid : Database} (h : writeFinalized db d reactivating = .ok mid) :
    mid.WellFormed ∧ DeviceRow.ofDevice d ∈ mid.trustedDevices
      ∧ mid.trustedDevices.filter (fun r => decide (r.uuid ≠ blobOf d.uuid))
        = db.trustedDevices.filter (fun r => decide (r.uuid ≠ blobOf d.uuid))
      ∧ mid = { db with trustedDevices := mid.trustedDevices }
      ∧ (∀ t ∈ d.texts, Params.validText t = true)
      ∧ (reactivating = false → db.ledger.KeyFree d.publicKey) := by
  unfold writeFinalized at h
  obtain ⟨p, hp, h⟩ := bind_eq_ok.mp h
  obtain ⟨hrow, -⟩ := bindDevice_eq_ok hp
  have htexts := (exists_bindDevice.mp ⟨p, hp⟩).2
  cases reactivating with
  | true =>
    rw [if_pos rfl] at h
    obtain ⟨⟨mid', n⟩, hmid, h⟩ := bind_eq_ok.mp h
    obtain ⟨_, hone, h⟩ := bind_eq_ok.mp h
    obtain rfl := Except.ok.inj h
    have h₁ : p 1 = blobOf d.uuid := congrArg DeviceRow.uuid hrow
    have h₂ : p 2 = blobOf d.publicKey := congrArg DeviceRow.publicKey hrow
    have hrow₁₂ : DeviceRow.ofParams (p.bind 12 (.integer (d.revision - 1))) = .ofDevice d := hrow
    have hwf' := hwf.updateDevices hmid (fun _ => rfl) (fun _ => rfl)
    simp (disch := decide) only [Params.bind_self, Params.bind_of_ne, h₁, h₂,
      SqlValue.equals_blobOf, SqlValue.equals_text, SqlValue.equals_integer] at hmid
    obtain ⟨old, -, hu, hcond, -, hself, rfl⟩ := Database.updateDevices_one hwf d.uuid
      hmid (changedOne_eq_ok.mp hone) (fun _ => rfl) (fun r hr => by simp_all)
    have hkey : old.publicKey = d.publicKey := by
      simp only [DeviceRow.ofDevice_publicKey, Bool.and_eq_true, decide_eq_true_eq,
        blobOf_inj] at hcond
      exact hcond.1.1.2
    rw [setDevice_eq hrow₁₂ (congrArg blobOf hu) (congrArg blobOf hkey)] at hself
    have hcondU : ∀ r : DeviceRow, (decide (r.uuid = blobOf d.uuid)
        && decide (r.publicKey = blobOf d.publicKey)
        && decide (r.status = .text (ascii "REVOKED"))
        && decide (r.revision = .integer (d.revision - 1))) = true → r.uuid = blobOf d.uuid := by
      intro r hr
      simp only [Bool.and_eq_true, decide_eq_true_eq] at hr
      exact hr.1.1.1
    have hset : ∀ r, (setDevice (p.bind 12 (.integer (d.revision - 1))) r).uuid = r.uuid :=
      fun _ => rfl
    have htable : Replaces DeviceRow.uuid PermissionRow.owner db.trustedDevices [] _ [] _ _ :=
      .update hset hcondU hself (fun p hp => by cases hp)
    exact ⟨hwf', hself, htable.others, rfl, htexts, fun hfalse => by cases hfalse⟩
  | false =>
    rw [if_neg Bool.false_ne_true] at h
    have hwf' := hwf.insertDevice h
    obtain ⟨-, huuid, hkey, rfl⟩ := Database.insertDevice_eq_ok h
    rw [hrow] at huuid hkey hwf' ⊢
    have htable : Replaces DeviceRow.uuid PermissionRow.owner db.trustedDevices []
        (.ofDevice d) [] (db.trustedDevices ++ [.ofDevice d]) ([] ++ []) :=
      .append (fun p hp => by cases hp) (fun p hp => by cases hp)
    exact ⟨hwf', htable.mem, htable.others, rfl, htexts,
      fun _ => Database.keyFree_of_rows hwf hkey⟩

/-- The attempt both statements of `finalize_pairing` ask for. -/
theorem finalizable_ofAttempt {id : TrustUuid} {expected now : Int64} {a : PairingAttempt} :
    finalizable id expected now (.ofAttempt a) = true ↔
      a.attemptId = id ∧ a.revision = expected ∧ a.status = .confirmed
        ∧ a.localConfirmed = true ∧ a.peerConfirmed = true ∧ now ≤ a.expiresAt := by
  have hflag : ∀ b : Bool, (if b then (1 : Int64) else 0) = 1 ↔ b = true := by decide
  have hstatus : a.status.text = ascii "CONFIRMED" ↔ a.status = .confirmed :=
    PairingAttemptStatus.text_injective.eq_iff' rfl
  simp [finalizable, AttemptRow.ofAttempt, SqlValue.atLeast, hflag, hstatus, and_assoc]

/-- **`finalize_pairing` consumes an attempt and enters an active record of
its peer.** -/
theorem finalizePairing_refines (hwf : db.WellFormed) {id : TrustUuid} {expected : Int64}
    {f : PairingFinalization} {now completionTime : Int64}
    (h : finalizePairing id expected f now completionTime db = .ok db') :
    db'.WellFormed
      ∧ (∃ mid revision ps, db.Enters (finalizedDevice f revision now) ps mid
        ∧ mid.WellFormed ∧ mid.Removes id db')
      ∧ db.ledger.Step (.finalizePairing id expected f now completionTime) db'.ledger := by
  unfold finalizePairing at h
  obtain ⟨-, h⟩ := require_bind_eq_ok.mp h
  obtain ⟨-, h⟩ := require_bind_eq_ok.mp h
  split at h
  · cases h
  rename_i row hfind
  -- the attempt
  have hmatch := List.find?_some hfind
  have hid : row.attemptId = blobOf id := by
    simp [finalizable] at hmatch
    exact hmatch.1.1.1.1.1
  have hlookup : lookup AttemptRow.attemptId db.pairingAttempts (blobOf id) = some row :=
    (lookup_eq_some_iff hwf.attempts.nodup).mpr ⟨List.mem_of_find?_eq_some hfind, hid⟩
  obtain ⟨a, rfl, -, ha⟩ := Database.exists_attempt_of_lookup hwf hlookup
  obtain ⟨-, hrev, hstatus, hlocal, hpeer, hnow⟩ := finalizable_ofAttempt.mp hmatch
  have hperms := ((Database.attempt_eq_some_iff hwf).mp ha).2
  simp only [AttemptRow.ofAttempt, SqlValue.toBlob_blobOf, ok_bind] at h
  obtain ⟨hidentity, h⟩ := require_bind_eq_ok.mp h
  simp only [Bool.and_eq_true, beq_iff_eq] at hidentity
  rw [readPermissions_attempt hwf.attemptPermissionChecks, ← hperms, ok_bind] at h
  -- the record
  obtain ⟨⟨revision, reactivating⟩, hexisting, h⟩ := bind_eq_ok.mp h
  obtain ⟨mid, hmid, h⟩ := bind_eq_ok.mp h
  obtain ⟨hwf₁, hself, hothers, hframe, htexts, hfree⟩ := writeFinalized_eq_ok hwf hmid
  obtain ⟨mid₂, hmid₂, h⟩ := bind_eq_ok.mp h
  have hwritable := (writePermissions_device_iff.mp hmid₂).1
  obtain ⟨hmid₂, hnew⟩ := writePermissions_device hmid₂
  have hwf₂ : mid₂.WellFormed := hmid₂ ▸ (hwf₁.deleteDevicePermissions _).grant hnew
  rw [Database.devicePermissions_delete] at hmid₂
  have henters : db.Enters (finalizedDevice f revision now) a.proposedPermissions mid₂ := by
    rw [hmid₂]
    refine ⟨⟨hself, hothers, ?_, Database.owner_ofText⟩, hwritable, fun t ht => .inl (htexts t ht),
      (fun hr => by cases hr), ?_, ?_⟩
    · rw [hframe]
      rfl
    · rw [hframe]
      rfl
    · rw [hframe]
      rfl
  have hledger₂ := henters.ledger hwf hwf₂
  have hsorted : a.proposedPermissions.mergeSort Bytes.le = a.proposedPermissions := by
    rw [hperms, permissionsOf_mergeSort]
  rw [hsorted] at hledger₂
  -- the consumption
  obtain ⟨-, h⟩ := require_bind_eq_ok.mp h
  obtain ⟨_, hone, h⟩ := bind_eq_ok.mp h
  obtain rfl := Except.ok.inj h
  obtain ⟨b, hb, hconsumed, hremoves⟩ := Database.deleteAttempts_one hwf₂ id
    (changedOne_eq_ok.mp hone) (fun r hr => by
      simp [finalizable] at hr
      exact hr.1.1.1.1.1)
  have hwf' := hwf₂.deleteAttempts (finalizable id expected completionTime)
  have hab : b = a := by
    rw [hledger₂] at hb
    exact Option.some.inj (hb.symm.trans ha)
  subst hab
  obtain ⟨-, -, -, -, -, hcompletion⟩ := finalizable_ofAttempt.mp hconsumed
  have hconsumable : Ledger.Consumable b f now completionTime :=
    ⟨hstatus, hlocal, hpeer, hnow, hcompletion, hidentity.1, hidentity.2⟩
  refine ⟨hwf', ⟨mid₂, revision, _, henters, hwf₂, hremoves⟩, ?_⟩
  rw [hremoves.ledger hwf₂ hwf', hledger₂]
  obtain ⟨hre, rfl, hfresh⟩ | ⟨old, rfl, rfl, hold, hkey, hrevoked, hpos, hlt⟩ :=
    existingTrust_eq_ok hwf hexisting
  · exact .finalizeNew ha hrev hconsumable hfresh (hfree hre)
  · exact .finalizeRevoked ha hrev hconsumable hold hkey hrevoked hpos hlt

end TrustStore

/-- What an operation that succeeds does to the tables. -/
inductive StoreOperation.Writes (db db' : Database) : StoreOperation → Prop
  | importDeviceForAdmin {d : TrustedDevice} :
      db.Enters d d.permissions db' → Writes db db' (.importDeviceForAdmin d)
  | updateDevice {d : TrustedDevice} {expected : Int64} :
      db.Enters d d.permissions db' → Writes db db' (.updateDevice d expected)
  | revokeDevice {u : TrustUuid} {expected revokedAt : Int64} {old : TrustedDevice} :
      db.Enters (old.revoke revokedAt) [] db' → Writes db db' (.revokeDevice u expected revokedAt)
  | createAttempt {a : PairingAttempt} :
      db.Proposes a db' → Writes db db' (.createAttempt a)
  | updateAttempt {a : PairingAttempt} {expected : Int64} :
      db.Proposes a db' → Writes db db' (.updateAttempt a expected)
  | deleteAttempt {id : TrustUuid} {expected : Int64} :
      db.Removes id db' → Writes db db' (.deleteAttempt id expected)
  | finalizePairing {id : TrustUuid} {expected now completionTime revision : Int64}
      {f : PairingFinalization} {ps : List Bytes} {mid : Database} :
      db.Enters (TrustStore.finalizedDevice f revision now) ps mid → mid.WellFormed →
      mid.Removes id db' →
      Writes db db' (.finalizePairing id expected f now completionTime)

/-- **The store refines the ledger**, and each operation writes the rows it
is about and no others. -/
theorem StoreOperation.run_refines {db db' : Database} (hwf : db.WellFormed)
    {operation : StoreOperation} (h : operation.run db = .ok db') :
    db'.WellFormed ∧ operation.Writes db db' ∧ db.ledger.Step operation db'.ledger := by
  cases operation with
  | importDeviceForAdmin d =>
    obtain ⟨hwf', hwrites, hstep⟩ := TrustStore.importDeviceForAdmin_refines hwf h
    exact ⟨hwf', .importDeviceForAdmin hwrites, hstep⟩
  | updateDevice d e =>
    obtain ⟨hwf', hwrites, hstep⟩ := TrustStore.updateDevice_refines hwf h
    exact ⟨hwf', .updateDevice hwrites, hstep⟩
  | revokeDevice u e t =>
    obtain ⟨hwf', ⟨old, hwrites⟩, hstep⟩ := TrustStore.revokeDevice_refines hwf h
    exact ⟨hwf', .revokeDevice hwrites, hstep⟩
  | createAttempt a =>
    obtain ⟨hwf', hwrites, hstep⟩ := TrustStore.createAttempt_refines hwf h
    exact ⟨hwf', .createAttempt hwrites, hstep⟩
  | updateAttempt a e =>
    obtain ⟨hwf', hwrites, hstep⟩ := TrustStore.updateAttempt_refines hwf h
    exact ⟨hwf', .updateAttempt hwrites, hstep⟩
  | deleteAttempt id e =>
    obtain ⟨hwf', hwrites, hstep⟩ := TrustStore.deleteAttempt_refines hwf h
    exact ⟨hwf', .deleteAttempt hwrites, hstep⟩
  | finalizePairing id e f now t =>
    obtain ⟨hwf', ⟨mid, revision, ps, hmid, hwf₁, hwrites⟩, hstep⟩ :=
      TrustStore.finalizePairing_refines hwf h
    exact ⟨hwf', .finalizePairing hmid hwf₁ hwrites, hstep⟩

end Gasoline
